import NetLink.Channel.ReliableLink.Refused
import NetLink.Channel.ReliableLink.Timed

/-! What a link counts as sent and as sent again, and which packets its round-trip samples come from. -/

namespace NetLink.Channel

def LinkStats.sends (s : LinkStats) : ℕ × ℕ := (s.dataSent, s.retransmissions)

namespace ReliableLink

variable {l l' : ReliableLink} {lane : Lane} {s : Stream} {seq : ℕ} {e : InFlight} {packet : Packet}
  {now : TimePoint}

section Counters

lemma sends_of_besidesAcks {s s' : LinkStats} (h : s'.besidesAcks = s.besidesAcks) : s'.sends = s.sends := by
  have hs := congrArg LinkStats.sends h
  exact hs

lemma sends_handleData (header : PacketHeader) (body : List UInt8) :
    (l.handleData lane header body).mStats.sends = l.mStats.sends := by
  rw [handleData]
  dsimp only
  have hr : (((l.checkIndex lane).setStream lane ((l.checkIndex lane).streamFor lane)).retryRefused
    lane).mStats.sends =
      l.mStats.sends := by
    rw [sends_of_besidesAcks (besidesAcks_retryRefused lane), checkIndex]
    split <;> rfl
  generalize ((l.checkIndex lane).setStream lane ((l.checkIndex lane).streamFor lane)).retryRefused
    lane = k at hr ⊢
  split
  · exact hr
  split
  · exact hr
  split
  · exact hr
  · have ha := sends_of_besidesAcks (besidesAcks_acceptInOrder (l := k.dueAck lane) lane
      (k.streamFor lane) header body)
    split
    · next he =>
      rw [he] at ha
      exact ha.trans hr
    · next he =>
      rw [he] at ha
      rw [drainReorderBuffer, sends_of_besidesAcks (besidesAcks_drainLoop lane _ _)]
      exact ha.trans hr

lemma sends_handleMedia (header : PacketHeader) (body : List UInt8) :
    (l.handleMedia header body).mStats.sends = l.mStats.sends := by
  rw [handleMedia]
  dsimp only
  split <;> rfl

lemma sends_of_aside (h : l'.aside = l.aside) : l'.mStats.sends = l.mStats.sends :=
  congrArg (fun a => (a.sent, a.resent)) h

lemma sends_noteSerial (s : Stream) (header : PacketHeader) (ack : AckBody) :
    (l.noteSerial lane s header ack now).mStats.sends = l.mStats.sends ∧
      (l.noteSerial lane s header ack now).mRtt = l.mRtt := by
  rcases noteSerial_eq l lane s header ack now with ⟨-, he⟩ | ⟨-, paused, time, interval, stalled, he⟩
  · rw [he]
    exact ⟨rfl, rfl⟩
  · rw [he]
    exact ⟨rfl, rfl⟩

lemma rtt_afterAck (scan : AckScan) : (l.afterAck lane scan now).mRtt = (l.noteAcked scan now).mRtt := by
  obtain ⟨window, he⟩ := afterAck_eq l lane scan now
  obtain ⟨stalled, hc⟩ := (l.noteAcked scan now).detectLosses.2.updateProgressClock_eq now (scan.acked > 0)
  obtain ⟨streams, stats, window', start, hd, -⟩ :=
    swept_eq (detectLoop_swept (l.noteAcked scan now).mSent (l.noteAcked scan now) false)
  rw [he, hc, detectLosses, hd]

lemma sends_onAck : (l.onAck packet now).mStats.sends = l.mStats.sends := by
  rw [onAck]
  split
  · next s ack _ _ =>
    refine (congrArg (fun a => (a.sent, a.resent)) (aside_applyAck ..)).trans ?_
    exact (sends_noteSerial s packet.header ack).1
  · rfl

lemma sends_onPacket : (l.onPacket packet now).mStats.sends = l.mStats.sends := by
  by_cases ht : l.Takes packet
  · rw [onPacket_of_takes ht, dispatch]
    cases packet.header.flags.kind with
    | data =>
      dsimp only
      split
      · exact sends_handleMedia ..
      · exact sends_handleData ..
    | ack =>
      dsimp only
      rw [sends_onAck, sends_of_aside (aside_checkIndex _)]
    | ping => rfl
    | beacon => rfl
  · obtain ⟨n, he⟩ := onPacket_of_not_takes now ht
    rw [he]
    rfl

lemma sends_onTimer : (l.onTimer now).mStats.sends = l.mStats.sends := by
  rcases aside_onTimer (l := l) now with ha | he
  · exact sends_of_aside ha
  · rw [he]
    rfl

end Counters

section Samples

def sampleOf (l : ReliableLink) (lane : Lane) (header : PacketHeader) (ack : AckBody)
    (now : TimePoint) : Option ℤ :=
  let scan := (l.streamFor lane).acknowledge header ack l.mRecoveryStart l.mLargestAcked
  if scan.acked > 0 then scan.sampleSentAt.map fun sentAt => (now - sentAt).tdiv 1000 else none

def sampled (l : ReliableLink) (packet : Packet) (now : TimePoint) : Option ℤ :=
  if l.Takes packet ∧ packet.header.flags.kind = .ack then
    let lane := packet.header.flags.lane
    let k := { l with
      mRemoteStreamID := some packet.header.srcStreamID
      mLastReceived := l.mLastReceived.map fun _ => now }.checkIndex lane
    match k.mStreams lane, packet.ack with
    | some stream, some ack => (k.noteSerial lane stream packet.header ack now).sampleOf lane packet.header ack now
    | _, _ => none
  else none

lemma rtt_applyAck (header : PacketHeader) (ack : AckBody) :
    (l.applyAck lane header ack now).mRtt = (l.sampleOf lane header ack now).elim l.mRtt l.mRtt.addSample := by
  rw [applyAck, rtt_afterAck, noteAcked, sampleOf]
  generalize (l.streamFor lane).acknowledge header ack l.mRecoveryStart l.mLargestAcked = scan
  split
  · cases scan.sampleSentAt <;> rfl
  · rfl

lemma AckScan.foldl_release_sample {start : ℕ} {t : TimePoint} (seqs : List ℕ) (scan : AckScan)
    (h : (seqs.foldl (AckScan.release start) scan).sampleSentAt = some t) :
    scan.sampleSentAt = some t ∨
      ∃ seq e, scan.stream.inFlight.find seq = some e ∧ e.transmissions = 1 ∧ e.sentAt = t := by
  induction seqs generalizing scan with
  | nil => exact .inl h
  | cons seq seqs ih =>
    rw [List.foldl_cons] at h
    cases hf : scan.stream.inFlight.find seq with
    | none =>
      rw [AckScan.release_of_none hf] at h
      exact ih scan h
    | some e =>
      have hin := (AckScan.release_of_some start hf).1
      rcases ih _ h with hs | ⟨seq', e', hf', he'⟩
      · have hrelease : (scan.release start seq).sampleSentAt =
            if e.transmissions = 1 ∧
              scan.sampleSentAt.all (· < e.sentAt) then some e.sentAt else scan.sampleSentAt := by
          rw [AckScan.release, SequenceBuffer.take, hf]
        rw [hrelease] at hs
        split at hs
        · next hone => exact .inr ⟨seq, e, hf, hone.1, Option.some.inj hs⟩
        · exact .inl hs
      · rw [hin] at hf'
        exact .inr ⟨seq', e', SequenceBuffer.find_of_find_erase hf', he'⟩

lemma sampleOf_spec {header : PacketHeader} {ack : AckBody} {v : ℤ} (h : l.sampleOf lane header ack now = some v) :
    ∃ seq e, l.entry lane seq = some e ∧ e.transmissions = 1 ∧ v = (now - e.sentAt).tdiv 1000 := by
  rw [sampleOf] at h
  split at h
  · obtain ⟨sentAt, hs, rfl⟩ := Option.map_eq_some_iff.mp h
    rcases AckScan.foldl_release_sample _ _ hs with hnone | ⟨seq, e, hf, hone, rfl⟩
    · cases hnone
    · exact ⟨seq, e, hf, hone, rfl⟩
  · cases h

lemma sampled_spec {v : ℤ} (h : l.sampled packet now = some v) :
    ∃ seq e, l.entry packet.header.flags.lane seq = some e ∧ e.transmissions = 1 ∧
      v = (now - e.sentAt).tdiv 1000 := by
  rw [sampled] at h
  split at h
  · dsimp only at h
    split at h
    · next s ack hs _ =>
      obtain ⟨seq, e, he, hone, hv⟩ := sampleOf_spec h
      rw [(sameSending_noteSerial hs packet.header ack now).entry, checkIndex] at he
      refine ⟨seq, e, ?_, hone, hv⟩
      split at he <;> exact he
    · cases h
  · cases h

lemma rtt_onPacket :
    (l.onPacket packet now).mRtt = (l.sampled packet now).elim l.mRtt l.mRtt.addSample := by
  by_cases ht : l.Takes packet
  · rw [onPacket_of_takes ht, sampled]
    by_cases hk : packet.header.flags.kind = .ack
    · rw [if_pos ⟨ht, hk⟩, dispatch, hk]
      have hrtt : (({ l with
          mRemoteStreamID := some packet.header.srcStreamID
          mLastReceived := l.mLastReceived.map fun _ => now } : ReliableLink).checkIndex
            packet.header.flags.lane).mRtt =
          l.mRtt := by
        rw [checkIndex]
        split <;> rfl
      dsimp only
      generalize ({ l with
          mRemoteStreamID := some packet.header.srcStreamID
          mLastReceived := l.mLastReceived.map fun _ => now } : ReliableLink).checkIndex
            packet.header.flags.lane = k at hrtt ⊢
      rw [onAck]
      cases hs : k.mStreams packet.header.flags.lane with
      | none => exact hrtt
      | some s =>
        cases ha : packet.ack with
        | none => exact hrtt
        | some ack =>
          dsimp only
          rw [handleAck, rtt_applyAck, (sends_noteSerial s packet.header ack).2, hrtt]
    · rw [if_neg fun h => hk h.2]
      rcases dispatch_pace ({ l with
          mRemoteStreamID := some packet.header.srcStreamID
          mLastReceived := l.mLastReceived.map fun _ => now }) packet now with hp | ⟨hack, -⟩
      · exact congrArg Pace.rtt hp
      · exact absurd hack hk
  · obtain ⟨n, he⟩ := onPacket_of_not_takes now ht
    rw [he, sampled, if_neg fun h => ht h.1]
    rfl

end Samples

section Commit

lemma sends_transmit (l : ReliableLink) (lane : Lane) (s : Stream) (seq : ℕ) (e : InFlight) (now : TimePoint) :
    (l.transmit lane s seq e now).mStats.sends =
    if e.transmissions = 0 then (l.mStats.dataSent + 1, l.mStats.retransmissions)
    else (l.mStats.dataSent, l.mStats.retransmissions + 1) := by
  have hclock : ∀ k : ReliableLink, (k.updateProgressClock now false).mStats = k.mStats := by
    intro k
    obtain ⟨stalled, he⟩ := k.updateProgressClock_eq now false
    rw [he]
  rw [transmit]
  dsimp only
  rw [hclock]
  by_cases hz : e.transmissions = 0
  · rw [if_pos hz, if_pos (beq_iff_eq.mpr hz)]
    dsimp only [setStream]
    split <;> rfl
  · rw [if_neg hz, if_neg (mt beq_iff_eq.mp hz)]
    dsimp only [setStream]
    split <;> rfl

lemma nextSendSeq_transmit (s : Stream) (other : Lane) :
    ((l.transmit lane s seq e now).streamFor other).nextSendSeq =
    if other = lane then s.nextSendSeq else (l.streamFor other).nextSendSeq := by
  rw [streamFor_transmit]
  by_cases ho : other = lane
  · subst ho
    rw [Function.update_self, if_pos rfl]
  · rw [Function.update_of_ne ho, if_neg ho]

end Commit

end ReliableLink

open ReliableLink

namespace Host

def Happening.sends (x : Happening) (lane : Lane) (seq : ℕ) : Option TimePoint :=
  match x.call with
  | some (.commit other now) => if other = lane ∧ x.before.mPeeked.header.seq = seq then some now else none
  | _ => none

namespace Timed

variable {source : Lane → OutboundMessage → Prop} {incoming : Packet → Prop} {t t' : Timed}

def sends (t : Timed) (lane : Lane) (seq : ℕ) : List TimePoint := t.history.filterMap fun x => x.sends lane seq

lemma sends_next (t : Timed) (now : TimePoint) (call : Option Call) (host : Host) (lane : Lane) (seq : ℕ) :
    (t.next now call host).sends lane seq =
      t.sends lane seq ++ (Happening.sends ⟨now, call, t.host.link, host.link⟩ lane seq).toList := by
  rw [sends, next, List.filterMap_append, sends]
  congr 1

structure Tallied (t : Timed) : Prop where
  fresh : t.host.link.mStats.dataSent =
    (StreamLanes.map fun lane => (t.host.link.streamFor lane).nextSendSeq - 1).sum
  total : t.host.link.mStats.dataSent + t.host.link.mStats.retransmissions = t.host.link.mTransmissions
  held : ∀ lane seq e, lane ≠ .media → t.host.link.entry lane seq = some e → (t.sends lane seq).length ≤ 2 ^ 16 ∧
    e.transmissions = (t.sends lane seq).length % 2 ^ 16 ∧ (t.sends lane seq).getLast? = some e.sentAt
  unsent : ∀ lane seq, lane ≠ .media → (t.host.link.streamFor lane).nextSendSeq ≤ seq → t.sends lane seq = []
  first : ∀ lane, 1 ≤ (t.host.link.streamFor lane).nextSendSeq
  media : ∀ seq, t.host.link.entry .media seq = none

lemma Tallied.quiet (h : t.Tallied) (hsends : ∀ lane seq, lane ≠ .media → t'.sends lane seq = t.sends lane seq)
    (hr : ∀ lane, (t.host.link.streamFor lane).Retains (t'.host.link.streamFor lane))
    (hs : t'.host.link.mStats.sends = t.host.link.mStats.sends)
    (hn : t'.host.link.mTransmissions = t.host.link.mTransmissions) : t'.Tallied := by
  have hdata : t'.host.link.mStats.dataSent = t.host.link.mStats.dataSent := congrArg Prod.fst hs
  have hagain : t'.host.link.mStats.retransmissions = t.host.link.mStats.retransmissions := congrArg Prod.snd hs
  have hseq : ∀ lane, (t'.host.link.streamFor lane).nextSendSeq = (t.host.link.streamFor lane).nextSendSeq :=
    fun lane => (hr lane).next
  refine ⟨?_, ?_, fun lane seq e hl he => ?_, fun lane seq hl hle => ?_, fun lane => ?_, fun seq => ?_⟩
  · rw [hdata, h.fresh]
    simp only [hseq]
  · rw [hdata, hagain, hn, h.total]
  · obtain ⟨e', he', hee⟩ := (hr lane).held seq e he
    have hold := h.held lane seq e' hl he'
    rw [hsends lane seq hl, hee]
    exact hold
  · rw [hsends lane seq hl]
    rw [hseq] at hle
    exact h.unsent lane seq hl hle
  · rw [hseq]
    exact h.first lane
  · rw [Option.eq_none_iff_forall_ne_some]
    intro e he
    obtain ⟨e', he', -⟩ := (hr .media).held seq e he
    exact Option.some_ne_none e' (he'.symm.trans (h.media seq))

/-- A packet whose counter has come back to zero is put on the wire once more. -/
def Wears (t t' : Timed) : Prop :=
  ∃ lane now s seq e, t' = t.next now (some (.commit lane now)) (t.host.commit lane now) ∧
    t.host.link.mStreams lane = some s ∧ s.nextLost.1 = some (seq, e) ∧ e.transmissions = 0

lemma entry_commit {lane : Lane} {s : Stream} {seq : ℕ} {e : InFlight} (hs : t.host.Sound) (hl : lane ≠ .media)
    (hst : t.host.link.mStreams lane = some s) (hn : s.Next seq e) (now : TimePoint) (other : Lane) (n : ℕ) :
    (t.host.link.commit lane now).entry other n = if other = lane ∧ n = seq then
      some (e.transmitted now (t.host.link.mTransmissions + 1)) else t.host.link.entry other n := by
  have hsend := hs.view.send lane
  have hview : t.host.view.streams lane = s := streamFor_of_some _ lane s hst
  rw [hview] at hsend
  have hr := records_stream hl hst hn hsend.wf hsend.slot_free now
  rw [Records, if_neg hl] at hr
  exact hr.2 other n

lemma sends_commit (lane : Lane) (now : TimePoint) (other : Lane) (n : ℕ) :
    (t.next now (some (.commit lane now)) (t.host.commit lane now)).sends other n = t.sends other n ++
      if lane = other ∧ t.host.link.mPeeked.header.seq = n then [now] else [] := by
  rw [sends_next, Happening.sends]
  dsimp only
  split <;> rfl

lemma Tallied.commitMedia (h : t.Tallied) (now : TimePoint) :
    (t.next now (some (.commit .media now)) (t.host.commit .media now)).Tallied := by
  have hcommit : t.host.link.commit .media now = t.host.link.commitMedia := by rw [ReliableLink.commit, if_pos rfl]
  have hstreams : (t.host.link.commitMedia).streamFor = t.host.link.streamFor ∧
      t.host.link.commitMedia.mStats.sends = t.host.link.mStats.sends ∧
      t.host.link.commitMedia.mTransmissions = t.host.link.mTransmissions := by
    rw [ReliableLink.commitMedia]
    split <;> exact ⟨rfl, rfl, rfl⟩
  rw [← hcommit] at hstreams
  refine h.quiet (fun lane seq hl => ?_) (fun lane => ?_) hstreams.2.1 hstreams.2.2
  · rw [sends_commit, if_neg fun hm => hl hm.1.symm, List.append_nil]
  · exact .of_eq (congrArg Stream.nextSendSeq (congrFun hstreams.1 lane))
      (congrArg Stream.inFlight (congrFun hstreams.1 lane))

lemma sum_nextSendSeq {f g : Lane → ℕ} {lane : Lane} (hl : lane ≠ .media) (hf : ∀ other, 1 ≤ f other)
    (hg : ∀ other, g other = if other = lane then f lane + 1 else f other) :
    (StreamLanes.map fun lane => g lane - 1).sum = (StreamLanes.map fun lane => f lane - 1).sum + 1 := by
  have hc := hf .control
  have hr := hf .reliable
  have hb := hf .bulk
  simp only [StreamLanes, List.map_cons, List.map_nil, List.sum_cons, List.sum_nil, hg]
  cases lane with
  | control | reliable | bulk =>
    simp only [reduceCtorEq, if_true, if_false]
    omega
  | media => exact absurd rfl hl

section Commit

variable {lane : Lane} {s : Stream} {seq : ℕ} {e : InFlight}

lemma Tallied.sent (h : t.Tallied) (hs : t.host.Sound) (hl : lane ≠ .media)
    (hst : t.host.link.mStreams lane = some s)
    (hn : s.Next seq e) (hp : t.host.link.mPeeked.header.seq = seq) (now : TimePoint)
    (hcount : e.transmissions = (t.sends lane seq).length) (hroom : (t.sends lane seq).length < 2 ^ 16)
    (hfresh : (t.host.link.commit lane now).mStats.dataSent =
      (StreamLanes.map fun lane' => ((t.host.link.commit lane now).streamFor lane').nextSendSeq - 1).sum)
    (htotal : (t.host.link.commit lane now).mStats.dataSent + (t.host.link.commit lane
      now).mStats.retransmissions =
      (t.host.link.commit lane now).mTransmissions)
    (hnext : ∀ other, (t.host.link.streamFor other).nextSendSeq ≤
      ((t.host.link.commit lane now).streamFor other).nextSendSeq)
    (hseq : seq < ((t.host.link.commit lane now).streamFor lane).nextSendSeq) :
    (t.next now (some (.commit lane now)) (t.host.commit lane now)).Tallied := by
  refine ⟨hfresh, htotal, fun other n x ho hx => ?_, fun other n ho hle => ?_, fun other => ?_, fun n => ?_⟩
  · have hfind : (t.host.link.commit lane now).entry other n = some x := hx
    rw [entry_commit hs hl hst hn] at hfind
    rw [sends_commit, hp]
    split at hfind
    · next hsame =>
      obtain ⟨rfl, rfl⟩ := hsame
      rw [← Option.some.inj hfind, if_pos ⟨rfl, rfl⟩, List.length_append, ← hcount,
        List.getLast?_append_of_ne_nil _ (by simp)]
      rw [← hcount] at hroom
      exact ⟨hroom, rfl, rfl⟩
    · next hother =>
      rw [if_neg fun hsame => hother ⟨hsame.1.symm, hsame.2.symm⟩, List.append_nil]
      exact h.held other n x ho hfind
  · have hle : ((t.host.link.commit lane now).streamFor other).nextSendSeq ≤ n := hle
    rw [sends_commit, hp, if_neg, List.append_nil]
    · exact h.unsent other n ho ((hnext other).trans hle)
    · rintro ⟨rfl, rfl⟩
      exact absurd hseq (not_lt.mpr hle)
  · exact (h.first other).trans (hnext other)
  · have hentry := entry_commit hs hl hst hn now .media n
    rw [if_neg fun hm => hl hm.1.symm] at hentry
    exact hentry.trans (h.media n)

lemma Tallied.retransmit (h : t.Tallied) (hs : t.host.Sound) (hl : lane ≠ .media)
    (hst : t.host.link.mStreams lane = some s) (hn : s.nextLost.1 = some (seq, e))
    (hp : t.host.link.mPeeked.header.seq = seq) (hw : e.transmissions ≠ 0) (now : TimePoint) :
    (t.next now (some (.commit lane now)) (t.host.commit lane now)).Tallied := by
  have hview : t.host.link.streamFor lane = s := streamFor_of_some _ lane s hst
  have hheld : t.host.link.entry lane seq = some e := by
    rw [entry, hview]
    exact (SendInv.nextLost_some hn).2.1
  obtain ⟨hle, hlength, -⟩ := h.held lane seq e hl hheld
  have hcommit := commit_lost hl hst hn now
  have hsends := sends_transmit t.host.link lane { s.nextLost.2 with lost := s.nextLost.2.lost.tail } seq e now
  rw [← hcommit, if_neg hw] at hsends
  have hdata : (t.host.link.commit lane now).mStats.dataSent = t.host.link.mStats.dataSent :=
    congrArg Prod.fst hsends
  have hagain : (t.host.link.commit lane now).mStats.retransmissions = t.host.link.mStats.retransmissions + 1 :=
    congrArg Prod.snd hsends
  have hnumber : (t.host.link.commit lane now).mTransmissions = t.host.link.mTransmissions + 1 := by
    rw [hcommit]
    exact congrArg LinkView.transmissions (view_transmit lane (h := t.host) _ seq e now)
  have hnext : ∀ other, ((t.host.link.commit lane now).streamFor other).nextSendSeq =
      (t.host.link.streamFor other).nextSendSeq := by
    intro other
    rw [hcommit, nextSendSeq_transmit]
    split
    · next ho =>
      rw [ho, hview]
      rfl
    · rfl
  have hkey := ((hs.view.send lane).key seq (SequenceBuffer.contains_iff.mpr ⟨e, hheld⟩)).2
  refine h.sent hs hl hst (.inl hn) hp now (by omega) (by omega) ?_ ?_ (fun other => (hnext other).ge) ?_
  · rw [hdata, h.fresh]
    simp only [hnext]
  · rw [hdata, hagain, hnumber, ← h.total, Nat.add_assoc]
  · rw [hnext]
    exact hkey

lemma Tallied.transmit {c : FragmentCursor} (h : t.Tallied) (hs : t.host.Sound) (hl : lane ≠ .media)
    (hst : t.host.link.mStreams lane = some s) (hn : s.nextLost.1 = none)
    (hroom : s.nextSendSeq - s.sendBase < s.inFlight.capacity) (hc : s.cursor = some c)
    (hp : t.host.link.mPeeked.header.seq = s.nextSendSeq) (now : TimePoint) :
    (t.next now (some (.commit lane now)) (t.host.commit lane now)).Tallied := by
  have hview : t.host.link.streamFor lane = s := streamFor_of_some _ lane s hst
  have hcommit := commit_fresh hl hst hn hc now
  have hsends := sends_transmit t.host.link lane { s.nextLost.2 with
    nextSendSeq := s.nextSendSeq + 1
    inFlight := s.inFlight.insert s.nextSendSeq (fragmentAt c)
    cursor := c.advance } s.nextSendSeq (fragmentAt c) now
  have hnew : (fragmentAt c).transmissions = 0 := rfl
  rw [← hcommit, if_pos hnew] at hsends
  have hdata : (t.host.link.commit lane now).mStats.dataSent = t.host.link.mStats.dataSent + 1 :=
    congrArg Prod.fst hsends
  have hagain : (t.host.link.commit lane now).mStats.retransmissions = t.host.link.mStats.retransmissions :=
    congrArg Prod.snd hsends
  have hnumber : (t.host.link.commit lane now).mTransmissions = t.host.link.mTransmissions + 1 := by
    rw [hcommit]
    exact congrArg LinkView.transmissions (view_transmit lane (h := t.host) _ s.nextSendSeq (fragmentAt c) now)
  have hnext : ∀ other, ((t.host.link.commit lane now).streamFor other).nextSendSeq =
      if other = lane then (t.host.link.streamFor lane).nextSendSeq + 1
        else (t.host.link.streamFor other).nextSendSeq := by
    intro other
    rw [hcommit, nextSendSeq_transmit, hview]
  have hnone : t.sends lane s.nextSendSeq = [] := h.unsent lane s.nextSendSeq hl (by rw [hview])
  refine h.sent hs hl hst (.inr ⟨hn, hroom, rfl, c, hc, rfl⟩) hp now (by rw [hnone]; rfl)
    (by rw [hnone]; decide) ?_ ?_
    (fun other => ?_) ?_
  · rw [hdata, h.fresh, sum_nextSendSeq hl h.first hnext]
  · rw [hdata, hagain, hnumber, ← h.total]
    omega
  · rw [hnext]
    split
    · next ho =>
      rw [ho]
      exact Nat.le_succ _
    · exact le_rfl
  · rw [hnext, if_pos rfl, hview]
    exact Nat.lt_succ_self _

end Commit

section Run

lemma counters_call {h : Host} {c : Call} (hc : ∀ lane now, c ≠ .commit lane now) :
    (h.call c).link.mStats.sends = h.link.mStats.sends ∧
      ((h.call c).link.mTransmissions = h.link.mTransmissions ∨ (h.call c).link.mFailed = true) := by
  cases c with
  | commit lane now => exact absurd rfl (hc lane now)
  | peek lane next =>
    have hp := ReliableLink.peeks Host.single h.link lane next
    exact ⟨congrArg LinkStats.sends hp.stats, .inl (congrArg (fun f => f.pace.transmissions) hp.footing)⟩
  | peekAck =>
    have hp := (unmoved_peekAck (l := h.link)).1
    exact ⟨sends_of_besidesAcks (congrArg Footing.stats hp), .inl (congrArg (fun f => f.pace.transmissions) hp)⟩
  | commitAck => exact ⟨rfl, .inl rfl⟩
  | onPacket packet now => exact ⟨sends_onPacket, .inl (transmissions_onPacket h.link packet now)⟩
  | setPaused paused =>
    exact ⟨sends_of_aside (aside_setPaused paused), .inl (congrArg Aside.transmissions (aside_setPaused paused))⟩
  | onTimer now =>
    refine ⟨sends_onTimer, ?_⟩
    rcases aside_onTimer (l := h.link) now with ha | hf
    · exact .inl (congrArg Aside.transmissions ha)
    · exact .inr (congrArg ReliableLink.mFailed hf)
  | supervise now => exact ⟨rfl, .inl rfl⟩
  | takeDelivered => exact ⟨rfl, .inl rfl⟩

lemma seq_of_peeked {l : ReliableLink} {lane : Lane} {seq : ℕ} {e : InFlight}
    (h : l.mPeeked = makeDatagram (l.headerOf lane seq e) e.bytes) : l.mPeeked.header.seq = seq := by
  rw [h]
  simp only [makeDatagram, PacketHeader.onWire, ReliableLink.headerOf, ReliableLink.makeHeader]
  split <;> rfl

lemma Tallied.commit {lane : Lane} {now : TimePoint} (h : t.Tallied) (hs : t.host.Sound)
    (ho : t.host.offered = some lane)
    (hw : ¬Wears t (t.next now (some (.commit lane now)) (t.host.commit lane now))) :
    (t.next now (some (.commit lane now)) (t.host.commit lane now)).Tallied := by
  by_cases hl : lane = .media
  · subst hl
    exact h.commitMedia now
  obtain ⟨-, seq, e, hp, hstream⟩ := hs.offers lane ho
  obtain ⟨s, hst, hn⟩ := hstream hl
  have hseq := seq_of_peeked hp
  rcases hn with hlost | ⟨hnone, hwindow, rfl, c, hc, rfl⟩
  · exact h.retransmit hs hl hst hlost hseq (fun he => hw ⟨lane, now, s, seq, e, rfl, hst, hlost, he⟩) now
  · exact h.transmit hs hl hst hnone hwindow hc hseq now

lemma Tallied.silent {now : TimePoint} {call : Option Call} {host : Host} (h : t.Tallied) (hs : t.host.Sound)
    (ht : Host.Step source incoming t.host host) (hc : ∀ lane now, call ≠ some (.commit lane now))
    (hsends : host.link.mStats.sends = t.host.link.mStats.sends)
    (hn : host.link.mTransmissions = t.host.link.mTransmissions) (hf : host.link.mFailed = false) :
    (t.next now call host).Tallied := by
  have hnone : ∀ lane seq, Happening.sends ⟨now, call, t.host.link, host.link⟩ lane seq = none := by
    intro lane seq
    rw [Happening.sends]
    split
    · next other time hcall => exact absurd hcall (hc other time)
    · rfl
  rcases run_of_step ht hs.offers with hfails | hrun
  · rw [hfails] at hf
    cases hf
  · refine h.quiet (fun lane seq _ => ?_) (fun lane => ?_) hsends hn
    · rw [sends_next, hnone, Option.toList_none, List.append_nil]
    · exact (hrun.retains hs.view).2 hn lane

lemma Tallied.step (hr : (Timed.system source incoming).Reachable t) (hs : Step source incoming t t')
    (hw : ¬Wears t t') (h : t.host.link.mFailed = true ∨ t.Tallied) :
    t'.host.link.mFailed = true ∨ t'.Tallied := by
  have hhost := reachable_host hr
  have hsound := Host.sound hhost
  rcases h with hf | h
  · exact .inl (Host.failed_of_step hhost hs.host hf)
  by_cases hfailed : t'.host.link.mFailed = true
  · exact .inl hfailed
  right
  have hstep := hs.host
  have hfailed : t'.host.link.mFailed = false := by simpa using hfailed
  cases hs with
  | exchangeBudget budget now => exact h.silent hsound hstep (fun _ _ => nofun) rfl rfl hfailed
  | call c now hc hn htime =>
    by_cases hcommit : ∃ lane time, c = .commit lane time
    · obtain ⟨lane, time, rfl⟩ := hcommit
      obtain rfl := htime time rfl
      exact h.commit hsound hc hw
    · have hother : ∀ lane time, c ≠ .commit lane time := fun lane time he => hcommit ⟨lane, time, he⟩
      obtain ⟨hsends, hnumber | hfails⟩ := counters_call (h := t.host) hother
      · exact h.silent hsound hstep (fun lane time he => hother lane time (Option.some.inj he)) hsends
          hnumber hfailed
      · exact absurd hfails (Bool.eq_false_iff.mp hfailed)

lemma tallied_initial (h : t.host.Initial) (hh : t.history = []) : t.Tallied := by
  obtain ⟨timings, id, budget, he⟩ := h
  have hsends : ∀ lane seq, t.sends lane seq = [] := by
    intro lane seq
    rw [sends, hh]
    rfl
  have hnone : ∀ lane seq, t.host.link.entry lane seq = none := by
    intro lane seq
    rw [he]
    exact SequenceBuffer.find_new _
  refine ⟨by rw [he]; rfl, by
    rw [he]; rfl, fun lane seq e _ hx => ?_, fun lane seq _ _ => hsends lane seq, fun lane => ?_,
    fun seq => hnone .media seq⟩
  · rw [hnone] at hx
    cases hx
  · rw [he]
    exact le_rfl

def sparing (source : Lane → OutboundMessage → Prop) (incoming : Packet → Prop) : Lib.System Timed where
  init := (Timed.system source incoming).init
  step t t' := Step source incoming t t' ∧ ¬Wears t t'

lemma tallied (hr : (sparing source incoming).Reachable t) :
    (Timed.system source incoming).Reachable t ∧ (t.host.link.mFailed = true ∨ t.Tallied) := by
  refine hr.invariant (P := fun t => (Timed.system source incoming).Reachable t ∧
    (t.host.link.mFailed = true ∨ t.Tallied)) ?_ ?_
  · intro t hi
    exact ⟨.of_init hi, .inr (tallied_initial hi.1 hi.2)⟩
  · rintro t t' - ⟨hreach, ht⟩ ⟨hs, hw⟩
    exact ⟨hreach.step hs, Tallied.step hreach hs hw ht⟩

end Run

end Timed

end Host

end NetLink.Channel
