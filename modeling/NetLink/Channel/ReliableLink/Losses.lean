import Mathlib.Order.MinMax
import NetLink.Channel.ReliableLink.Aside
import NetLink.Channel.ReliableLink.Settled

/-! What an Ack makes a link give up: packets sent long enough before the latest one that was acknowledged. -/

namespace NetLink.Channel

open SequenceBuffer

namespace AckScan

variable {start seq : ℕ} {scan : AckScan}

lemma release_of_none (h : scan.stream.inFlight.find seq = none) : scan.release start seq = scan := by
  simp [release, SequenceBuffer.take, h]

variable (start) in
lemma release_of_some {e : InFlight} (h : scan.stream.inFlight.find seq = some e) :
    (scan.release start seq).stream.inFlight = scan.stream.inFlight.erase seq ∧
      (scan.release start seq).largestAcked = max scan.largestAcked e.transmission := by
  simp [release, SequenceBuffer.take, h, Stream.released]

lemma foldl_release (seqs : List ℕ) (scan : AckScan) (hw : scan.stream.inFlight.WF) :
    (seqs.foldl (release start) scan).stream.inFlight.WF ∧
      (∀ t e, (seqs.foldl (release start) scan).stream.inFlight.find t = some e →
        scan.stream.inFlight.find t = some e) ∧
      ((seqs.foldl (release start) scan).largestAcked = scan.largestAcked ∨ ∃ seq ∈ seqs, ∃ e,
        scan.stream.inFlight.find seq = some e ∧
          (seqs.foldl (release start) scan).largestAcked = e.transmission) := by
  induction seqs generalizing scan with
  | nil => exact ⟨hw, fun _ _ => id, .inl rfl⟩
  | cons seq seqs ih =>
    rw [List.foldl_cons]
    cases hf : scan.stream.inFlight.find seq with
    | none =>
      rw [release_of_none hf]
      refine (ih scan hw).imp_right (And.imp_right (Or.imp_right ?_))
      rintro ⟨t, ht, e, he⟩
      exact ⟨t, List.mem_cons_of_mem _ ht, e, he⟩
    | some e =>
      obtain ⟨hin, hlargest⟩ := release_of_some start hf
      have hold : ∀ t e', (scan.release start seq).stream.inFlight.find t = some e' →
          scan.stream.inFlight.find t = some e' := fun t e' ht => by
        rw [hin, find_erase hw] at ht
        split at ht
        · cases ht
        · exact ht
      obtain ⟨hwf, hfound, hcase⟩ := ih (scan.release start seq) (hin ▸ wf_erase hw)
      refine ⟨hwf, fun t e' ht => hold t e' (hfound t e' ht), ?_⟩
      rcases hcase with hl | ⟨t, ht, e', he', hl⟩
      · rw [hl, hlargest]
        rcases max_choice scan.largestAcked e.transmission with hm | hm
        · exact .inl hm
        · exact .inr ⟨seq, List.mem_cons_self .., e, hf, hm⟩
      · exact .inr ⟨t, List.mem_cons_of_mem _ ht, e', hold t e' he', hl⟩

end AckScan

lemma Stream.acknowledge_spec (s : Stream) (header : PacketHeader) (ack : AckBody) (start largest : ℕ)
    (hw : s.inFlight.WF) :
    (s.acknowledge header ack start largest).stream.inFlight.WF ∧
      (∀ t e, (s.acknowledge header ack start largest).stream.inFlight.find t = some e →
        s.inFlight.find t = some e) ∧
      ((s.acknowledge header ack start largest).largestAcked = largest ∨ ∃ seq ∈ s.ackedSeqs header ack, ∃ e,
        s.inFlight.find seq = some e ∧ (s.acknowledge header ack start largest).largestAcked = e.transmission) :=
  AckScan.foldl_release _ { stream := s, largestAcked := largest } hw

def Stream.Keeps (s t : Stream) : Prop :=
  ∀ seq e, t.inFlight.find seq = some e → ∃ e', s.inFlight.find seq = some e' ∧ e'.transmission = e.transmission

structure Stream.Retains (s t : Stream) : Prop where
  next : t.nextSendSeq = s.nextSendSeq
  held : ∀ seq e, t.inFlight.find seq = some e → ∃ e', s.inFlight.find seq = some e' ∧
    e = { e' with lost := e.lost }

namespace Stream.Retains

variable {s t u : Stream}

lemma of_eq (hn : t.nextSendSeq = s.nextSendSeq) (hi : t.inFlight = s.inFlight) : s.Retains t :=
  ⟨hn, fun _ e hf => ⟨e, hi ▸ hf, rfl⟩⟩

lemma trans (h : s.Retains t) (h' : t.Retains u) : s.Retains u where
  next := h'.next.trans h.next
  held seq e hf := by
    obtain ⟨e', hf', he'⟩ := h'.held seq e hf
    obtain ⟨e'', hf'', he''⟩ := h.held seq e' hf'
    rw [he''] at he'
    exact ⟨e'', hf'', he'⟩

lemma keeps (h : s.Retains t) : s.Keeps t := by
  intro seq e hf
  obtain ⟨e', hf', he⟩ := h.held seq e hf
  exact ⟨e', hf', (congrArg InFlight.transmission he).symm⟩

end Stream.Retains

section Transmissions

variable {f : Feed} {v w : LinkView}

def LinkView.Keeps (v w : LinkView) : Prop := ∀ lane, (v.streams lane).Keeps (w.streams lane)

def LinkView.Retains (v w : LinkView) : Prop := ∀ lane, (v.streams lane).Retains (w.streams lane)

structure LinkView.Transmits (v w : LinkView) (lane : Lane) (seq : ℕ) : Prop where
  number : w.transmissions = v.transmissions + 1
  sent : w.sent = v.sent ++ [⟨v.transmissions + 1, seq, lane⟩]
  entries : ∀ other t e, (w.streams other).inFlight.find t = some e →
    (∃ e', (v.streams other).inFlight.find t = some e' ∧ e'.transmission = e.transmission) ∨
      other = lane ∧ t = seq ∧ e.transmission = v.transmissions + 1

lemma LinkView.retains_set {lane : Lane} {s : Stream} (h : (v.streams lane).Retains s) :
    v.Retains (v.set lane s) := by
  intro other
  by_cases ho : other = lane
  · subst ho
    rwa [LinkView.streams_set]
  · simp only [LinkView.set, Function.update_of_ne ho]
    exact .of_eq rfl rfl

lemma LinkView.entries_set {lane : Lane} {s : Stream} {seq n : ℕ}
    (h : ∀ t e, s.inFlight.find t = some e →
      t = seq ∧ e.transmission = n ∨ ∃ e', (v.streams lane).inFlight.find t = some e' ∧
        e'.transmission = e.transmission) :
    ∀ other t e, ((v.set lane s).streams other).inFlight.find t = some e →
      (∃ e', (v.streams other).inFlight.find t = some e' ∧ e'.transmission = e.transmission) ∨
        other = lane ∧ t = seq ∧ e.transmission = n := by
  intro other t e hf
  by_cases ho : other = lane
  · subst ho
    rw [LinkView.streams_set] at hf
    exact (h t e hf).symm.imp_right fun hn => ⟨rfl, hn⟩
  · simp only [LinkView.set, Function.update_of_ne ho] at hf
    exact .inl ⟨e, hf, rfl⟩

lemma LinkMove.transmits (hi : ViewInv v) (hm : LinkMove f v w) :
    w.transmissions = v.transmissions ∧ v.Retains w ∨ ∃ lane seq, v.Transmits w lane seq := by
  have quiet : ∀ lane s, (v.streams lane).Retains s → v.transmissions = v.transmissions ∧
    v.Retains (v.set lane s) :=
    fun lane s h => ⟨rfl, LinkView.retains_set h⟩
  cases hm with
  | take lane m => exact .inl (quiet lane _ (.of_eq rfl rfl))
  | takeMedia | deliverMedia | drop | queue | unqueue | fault => exact .inl ⟨rfl, fun _ => .of_eq rfl rfl⟩
  | recv lane ms t hk hl hm =>
    refine .inl (quiet lane t ?_)
    cases hm <;> exact .of_eq rfl rfl
  | tune lane => exact .inl (quiet lane _ (.of_eq rfl rfl))
  | scrub lane => exact .inl (quiet lane _ (.of_eq rfl rfl))
  | advance lane => exact .inl (quiet lane _ (.of_eq rfl rfl))
  | retransmit lane seq rest e now hm hl hf he =>
    refine .inr ⟨lane, seq, rfl, rfl, LinkView.entries_set fun t e' ht => ?_⟩
    rw [Stream.retransmitted, find_assign (hi.send lane).wf] at ht
    split at ht
    · next hc => exact .inl ⟨hc.1, by rw [← Option.some.inj ht]; rfl⟩
    · exact .inr ⟨e', ht, rfl⟩
  | transmit lane c now hm hc hr =>
    refine .inr ⟨lane, _, rfl, rfl, LinkView.entries_set fun t e' ht => ?_⟩
    rw [(hi.send lane).find_transmitted hr] at ht
    split at ht
    · next hs => exact .inl ⟨hs, by rw [← Option.some.inj ht]; rfl⟩
    · exact .inr ⟨e', ht, rfl⟩
  | release lane seq e hk ha hf =>
    refine .inl (quiet lane _ ⟨rfl, fun t e' ht => ?_⟩)
    rw [Stream.released, find_erase (hi.send lane).wf] at ht
    split at ht
    · cases ht
    · exact ⟨e', ht, rfl⟩
  | giveUp record rest e hk hs hf he ht =>
    refine .inl (quiet record.lane _ ⟨rfl, fun t e' ht => ?_⟩)
    rw [Stream.givenUp, find_assign (hi.send record.lane).wf] at ht
    split at ht
    · next hc =>
      rw [hc.1]
      exact ⟨e, hf, by rw [← Option.some.inj ht]⟩
    · exact ⟨e', ht, rfl⟩

lemma LinkRun.retains (hi : ViewInv v) (hr : LinkRun f v w) :
    v.transmissions ≤ w.transmissions ∧ (w.transmissions = v.transmissions → v.Retains w) := by
  refine (hr.invariant (P := fun u => ViewInv u ∧ v.transmissions ≤ u.transmissions ∧
    (u.transmissions = v.transmissions → v.Retains u)) (fun u w hu hm => ⟨hu.1.move hm, ?_⟩)
    ⟨hi, le_rfl, fun _ _ => .of_eq rfl rfl⟩).2
  obtain ⟨hu, hle, hretains⟩ := hu
  rcases hm.transmits hu with ⟨hn, hk⟩ | ⟨lane, seq, ht⟩
  · exact ⟨hle.trans hn.ge, fun heq lane => (hretains (hn.symm.trans heq) lane).trans (hk lane)⟩
  · have hnumber := ht.number
    exact ⟨by omega, fun heq => by omega⟩

lemma LinkRun.keeps (hi : ViewInv v) (hr : LinkRun f v w) :
    v.transmissions ≤ w.transmissions ∧ (w.transmissions = v.transmissions → v.Keeps w) :=
  ⟨(hr.retains hi).1, fun hn lane => ((hr.retains hi).2 hn lane).keeps⟩

end Transmissions

namespace ReliableLink

variable {l : ReliableLink} {lane other : Lane} {seq : ℕ} {e e' : InFlight}

def entry (l : ReliableLink) (lane : Lane) (seq : ℕ) : Option InFlight := (l.streamFor lane).inFlight.find seq

lemma entry_setStream (s : Stream) : (l.setStream lane s).entry lane seq = s.inFlight.find seq := by
  rw [entry, streamFor_setStream_self]

lemma entry_setStream_of_ne (h : other ≠ lane) (s : Stream) :
    (l.setStream lane s).entry other seq = l.entry other seq := by
  rw [entry, streamFor_setStream, Function.update_of_ne h, entry]

def Sending (l : ReliableLink) : Prop := ∀ lane, (l.streamFor lane).inFlight.WF

lemma Sending.markLost (hw : l.Sending) (record : SentRecord) (e : InFlight) (timedOut : Bool) :
    (l.markLost record e timedOut).Sending := by
  intro lane
  obtain ⟨stats, cwnd, start, he⟩ := l.markLost_eq record e timedOut
  rw [he]
  change ((l.setStream record.lane _).streamFor lane).inFlight.WF
  rw [streamFor_setStream]
  exact (Function.forall_update_iff l.streamFor fun _ s => s.inFlight.WF).mpr
    ⟨wf_assign (hw record.lane), fun lane _ => hw lane⟩ lane

lemma entry_markLost_of_ne (hw : l.Sending) {record : SentRecord} (h : ¬(lane = record.lane ∧ seq = record.seq))
    (timedOut : Bool) : (l.markLost record e timedOut).entry lane seq = l.entry lane seq := by
  obtain ⟨stats, cwnd, start, he⟩ := l.markLost_eq record e timedOut
  rw [he]
  change (l.setStream record.lane _).entry lane seq = _
  by_cases hl : lane = record.lane
  · subst hl
    rw [entry_setStream, Stream.givenUp, find_assign (hw record.lane), if_neg fun hs => h ⟨rfl, hs.1⟩, entry]
  · rw [entry_setStream_of_ne hl]

lemma entry_markLost (hw : l.Sending) {record : SentRecord} (he : l.entryOf record = some e) (timedOut : Bool) :
    (l.markLost record e timedOut).entry record.lane record.seq = some { e with lost := true } := by
  obtain ⟨stats, window, start, hm⟩ := l.markLost_eq record e timedOut
  have hc : (l.streamFor record.lane).inFlight.contains record.seq = true :=
    contains_iff.mpr ⟨e, (entryOf_eq_some he).1⟩
  rw [hm]
  change (l.setStream record.lane ((l.streamFor record.lane).givenUp record.seq e)).entry record.lane
    record.seq = _
  rw [entry_setStream, Stream.givenUp, find_assign (hw record.lane), if_pos ⟨rfl, hc⟩]

lemma detectLoop_lost (records : List SentRecord) (l : ReliableLink) (lost : Bool) (hw : l.Sending)
    (hf : (detectLoop records l lost).2.entry lane seq = some e') (he : e'.lost = true) :
    ∃ e, l.entry lane seq = some e ∧
      (e.lost = false → e.transmission + FastRetransmitThreshold ≤ l.mLargestAcked) := by
  induction records generalizing l lost with
  | nil => exact ⟨e', hf, fun h => by simp [he] at h⟩
  | cons record rest ih =>
    rw [detectLoop] at hf
    split at hf
    · exact ih l lost hw hf
    · next e₀ he₀ =>
      split at hf
      · exact ⟨e', hf, fun h => by simp [he] at h⟩
      · next hlarge =>
        obtain ⟨hfound, hlive, htransmission⟩ := entryOf_eq_some he₀
        have hlargest : (l.markLost record e₀ false).mLargestAcked = l.mLargestAcked :=
          congrArg Aside.largest (aside_markLost record e₀ false)
        by_cases hrec : lane = record.lane ∧ seq = record.seq
        · obtain ⟨rfl, rfl⟩ := hrec
          refine ⟨e₀, hfound, fun _ => ?_⟩
          rw [htransmission]
          exact not_lt.mp hlarge
        · obtain ⟨e, hfe, hle⟩ := ih _ _ (hw.markLost record e₀ false) hf
          rw [entry_markLost_of_ne hw hrec] at hfe
          exact ⟨e, hfe, hlargest ▸ hle⟩

variable {packet : Packet} {header : PacketHeader} {ack : AckBody} {now : TimePoint}
  {p : PacketHeader → List UInt8 → Prop}

lemma afterAck_lost (scan : AckScan) (hw : l.Sending) (hf : (l.afterAck other scan now).entry lane seq = some e')
    (he : e'.lost = true) :
    ∃ e, l.entry lane seq = some e ∧
      (e.lost = false → e.transmission + FastRetransmitThreshold ≤ l.mLargestAcked) := by
  obtain ⟨rtt, timeouts, hl⟩ := noteAcked_eq (l := l) scan now
  have hg : ∀ k : ReliableLink, ∀ losses counted,
      (k.growWindow other losses counted).entry lane seq = k.entry lane seq := by
    intro k losses counted
    obtain ⟨cwnd, he⟩ := growWindow_eq k other losses counted
    rw [he]
    rfl
  have hu : ∀ k : ReliableLink, (k.updateProgressClock now (scan.acked > 0)).entry lane seq =
    k.entry lane seq := by
    intro k
    obtain ⟨stalled, he⟩ := updateProgressClock_eq k now (scan.acked > 0)
    rw [he]
    rfl
  rw [afterAck, hg, hu, detectLosses, hl] at hf
  exact detectLoop_lost l.mSent { l with mRtt := rtt, mTimeoutsInARow := timeouts } false hw hf he

def acknowledged (l : ReliableLink) (lane : Lane) (header : PacketHeader) (ack : AckBody) : ReliableLink :=
  let scan := (l.streamFor lane).acknowledge header ack l.mRecoveryStart l.mLargestAcked
  { l with mLargestAcked := scan.largestAcked }.setStream lane scan.stream

lemma Sending.acknowledged (hw : l.Sending) : (l.acknowledged other header ack).Sending := by
  intro lane
  rw [ReliableLink.acknowledged, streamFor_setStream]
  exact (Function.forall_update_iff l.streamFor fun _ s => s.inFlight.WF).mpr
    ⟨((l.streamFor other).acknowledge_spec header ack _ _ (hw other)).1, fun lane _ => hw lane⟩ lane

lemma entry_acknowledged (hw : l.Sending) (h : (l.acknowledged other header ack).entry lane seq = some e) :
    l.entry lane seq = some e := by
  rw [acknowledged] at h
  by_cases hl : lane = other
  · subst hl
    rw [entry_setStream] at h
    exact ((l.streamFor lane).acknowledge_spec header ack _ _ (hw lane)).2.1 seq e h
  · rw [entry_setStream_of_ne hl] at h
    exact h

lemma applyAck_lost (hw : l.Sending) (hf : (l.applyAck other header ack now).entry lane seq = some e')
    (he : e'.lost = true) : ∃ e, l.entry lane seq = some e ∧
      (e.lost = false → e.transmission + FastRetransmitThreshold ≤
        (l.applyAck other header ack now).mLargestAcked) := by
  have hlargest : (l.applyAck other header ack now).mLargestAcked =
    (l.acknowledged other header ack).mLargestAcked :=
    congrArg Aside.largest (aside_afterAck ..)
  obtain ⟨e, hfe, hle⟩ := afterAck_lost _ (Sending.acknowledged hw) hf he
  exact ⟨e, entry_acknowledged hw hfe, fun h => hlargest ▸ hle h⟩

lemma applyAck_largest (hw : l.Sending) :
    (l.applyAck lane header ack now).mLargestAcked = l.mLargestAcked ∨ ∃ seq e, l.entry lane seq = some e ∧
      (seq ≤ header.seq ∨ ∃ r ∈ ack.ranges, r.first ≤ seq ∧ seq ≤ r.last) ∧
      (l.applyAck lane header ack now).mLargestAcked = e.transmission := by
  have hlargest : (l.applyAck lane header ack now).mLargestAcked =
    (l.acknowledged lane header ack).mLargestAcked :=
    congrArg Aside.largest (aside_afterAck ..)
  rw [hlargest]
  rcases ((l.streamFor lane).acknowledge_spec header ack l.mRecoveryStart l.mLargestAcked (hw lane)).2.2
    with h | ⟨seq, hseq, e, hf, h⟩
  · exact .inl h
  · exact .inr ⟨seq, e, hf, (Stream.mem_ackedSeqs hseq).2.2, h⟩

def SameSending (l l' : ReliableLink) : Prop :=
  (∀ lane, (l'.streamFor lane).inFlight = (l.streamFor lane).inFlight) ∧ l'.mLargestAcked = l.mLargestAcked ∧
    l'.mTransmissions = l.mTransmissions

namespace SameSending

variable {l' l'' : ReliableLink}

lemma refl (l : ReliableLink) : l.SameSending l := ⟨fun _ => rfl, rfl, rfl⟩

lemma trans (h : l.SameSending l') (h' : l'.SameSending l'') : l.SameSending l'' :=
  ⟨fun lane => (h'.1 lane).trans (h.1 lane), h'.2.1.trans h.2.1, h'.2.2.trans h.2.2⟩

lemma entry (h : l.SameSending l') (lane : Lane) (seq : ℕ) : l'.entry lane seq = l.entry lane seq := by
  rw [ReliableLink.entry, ReliableLink.entry, h.1]

lemma sending (h : l.SameSending l') (hw : l.Sending) : l'.Sending := fun lane => h.1 lane ▸ hw lane

lemma setStream {s : Stream} (h : s.inFlight = (l.streamFor lane).inFlight) :
    l.SameSending (l.setStream lane s) := by
  refine ⟨fun other => ?_, rfl, rfl⟩
  rw [streamFor_setStream]
  by_cases ho : other = lane
  · subst ho
    rw [Function.update_self, h]
  · rw [Function.update_of_ne ho]

end SameSending

lemma sameSending_noteSerial {s : Stream} (hs : l.mStreams lane = some s) (header : PacketHeader) (ack : AckBody)
    (now : TimePoint) : l.SameSending (l.noteSerial lane s header ack now) := by
  rcases noteSerial_eq l lane s header ack now with ⟨-, he⟩ | ⟨-, paused, time, interval, stalled, he⟩
  · rw [he]
    exact .refl l
  · have hset : l.SameSending (l.setStream lane (s.tuned paused (some ack.serial) time interval)) :=
      .setStream (congrArg Stream.inFlight (streamFor_of_some l lane s hs)).symm
    rw [he]
    exact hset

lemma inFlight_of_recvRun {s t : Stream} {ms : List AssembledMessage}
    (h : RecvRun p s ms t) : t.inFlight = s.inFlight :=
  h.invariant (P := fun u => u.inFlight = s.inFlight) (fun _ _ _ hs hm => by cases hm <;> exact hs) rfl

lemma ReceivedVia.sameSending {l' : ReliableLink}
    (h : ReceivedVia p lane l l') : l.SameSending l' := by
  obtain ⟨s, ms, budget, stats, due, hr, rfl⟩ := h
  have hset : l.SameSending (l.setStream lane s) := .setStream (inFlight_of_recvRun hr)
  exact hset

lemma onPacket_sending (l : ReliableLink) (packet : Packet) (now : TimePoint) :
    l.SameSending (l.onPacket packet now) ∨ packet.header.flags.kind = .ack ∧ ∃ ack, packet.ack = some ack ∧
      ∃ k, l.SameSending k ∧
        l.onPacket packet now = k.applyAck packet.header.flags.lane packet.header ack now := by
  rcases onPacket_cases l packet now with ⟨stats, he⟩ | ⟨remote, last, he⟩
  · rw [he]
    exact .inl (.refl l)
  · have hk : l.SameSending { l with mRemoteStreamID := remote, mLastReceived := last } := .refl l
    generalize ({ l with mRemoteStreamID := remote, mLastReceived := last } : ReliableLink) = k at he hk
    rw [he, dispatch]
    cases hkind : packet.header.flags.kind with
    | data =>
      dsimp only
      split
      · left
        rw [handleMedia]
        dsimp only
        split <;> exact hk
      · next hl =>
        have hr : ReceivedVia (fun _ _ => True) packet.header.flags.lane k
          (k.handleData packet.header.flags.lane packet.header packet.body) := handleData_received hl trivial
        exact .inl (hk.trans hr.sameSending)
    | ack =>
      have hc : l.SameSending (k.checkIndex packet.header.flags.lane) := by
        rw [checkIndex]
        split <;> exact hk
      dsimp only
      rw [onAck]
      split
      · next s ack hs ha =>
        exact .inr ⟨rfl, ack, ha, _, hc.trans (sameSending_noteSerial hs packet.header ack now), rfl⟩
      · exact .inl hc
    | ping => exact .inl hk
    | beacon => exact .inl hk

lemma onPacket_lost (hw : l.Sending) (hf : (l.onPacket packet now).entry lane seq = some e')
    (he : e'.lost = true) :
    ∃ e, l.entry lane seq = some e ∧
      (e.lost = false → e.transmission + FastRetransmitThreshold ≤ (l.onPacket packet now).mLargestAcked) := by
  rcases onPacket_sending l packet now with hs | ⟨hk, ack, ha, k, hs, heq⟩
  · exact ⟨e', (hs.entry lane seq).symm.trans hf, fun h => by simp [he] at h⟩
  · rw [heq] at hf ⊢
    obtain ⟨e, hfe, hle⟩ := applyAck_lost (hs.sending hw) hf he
    exact ⟨e, (hs.entry lane seq).symm.trans hfe, hle⟩

variable (packet now) in
lemma onPacket_largest (hw : l.Sending) :
    (l.onPacket packet now).mLargestAcked = l.mLargestAcked ∨ ∃ lane seq e, packet.acks lane seq ∧
      l.entry lane seq = some e ∧ (l.onPacket packet now).mLargestAcked = e.transmission := by
  rcases onPacket_sending l packet now with hs | ⟨hk, ack, ha, k, hs, heq⟩
  · exact .inl hs.2.1
  · rw [heq]
    rcases applyAck_largest (hs.sending hw) with h | ⟨seq, e, hf, hseq, h⟩
    · exact .inl (h.trans hs.2.1)
    · exact .inr ⟨_, seq, e, ⟨hk, rfl, ack, ha, hseq⟩, (hs.entry _ seq).symm.trans hf, h⟩

lemma commit_transmits {h : Host} (hi : ViewInv (l.view h)) (hl : lane ≠ .media) (ho : l.Offers lane)
    (now : TimePoint) :
    ∃ seq e, l.mPeeked = makeDatagram (l.headerOf lane seq e) e.bytes ∧
      (l.view h).Transmits ((l.commit lane now).view h) lane seq := by
  obtain ⟨s, seq, e, hs, hp, hm, hsent, hnumber⟩ :=
    commit_move (f := Host.feed (fun _ _ => True) fun _ => True) (h := h) hl ho now
  obtain rfl : l.streamFor lane = s := streamFor_of_some l lane s hs
  have hinv : ViewInv ((l.view h).set lane (l.streamFor lane).nextLost.2) :=
    hi.set (hi.send lane).nextLost ((hi.recv lane).congr rfl rfl)
  have hscrub : (l.view h).Retains ((l.view h).set lane (l.streamFor lane).nextLost.2) :=
    LinkView.retains_set (.of_eq rfl rfl)
  refine ⟨seq, e, hp, ?_⟩
  rcases hm.transmits hinv with ⟨hn, -⟩ | ⟨lane', seq', ht⟩
  · have hn : (l.commit lane now).mTransmissions = l.mTransmissions := hn
    omega
  · have hlast : l.mSent ++ [⟨l.mTransmissions + 1, seq', lane'⟩] =
      l.mSent ++ [⟨l.mTransmissions + 1, seq, lane⟩] :=
      ht.sent.symm.trans hsent
    simp only [List.append_cancel_left_eq, List.cons.injEq, SentRecord.mk.injEq, true_and, and_true] at hlast
    obtain ⟨rfl, rfl⟩ := hlast
    refine ⟨ht.number, ht.sent, fun other t e' hf => (ht.entries other t e' hf).imp_left ?_⟩
    rintro ⟨e₁, hf₁, he₁⟩
    obtain ⟨e₂, hf₂, he₂⟩ := (hscrub other).keeps t e₁ hf₁
    exact ⟨e₂, hf₂, he₂.trans he₁⟩

lemma sameSending_retried (lane : Lane) :
    l.SameSending (if (l.mStreams lane).isSome then l.retryRefused lane else l) := by
  split
  · next hs => exact ReceivedVia.sameSending (retryRefused_received (p := fun _ _ => True) hs)
  · exact .refl l

lemma sameSending_fillAck (lane : Lane) : l.SameSending (l.fillAck lane) := by
  rw [fillAck]
  split
  · have hr := sameSending_retried (l := l) lane
    exact hr
  · exact .refl l

lemma sameSending_fillPing (lane : Lane) : l.SameSending (l.fillPing lane) := by
  rw [fillPing]
  split <;> exact .refl l

lemma sameSending_peekAck : l.SameSending l.peekAck.2 := by
  rw [peekAck]
  split
  · exact .refl l
  · dsimp only
    split
    · have hfold : ∀ (lanes : List Lane) (l : ReliableLink),
          l.SameSending (lanes.foldl (fun l lane => (l.fillAck lane).fillPing lane) l) := by
        intro lanes
        induction lanes with
        | nil => exact .refl
        | cons lane lanes ih =>
          exact fun l => ((sameSending_fillAck lane).trans (sameSending_fillPing lane)).trans (ih _)
      exact hfold StreamLanes l
    · exact .refl l

lemma transmissions_onPacket (l : ReliableLink) (packet : Packet) (now : TimePoint) :
    (l.onPacket packet now).mTransmissions = l.mTransmissions := by
  rcases onPacket_sending l packet now with hs | ⟨-, ack, -, k, hs, heq⟩
  · exact hs.2.2
  · rw [heq]
    exact (congrArg Aside.transmissions (aside_applyAck ..)).trans hs.2.2

end ReliableLink

end NetLink.Channel
