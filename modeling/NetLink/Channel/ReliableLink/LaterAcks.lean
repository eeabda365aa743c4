import NetLink.Channel.ReliableLink.FullScan
import NetLink.Channel.ReliableLink.Silence

/-! How many packets were acknowledged before one that was sent earlier is declared lost. -/

namespace NetLink.Channel

open SequenceBuffer

namespace AckScan

variable {start seq : ℕ} {scan : AckScan}

lemma largest_le_release (scan : AckScan) (seq : ℕ) :
    scan.largestAcked ≤ (scan.release start seq).largestAcked := by
  rw [release]
  split
  · exact le_rfl
  · exact le_max_left ..

lemma largest_le_foldl (seqs : List ℕ) (scan : AckScan) :
    scan.largestAcked ≤ (seqs.foldl (release start) scan).largestAcked := by
  induction seqs generalizing scan with
  | nil => exact le_rfl
  | cons seq seqs ih => exact (largest_le_release scan seq).trans (ih _)

lemma wf_release (hw : scan.stream.inFlight.WF) (seq : ℕ) : (scan.release start seq).stream.inFlight.WF := by
  cases hf : scan.stream.inFlight.find seq with
  | none => rwa [release_of_none hf]
  | some e =>
    rw [(release_of_some _ hf).1]
    exact wf_erase hw

lemma find_release_self (hw : scan.stream.inFlight.WF) (seq : ℕ) :
    (scan.release start seq).stream.inFlight.find seq = none := by
  cases hf : scan.stream.inFlight.find seq with
  | none => rwa [release_of_none hf]
  | some e => rw [(release_of_some _ hf).1, find_erase hw, if_pos rfl]

variable (start) in
lemma foldl_release_mem (seqs : List ℕ) (scan : AckScan) (hw : scan.stream.inFlight.WF) {seq : ℕ}
    (hm : seq ∈ seqs) :
    (seqs.foldl (release start) scan).stream.inFlight.find seq = none ∧
      ∀ e, scan.stream.inFlight.find seq = some e →
        e.transmission ≤ (seqs.foldl (release start) scan).largestAcked := by
  induction seqs generalizing scan with
  | nil => cases hm
  | cons t seqs ih =>
    have hwf : (scan.release start t).stream.inFlight.WF := wf_release hw t
    rw [List.foldl_cons]
    by_cases ht : seq = t
    · subst ht
      refine ⟨?_, fun e he => ?_⟩
      · rw [Option.eq_none_iff_forall_ne_some]
        intro e he
        have := (foldl_release seqs _ hwf).2.1 seq e he
        rw [find_release_self hw] at this
        cases this
      · refine le_trans ?_ (largest_le_foldl seqs _)
        rw [(release_of_some _ he).2]
        exact le_max_right ..
    · obtain ⟨hnone, hle⟩ := ih _ hwf ((List.mem_cons.mp hm).resolve_left ht)
      refine ⟨hnone, fun e he => hle e ?_⟩
      cases hf : scan.stream.inFlight.find t with
      | none => rwa [release_of_none hf]
      | some e' => rwa [(release_of_some _ hf).1, find_erase hw, if_neg ht]

end AckScan

lemma Stream.mem_ackedSeqs_of {s : Stream} {header : PacketHeader} {ack : AckBody} {seq : ℕ}
    (hlo : s.sendBase ≤ seq) (hhi : seq < s.nextSendSeq)
    (h : seq ≤ header.seq ∨ ∃ r ∈ ack.ranges, r.first ≤ seq ∧ seq ≤ r.last) :
    seq ∈ s.ackedSeqs header ack := by
  simp only [ackedSeqs, List.mem_append, List.mem_flatMap, mem_interval, Nat.le_min]
  rcases h with h | ⟨r, hr, hfirst, hlast⟩
  · exact .inl ⟨hlo, h, by omega⟩
  · refine .inr ⟨r, hr, ?_⟩
    rw [if_neg (by omega), mem_interval]
    omega

namespace ReliableLink

variable {l : ReliableLink} {lane : Lane} {seq : ℕ} {e : InFlight} {packet : Packet} {now : TimePoint}

lemma applyAck_releases {h : Host} {header : PacketHeader} {ack : AckBody} (hi : ViewInv (l.view h))
    (hs : seq ≤ header.seq ∨ ∃ r ∈ ack.ranges, r.first ≤ seq ∧ seq ≤ r.last) (he : l.entry lane seq = some e)
    (now : TimePoint) : (l.applyAck lane header ack now).entry lane seq = none ∧
      e.transmission ≤ (l.applyAck lane header ack now).mLargestAcked := by
  have hsend := hi.send lane
  obtain ⟨hlo, hhi⟩ := hsend.key seq (contains_iff.mpr ⟨e, he⟩)
  obtain ⟨hnone, hle⟩ := AckScan.foldl_release_mem l.mRecoveryStart _
    { stream := l.streamFor lane, largestAcked := l.mLargestAcked } hsend.wf (Stream.mem_ackedSeqs_of hlo hhi hs)
  have hgone : (l.acknowledged lane header ack).entry lane seq = none := by
    rw [acknowledged, entry_setStream]
    exact hnone
  have hlargest : (l.applyAck lane header ack now).mLargestAcked =
    (l.acknowledged lane header ack).mLargestAcked :=
    congrArg Aside.largest (aside_afterAck ..)
  refine ⟨?_, hlargest ▸ hle e he⟩
  rw [Option.eq_none_iff_forall_ne_some]
  intro e' he'
  obtain ⟨e'', hf, -⟩ := stamped_afterAck (l := l.acknowledged lane header ack) lane _ now lane seq e' he'
  rw [hgone] at hf
  cases hf

lemma dispatch_releases {h : Host} (hi : ViewInv (l.view h)) (ha : packet.acks lane seq)
    (he : l.entry lane seq = some e) (now : TimePoint) : (l.dispatch packet now).entry lane seq = none ∧
      e.transmission ≤ (l.dispatch packet now).mLargestAcked := by
  obtain ⟨hkind, rfl, ack, hack, hseq⟩ := ha
  set lane := packet.header.flags.lane
  have hi' : ViewInv ((l.checkIndex lane).view h) :=
    hi.run (checkIndex_run (f := { Host.feed (fun _ _ => True) fun _ => True with stray := True }) l h lane
      fun _ => trivial)
  have he' : (l.checkIndex lane).entry lane seq = some e := by
    rw [checkIndex]
    split <;> exact he
  rw [dispatch_ack hkind]
  generalize l.checkIndex lane = k at hi' he'
  cases hs : k.mStreams lane with
  | none => simp [entry, streamFor, hs, Stream.new] at he'
  | some s =>
    have hack' : k.onAck packet now = (k.noteSerial lane s packet.header ack now).applyAck lane
      packet.header ack now := by
      simp only [onAck, hack, show k.mStreams packet.header.flags.lane = some s from hs]
      rfl
    have hnote := hi'.run (noteSerial_run (f := Host.feed (fun _ _ => True) fun _ => True)
      packet.header ack now hs)
    rw [hack']
    exact applyAck_releases hnote hseq
      (((sameSending_noteSerial hs packet.header ack now).entry lane seq).trans he') now

lemma onPacket_releases {h : Host} (hi : ViewInv (l.view h)) (ht : l.Takes packet) (ha : packet.acks lane seq)
    (he : l.entry lane seq = some e) (now : TimePoint) : (l.onPacket packet now).entry lane seq = none ∧
      e.transmission ≤ (l.onPacket packet now).mLargestAcked := by
  rw [onPacket_of_takes ht]
  exact dispatch_releases (l := { l with
    mRemoteStreamID := some packet.header.srcStreamID
    mLastReceived := l.mLastReceived.map fun _ => now }) (h := h) hi ha he now

structure Ahead (l : ReliableLink) : Prop where
  largest : l.mLargestAcked ≤ l.mTransmissions
  record : ∀ r ∈ l.mSent, l.mLargestAcked < r.transmission + FastRetransmitThreshold

lemma Ahead.of_pace {heard : Option TimePoint} {l' : ReliableLink} (h : l.Ahead)
    (hp : l'.pace = { l.pace with heard := heard }) : l'.Ahead := by
  have hl : l'.mLargestAcked = l.mLargestAcked := congrArg Pace.largest hp
  have hn : l'.mTransmissions = l.mTransmissions := congrArg Pace.transmissions hp
  have hs : l'.mSent = l.mSent := congrArg Pace.sent hp
  exact ⟨by rw [hl, hn]; exact h.largest, by rw [hl, hs]; exact h.record⟩

lemma Ahead.commit (h : l.Ahead) (lane : Lane) (now : TimePoint) : (l.commit lane now).Ahead := by
  rcases commit_pace l lane now with hp | ⟨-, s, t, seq, e, -, he, -⟩
  · exact h.of_pace hp
  · obtain ⟨stats, stalled, ht⟩ := transmit_fields l lane t seq e now
    have hlargest := h.largest
    have hnew : l.mLargestAcked < l.mTransmissions + 1 + FastRetransmitThreshold := by omega
    rw [he, ht]
    refine ⟨Nat.le_succ_of_le hlargest, fun r hr => ?_⟩
    rcases List.mem_append.mp hr with hr | hr
    · exact h.record r hr
    · rw [List.mem_singleton.mp hr]
      exact hnew

lemma swept_sent {l' : ReliableLink} {records : List SentRecord} {due : InFlight → Bool}
    (h : Swept due l records l') :
    l'.mSent <:+ records ∧ ∀ r ∈ l'.mSent.head?, ∃ e, e.transmission = r.transmission ∧ due e = false := by
  induction h with
  | done l => exact ⟨List.suffix_rfl, fun r hr => by cases hr⟩
  | stop l record rest e he hd =>
    refine ⟨List.suffix_rfl, fun r hr => ?_⟩
    obtain rfl : record = r := Option.some.inj hr
    exact ⟨e, (entryOf_eq_some he).2.2, hd⟩
  | drop l record rest l' hn _ ih => exact ih.imp_left fun hs => hs.trans (List.suffix_cons ..)
  | count l records stats l' _ ih => exact ih
  | mark l record rest e timedOut l' he hd _ ih => exact ih.imp_left fun hs => hs.trans (List.suffix_cons ..)

lemma Ahead.onTimer (h : l.Ahead) (now : TimePoint) : (l.onTimer now).Ahead := by
  rcases onTimer_swept l now with he | he | ⟨_, due, pinged, l', hs, n, he⟩
  · rwa [he]
  · rw [he]
    exact ⟨Nat.zero_le _, fun r hr => by cases hr⟩
  · obtain ⟨streams, stats, window, start, hl', -⟩ := swept_eq hs
    obtain ⟨streams', due', hp, -⟩ := foldl_probe_eq now StreamLanes { l' with mTimeoutsInARow := n }
    have hlargest : l'.mLargestAcked = l.mLargestAcked := by rw [hl']
    have hnumber : l'.mTransmissions = l.mTransmissions := by rw [hl']
    rw [he, hp]
    refine ⟨?_, fun r hr => ?_⟩
    · exact (hlargest.le.trans h.largest).trans hnumber.ge
    · exact hlargest.trans_lt (h.record r ((swept_sent hs).1.subset hr))

lemma detectLosses_record (hsorted : l.mSent.Pairwise fun a b => a.transmission < b.transmission) :
    ∀ r ∈ l.detectLosses.2.mSent, l.mLargestAcked < r.transmission + FastRetransmitThreshold := by
  obtain ⟨hsuffix, hhead⟩ := swept_sent (detectLoop_swept l.mSent l false)
  rw [detectLosses]
  generalize (detectLoop l.mSent l false).2.mSent = sent at hsuffix hhead
  have hsorted' := hsorted.sublist hsuffix.sublist
  cases sent with
  | nil => exact fun r hr => by cases hr
  | cons head rest =>
    obtain ⟨e, ht, hd⟩ := hhead head rfl
    have hlt := not_le.mp (of_decide_eq_false hd)
    rw [ht] at hlt
    intro r hr
    rcases List.mem_cons.mp hr with rfl | hr
    · exact hlt
    · have := (List.pairwise_cons.mp hsorted').1 r hr
      omega

lemma sent_ackApplied (l : ReliableLink) (lane : Lane) (s : Stream) (header : PacketHeader) (ack : AckBody)
    (now : TimePoint) : (l.ackApplied lane s header ack now).mSent = l.mSent := by
  have hnote : (l.noteSerial lane s header ack now).mSent = l.mSent := by
    rcases noteSerial_eq l lane s header ack now with ⟨-, he⟩ | ⟨-, paused, time, interval, stalled, he⟩
    · rw [he]
    · rw [he]
      rfl
  rw [ackApplied]
  generalize l.noteSerial lane s header ack now = k at hnote
  obtain ⟨rtt, timeouts, hn⟩ := noteAcked_eq (l := k.acknowledged lane header ack)
    ((k.streamFor lane).acknowledge header ack k.mRecoveryStart k.mLargestAcked) now
  rw [hn]
  exact hnote

lemma handleAck_record {s : Stream} (hsorted : l.mSent.Pairwise fun a b => a.transmission < b.transmission)
    (header : PacketHeader) (ack : AckBody) (now : TimePoint) :
    ∀ r ∈ (l.handleAck lane s header ack now).mSent,
      (l.handleAck lane s header ack now).mLargestAcked < r.transmission + FastRetransmitThreshold := by
  obtain ⟨progress, counted, he⟩ := handleAck_eq l lane s header ack now
  rw [← sent_ackApplied l lane s header ack now] at hsorted
  rw [he]
  generalize l.ackApplied lane s header ack now = m at hsorted
  have hlargest : m.detectLosses.2.mLargestAcked = m.mLargestAcked := 
    congrArg Aside.largest (aside_detectLoop m.mSent m false)
  have hrecord := detectLosses_record hsorted
  obtain ⟨stalled, hc⟩ := m.detectLosses.2.updateProgressClock_eq now progress
  obtain ⟨window, hg⟩ :=
    growWindow_eq (l := m.detectLosses.2.updateProgressClock now progress) lane m.detectLosses.1 counted
  rw [hg, hc]
  rw [← hlargest] at hrecord
  exact hrecord

lemma Ahead.onPacket {clock : TimePoint} (h : l.Ahead) (ho : l.InOrder clock) (hw : l.Sending)
    (hsorted : l.mSent.Pairwise fun a b => a.transmission < b.transmission) (packet : Packet) (now : TimePoint) :
    (l.onPacket packet now).Ahead where
  largest := by
    rw [transmissions_onPacket]
    rcases onPacket_largest packet now hw with hl | ⟨lane, seq, e, -, he, hl⟩
    · rw [hl]
      exact h.largest
    · rw [hl]
      exact ho.numbered lane seq e he
  record := by
    rcases onPacket_pace l packet now with ⟨heard, hp⟩ | ⟨-, ack, -, k, s, ⟨heard, hk⟩, -, he⟩
    · exact (h.of_pace hp).record
    · have hs : k.mSent = l.mSent := congrArg Pace.sent hk
      rw [← hs] at hsorted
      rw [he]
      exact handleAck_record hsorted packet.header ack now

end ReliableLink

structure Stream.Onward (s t : Stream) : Prop where
  next : s.nextSendSeq ≤ t.nextSendSeq
  held : ∀ seq, t.inFlight.contains seq = true → s.inFlight.contains seq = true ∨ s.nextSendSeq ≤ seq

lemma Stream.Onward.of_held {s t : Stream} (hn : t.nextSendSeq = s.nextSendSeq)
    (h : ∀ seq, t.inFlight.contains seq = true → s.inFlight.contains seq = true) : s.Onward t :=
  ⟨hn.ge, fun seq hc => .inl (h seq hc)⟩

lemma Stream.Onward.trans {s t u : Stream} (h : s.Onward t) (h' : t.Onward u) : s.Onward u where
  next := h.next.trans h'.next
  held seq hc := by
    rcases h'.held seq hc with hc | hc
    · exact h.held seq hc
    · exact .inr (h.next.trans hc)

section Moves

variable {f : Feed} {v w : LinkView} {lane : Lane} {s : Stream}

lemma onward_set (lane other : Lane) (h : (v.streams lane).Onward s) :
    (v.streams other).Onward ((v.set lane s).streams other) := by
  by_cases ho : other = lane
  · subst ho
    rwa [LinkView.streams_set]
  · rw [LinkView.set]
    dsimp only
    rw [Function.update_of_ne ho]
    exact .of_held rfl fun _ => id

lemma LinkMove.onward (hi : ViewInv v) (hm : LinkMove f v w) (other : Lane) :
    (v.streams other).Onward (w.streams other) := by
  cases hm with
  | takeMedia | deliverMedia | drop | queue | unqueue | fault => exact .of_held rfl fun _ => id
  | take lane | tune lane | scrub lane | advance lane =>
    refine onward_set lane other ?_
    exact .of_held rfl fun _ => id
  | recv lane ms t hr hl hm =>
    refine onward_set lane other ?_
    cases hm <;> exact .of_held rfl fun _ => id
  | retransmit lane seq rest e now =>
    refine onward_set lane other ?_
    exact .of_held rfl fun t hc => by rwa [Stream.retransmitted, contains_assign (hi.send lane).wf] at hc
  | transmit lane c now hm hcur hr =>
    refine onward_set lane other ⟨Nat.le_succ _, fun t hc => ?_⟩
    rw [SequenceBuffer.contains, (hi.send lane).find_transmitted hr] at hc
    split at hc
    · next ht => exact .inr ht.ge
    · exact .inl hc
  | release lane seq e =>
    refine onward_set lane other ?_
    exact .of_held rfl fun t hc => ((contains_erase (hi.send lane).wf).mp hc).2
  | giveUp record rest e =>
    refine onward_set record.lane other ?_
    exact .of_held rfl fun t hc => by rwa [Stream.givenUp, contains_assign (hi.send record.lane).wf] at hc

lemma LinkRun.onward (hi : ViewInv v) (hr : LinkRun f v w) (lane : Lane) :
    (v.streams lane).Onward (w.streams lane) := by
  induction hr with
  | refl => exact .of_held rfl fun _ => id
  | tail hr hm ih => exact ih.trans (hm.onward (hi.run hr) lane)

end Moves

namespace Host

def Happening.Releases (x : Happening) (lane : Lane) (seq n : ℕ) : Prop :=
  (∃ packet now, x.call = some (.onPacket packet now)) ∧
    (∃ e, x.before.entry lane seq = some e ∧ e.transmission = n) ∧ x.after.entry lane seq = none

namespace Timed

variable {source : Lane → OutboundMessage → Prop} {incoming : Packet → Prop} {t t' : Timed}

def Acked (t : Timed) (lane : Lane) (seq n : ℕ) : Prop := ∃ x ∈ t.history, x.Releases lane seq n

/-- If the newest transmission a packet acknowledges overtakes one that stays in flight, the transmissions just
before it are acknowledged too, by the packet or by one before. -/
def InTurn (t : Timed) (packet : Packet) : Prop :=
  ∀ lane seq e lane' seq' e', t.host.link.entry lane seq = some e → e.lost = false → ¬packet.acks lane seq →
    t.host.link.entry lane' seq' = some e' → packet.acks lane' seq' →
    (∀ seq'' e'', t.host.link.entry lane' seq'' = some e'' → packet.acks lane' seq'' →
      e''.transmission ≤ e'.transmission) →
    e.transmission + FastRetransmitThreshold ≤ e'.transmission →
    ∀ n, n < e'.transmission → e'.transmission < n + FastRetransmitThreshold → (∃ other r, t.Acked other r n) ∨
      ∃ r e'', t.host.link.entry lane' r = some e'' ∧ packet.acks lane' r ∧ e''.transmission = n

structure Counted (t : Timed) : Prop where
  gone : ∀ lane seq n, t.Acked lane seq n →
    t.host.link.entry lane seq = none ∧ seq < (t.host.link.streamFor lane).nextSendSeq
  once : ∀ lane seq n n', t.Acked lane seq n → t.Acked lane seq n' → n = n'

lemma Step.acked (hs : Step source incoming t t') {lane : Lane} {seq n : ℕ} (ha : t'.Acked lane seq n) :
    t.Acked lane seq n ∨
      (∃ e, t.host.link.entry lane seq = some e ∧ e.transmission = n) ∧ t'.host.link.entry lane seq = none := by
  obtain ⟨c, hh⟩ := hs.history
  obtain ⟨x, hx, hrel⟩ := ha
  rw [hh, List.mem_append, List.mem_singleton] at hx
  rcases hx with hx | rfl
  · exact .inl ⟨x, hx, hrel⟩
  · exact .inr hrel.2

lemma Step.counted (hs : Step source incoming t t') (hsound : t.host.Sound)
    (h : t.host.link.mFailed = true ∨ t.Counted) :
    t'.host.link.mFailed = true ∨ t'.Counted := by
  rcases run_of_step hs.host hsound.offers with hf | hrun
  · left
    rw [hf]
    rfl
  have hon := hrun.onward hsound.view
  have hfail : t'.host.link.mFailed = t.host.link.mFailed := hrun.failed
  rcases h with h | h
  · exact .inl (hfail.trans h)
  refine .inr ⟨fun lane seq n ha => ?_, fun lane seq n n' ha ha' => ?_⟩
  · rcases hs.acked ha with ha | ⟨⟨e, he, -⟩, hn⟩
    · obtain ⟨hnone, hlt⟩ := h.gone lane seq n ha
      refine ⟨?_, hlt.trans_le (hon lane).next⟩
      rw [Option.eq_none_iff_forall_ne_some]
      intro e he
      rcases (hon lane).held seq (contains_iff.mpr ⟨e, he⟩) with hc | hc
      · obtain ⟨e', he'⟩ := contains_iff.mp hc
        exact Option.some_ne_none e' (he'.symm.trans hnone)
      · exact absurd (hc.trans_lt hlt) (lt_irrefl _)
    · exact ⟨hn, (((hsound.view.send lane).key seq (contains_iff.mpr ⟨e, he⟩)).2).trans_le (hon lane).next⟩
  · rcases hs.acked ha with ha | ⟨⟨e, he, hn⟩, -⟩ <;> rcases hs.acked ha' with ha' | ⟨⟨e', he', hn'⟩, -⟩
    · exact h.once lane seq n n' ha ha'
    · rw [(h.gone lane seq n ha).1] at he'
      cases he'
    · rw [(h.gone lane seq n' ha').1] at he
      cases he
    · obtain rfl : e = e' := Option.some.inj (he.symm.trans he')
      exact hn.symm.trans hn'

lemma counted (hr : (system source incoming).Reachable t) : t.host.link.mFailed = true ∨ t.Counted := by
  refine hr.invariant (P := fun t => t.host.link.mFailed = true ∨ t.Counted) ?_ ?_
  · rintro t ⟨-, hh⟩
    have hnone : ∀ lane seq n, ¬t.Acked lane seq n := by
      rintro lane seq n ⟨x, hx, -⟩
      rw [hh] at hx
      cases hx
    exact .inr ⟨fun lane seq n ha => absurd ha (hnone lane seq n), fun lane seq n n' ha =>
      absurd ha (hnone lane seq n)⟩
  · intro t t' hr h (hs : Step source incoming t t')
    exact hs.counted (sound (reachable_host hr)) h

lemma ahead (hr : (system source incoming).Reachable t) : t.host.link.Ahead := by
  refine hr.invariant (P := fun t => t.host.link.Ahead) ?_ ?_
  · rintro t ⟨⟨timings, id, budget, he⟩, -⟩
    rw [he]
    exact ⟨Nat.zero_le _, fun r hr => by cases hr⟩
  · intro t t' hr h (hs : Step source incoming t t')
    have hsound := sound (reachable_host hr)
    rcases hs.pace with ⟨heard, he⟩ | ⟨lane, -, he⟩ | ⟨packet, -, he⟩ | he
    · exact h.of_pace he
    · exact he ▸ h.commit lane _
    · exact he ▸ h.onPacket (inOrder hr) (sending_of_sound hsound) hsound.view.order.sorted packet _
    · exact he ▸ h.onTimer _

lemma recorded {lane : Lane} {seq : ℕ} {e : InFlight} (hr : (system source incoming).Reachable t)
    (he : t.host.link.entry lane seq = some e) (hlive : e.lost = false) :
    (⟨e.transmission, seq, lane⟩ : SentRecord) ∈ t.host.link.mSent :=
  ((sound (reachable_host hr)).view.send lane).live seq e he hlive

lemma numbered_of_entry {lane : Lane} {seq : ℕ} {e : InFlight} (hr : (system source incoming).Reachable t)
    (he : t.host.link.entry lane seq = some e) : (t.host.link.streamFor lane).sendBase ≤ seq ∧
      seq < (t.host.link.streamFor lane).nextSendSeq :=
  ((sound (reachable_host hr)).view.send lane).key seq (contains_iff.mpr ⟨e, he⟩)

lemma acked_made {packet : Packet} {now : TimePoint} {lane : Lane} {seq : ℕ} {e : InFlight}
    (he : t.host.link.entry lane seq = some e) (hn : (t.host.link.onPacket packet now).entry lane seq = none) :
    (t.made (now, .onPacket packet now)).Acked lane seq e.transmission :=
  ⟨_, List.mem_append_right _ (List.mem_singleton_self _), ⟨packet, now, rfl⟩, ⟨e, he, rfl⟩, hn⟩

lemma Acked.made {call : TimePoint × Call} {lane : Lane} {seq n : ℕ} (h : t.Acked lane seq n) :
    (t.made call).Acked lane seq n := by
  obtain ⟨x, hx, hrel⟩ := h
  exact ⟨x, List.mem_append_left _ hx, hrel⟩

lemma Acked.of_made {packet : Packet} {now : TimePoint} {lane : Lane} {seq n : ℕ} (hn : t.clock ≤ now)
    (h : (t.made (now, .onPacket packet now)).Acked lane seq n) : t.Acked lane seq n ∨
    (∃ e, t.host.link.entry lane seq = some e ∧ e.transmission = n) ∧
        (t.host.link.onPacket packet now).entry lane seq = none :=
  (step_made (now, .onPacket packet now) ⟨hn, fun _ h => (Option.some.inj h).symm, rfl⟩).acked h

lemma overtaking_ack {packet : Packet} {now : TimePoint} {lane : Lane} {seq : ℕ} {e e' : InFlight}
    (hr : (system source incoming).Reachable t) (he : t.host.link.entry lane seq = some e) (hlive : e.lost = false)
    (he' : (t.host.link.onPacket packet now).entry lane seq = some e') (hlost : e'.lost = true) :
    t.host.link.Takes packet ∧ ∃ lane' seq' e₁, t.host.link.entry lane' seq' = some e₁ ∧ packet.acks lane' seq' ∧
      (t.host.link.onPacket packet now).mLargestAcked = e₁.transmission ∧
      e.transmission + FastRetransmitThreshold ≤ e₁.transmission := by
  have hsound := sound (reachable_host hr)
  have hw := sending_of_sound hsound
  obtain ⟨e₀, he₀, hle⟩ := ReliableLink.onPacket_lost hw he' hlost
  obtain rfl : e = e₀ := Option.some.inj (he.symm.trans he₀)
  have hle := hle hlive
  have hahead := (ahead hr).record _ (recorded hr he hlive)
  have hraised : (t.host.link.onPacket packet now).mLargestAcked ≠ t.host.link.mLargestAcked := by
    intro hsame
    rw [hsame] at hle
    exact absurd hahead (not_lt.mpr hle)
  refine ⟨?_, ?_⟩
  · by_contra ht
    obtain ⟨n, hn⟩ := ReliableLink.onPacket_of_not_takes now ht
    exact hraised (by rw [hn])
  · rcases ReliableLink.onPacket_largest packet now hw with hl | ⟨lane', seq', e₁, ha, he₁, hl⟩
    · exact absurd hl hraised
    · exact ⟨lane', seq', e₁, he₁, ha, hl, hl ▸ hle⟩

theorem later_acks (hr : (system (fun _ _ => True) fun _ => True).Reachable t) {packet : Packet} {now : TimePoint}
    (hn : t.clock ≤ now) (hp : t.InTurn packet) {lane : Lane} {seq : ℕ} {e e' : InFlight}
    (he : t.host.link.entry lane seq = some e) (hlive : e.lost = false)
    (he' : (t.host.link.onPacket packet now).entry lane seq = some e') (hlost : e'.lost = true) :
    ∃ packets : List (Lane × ℕ), packets.Nodup ∧ packets.length = FastRetransmitThreshold ∧
      ∀ p ∈ packets, ∃ n, e.transmission < n ∧ (t.made (now, .onPacket packet now)).Acked p.1 p.2 n := by
  obtain ⟨ht, lane', seq', e₁, he₁, ha, hlargest, hle⟩ := overtaking_ack hr he hlive he' hlost
  have hsound := sound (reachable_host hr)
  have hrel : ∀ {other r e₂}, t.host.link.entry other r = some e₂ → packet.acks other r →
      (t.host.link.onPacket packet now).entry other r = none ∧
        e₂.transmission ≤ (t.host.link.onPacket packet now).mLargestAcked :=
    fun he₂ ha₂ => ReliableLink.onPacket_releases (h := t.host) hsound.view ht ha₂ he₂ now
  have hleft : ¬packet.acks lane seq := by
    intro hacks
    rw [(hrel he hacks).1] at he'
    cases he'
  -- the newest transmission and the two before it
  have hacked : ∀ n, n ≤ e₁.transmission → e₁.transmission < n + FastRetransmitThreshold →
      ∃ p : Lane × ℕ, (t.made (now, .onPacket packet now)).Acked p.1 p.2 n := by
    intro n hle' hlt
    rcases hle'.eq_or_lt with rfl | hlt'
    · exact ⟨(lane', seq'), acked_made he₁ (hrel he₁ ha).1⟩
    · rcases hp lane seq e lane' seq' e₁ he hlive hleft he₁ ha (fun r e₂ he₂ ha₂ =>
        hlargest ▸ (hrel he₂ ha₂).2) hle n
        hlt' hlt with ⟨other, r, hold⟩ | ⟨r, e₂, he₂, ha₂, rfl⟩
      · exact ⟨(other, r), hold.made⟩
      · exact ⟨(lane', r), acked_made he₂ (hrel he₂ ha₂).1⟩
  have hreach := hr.step (step_made (now, .onPacket packet now) ⟨hn, fun _ h => (Option.some.inj h).symm, rfl⟩)
  have hfail : (t.host.link.onPacket packet now).mFailed = false :=
    (ReliableLink.onPacket_run (h := t.host) packet now).failed.trans ht.1
  have honce := ((counted hreach).resolve_left (by rw [made, next, call]; exact ne_true_of_eq_false hfail)).once
  have hthree : FastRetransmitThreshold = 3 := rfl
  obtain ⟨p, hpn⟩ := hacked e₁.transmission le_rfl (by omega)
  obtain ⟨q, hqn⟩ := hacked (e₁.transmission - 1) (by omega) (by omega)
  obtain ⟨r, hrn⟩ := hacked (e₁.transmission - 2) (by omega) (by omega)
  have hdistinct : ∀ {x y : Lane × ℕ} {n n' : ℕ}, (t.made (now, .onPacket packet now)).Acked x.1 x.2 n →
      (t.made (now, .onPacket packet now)).Acked y.1 y.2 n' → n ≠ n' → x ≠ y := by
    rintro x y n n' hx hy hne rfl
    exact hne (honce x.1 x.2 n n' hx hy)
  refine ⟨[p, q, r], ?_, rfl, ?_⟩
  · have hpq := hdistinct hpn hqn (by omega)
    have hpr := hdistinct hpn hrn (by omega)
    have hqr := hdistinct hqn hrn (by omega)
    simp [hpq, hpr, hqr]
  · intro x hx
    simp only [List.mem_cons, List.not_mem_nil, or_false] at hx
    rcases hx with rfl | rfl | rfl
    · exact ⟨_, by omega, hpn⟩
    · exact ⟨_, by omega, hqn⟩
    · exact ⟨_, by omega, hrn⟩

def fourSent : Timed :=
  run {} ((List.replicate 4 Lane.reliable).flatMap (sendOne 0))

lemma fourSent_reachable : (system (fun _ _ => True) fun _ => True).Reachable fourSent :=
  run_reachable (by decide +kernel)

lemma acks_ackFor {range : SeqRange} {lane : Lane} {seq : ℕ} (h : (ackFor .reliable 0 [range]).acks lane seq) :
    lane = .reliable ∧ (seq = 0 ∨ range.first ≤ seq ∧ seq ≤ range.last) := by
  obtain ⟨-, hl, ack, hack, hseq⟩ := h
  obtain rfl := Option.some.inj hack
  have hlane : (ackFor .reliable 0 [range]).header.flags.lane = .reliable := PacketFlags.lane_ack ..
  refine ⟨hl.symm.trans hlane, ?_⟩
  simpa [ackFor] using hseq

lemma number_fourSent {seq : ℕ} {e : InFlight} (hlo : 1 ≤ seq) (hhi : seq ≤ 4)
    (h : fourSent.host.link.entry .reliable seq = some e) : e.transmission = seq := by
  have hn : ∀ seq ∈ [1, 2, 3, 4], (fourSent.host.link.entry .reliable seq).map InFlight.transmission =
    some seq := by
    decide +kernel
  have hs := hn seq (by simp only [List.mem_cons, List.not_mem_nil, or_false]; omega)
  rw [h, Option.map_some, Option.some.injEq] at hs
  exact hs

lemma acks_three {seq : ℕ} (hlo : 2 ≤ seq) (hhi : seq ≤ 4) : (ackFor .reliable 0 [⟨2, 3⟩]).acks .reliable seq :=
  ⟨by decide, by decide, _, rfl, .inr ⟨⟨2, 3⟩, List.mem_singleton_self _, hlo, hhi⟩⟩

lemma fourSent_inTurn : fourSent.InTurn (ackFor .reliable 0 [⟨2, 3⟩]) := by
  intro lane seq e lane' seq' e' he hlive _ he' ha' _ hle n hlt hgt
  obtain ⟨rfl, rfl | ⟨hlo, hhi⟩⟩ := acks_ackFor ha'
  · have hnone : fourSent.host.link.entry .reliable 0 = none := by decide +kernel
    rw [hnone] at he'
    cases he'
  · have hhi : seq' ≤ 4 := hhi
    have hlo : 2 ≤ seq' := hlo
    have hnumber := number_fourSent (by omega) hhi he'
    have hpos : 1 ≤ e.transmission := by
      have hrecord := recorded fourSent_reachable he hlive
      have hall : ∀ r ∈ fourSent.host.link.mSent, 1 ≤ r.transmission := by decide +kernel
      exact hall _ hrecord
    have hthree : FastRetransmitThreshold = 3 := rfl
    have hn : 2 ≤ n ∧ n ≤ 4 := by omega
    have hthere : ∀ n ∈ [2, 3, 4], fourSent.host.link.entry .reliable n ≠ none := by decide +kernel
    obtain ⟨e'', he''⟩ := Option.ne_none_iff_exists'.mp
      (hthere n (by simp only [List.mem_cons, List.not_mem_nil, or_false]; omega))
    exact .inr ⟨n, e'', he'', acks_three hn.1 hn.2, number_fourSent (by omega) hn.2 he''⟩

def entryAt (l : ReliableLink) (seq : ℕ) : InFlight := (l.entry .reliable seq).getD { message := [] }

theorem later_acks_fourSent : ∃ packets : List (Lane × ℕ), packets.Nodup ∧
    packets.length = FastRetransmitThreshold ∧ ∀ p ∈ packets, ∃ n, 1 < n ∧
      (fourSent.made (0, .onPacket (ackFor .reliable 0 [⟨2, 3⟩]) 0)).Acked p.1 p.2 n := by
  have hfirst : (entryAt fourSent.host.link 1).transmission = 1 := by decide +kernel
  rw [← hfirst]
  have hbefore : fourSent.host.link.entry .reliable 1 = some (entryAt fourSent.host.link 1) := by decide +kernel
  have hafter : (fourSent.host.link.onPacket (ackFor .reliable 0 [⟨2, 3⟩]) 0).entry .reliable 1 =
    some (entryAt (fourSent.host.link.onPacket (ackFor .reliable 0 [⟨2, 3⟩]) 0) 1) := by decide +kernel
  exact later_acks fourSent_reachable (by decide +kernel) fourSent_inTurn hbefore (by decide +kernel) hafter
    (by decide +kernel)

def Call.quiet : Call → Bool
  | .onPacket .. => false
  | _ => true

lemma not_acked_fourSent (lane : Lane) (seq n : ℕ) : ¬fourSent.Acked lane seq n := by
  rintro ⟨x, hx, ⟨packet, now, hc⟩, -⟩
  have hcalls : ∀ x ∈ fourSent.history, x.call.all Call.quiet = true := by decide +kernel
  have := hcalls x hx
  rw [hc] at this
  cases this

lemma acked_fourSent {lane : Lane} {seq n : ℕ}
    (h : (fourSent.made (0, .onPacket (ackFor .reliable 0 [⟨4, 1⟩]) 0)).Acked lane seq n) :
    (lane, seq) = (.reliable, 4) := by
  rcases h.of_made (by decide +kernel) with hold | ⟨⟨e, he, -⟩, hn⟩
  · exact (not_acked_fourSent _ _ _ hold).elim
  · have hkey := numbered_of_entry fourSent_reachable he
    have hidle : ∀ lane ∈ [Lane.control, .bulk, .media], (fourSent.host.link.streamFor lane).nextSendSeq ≤
      (fourSent.host.link.streamFor lane).sendBase := by decide +kernel
    have hbounds : (fourSent.host.link.streamFor .reliable).sendBase = 1 ∧
      (fourSent.host.link.streamFor .reliable).nextSendSeq = 5 := by decide +kernel
    have hkept : ∀ seq ∈ [1, 2, 3],
        (fourSent.host.link.onPacket (ackFor .reliable 0 [⟨4, 1⟩]) 0).entry .reliable seq ≠ none := by
      decide +kernel
    cases lane with
    | reliable =>
      rw [hbounds.1, hbounds.2] at hkey
      have hlast : seq = 4 := by
        by_contra hne
        exact hkept seq (by simp only [List.mem_cons, List.not_mem_nil, or_false]; omega) hn
      rw [hlast]
    | control => exact absurd (hidle .control (by decide)) (by omega)
    | bulk => exact absurd (hidle .bulk (by decide)) (by omega)
    | media => exact absurd (hidle .media (by decide)) (by omega)

theorem lost_after_one_ack : ∃ t packet now lane seq e e', (system (fun _ _ => True) fun _ => True).Reachable t ∧
    t.clock ≤ now ∧ t.host.link.entry lane seq = some e ∧ e.lost = false ∧
    (t.host.link.onPacket packet now).entry lane seq = some e' ∧ e'.lost = true ∧
    ¬∃ packets : List (Lane × ℕ), packets.Nodup ∧ packets.length = FastRetransmitThreshold ∧
      ∀ p ∈ packets, ∃ n, e.transmission < n ∧ (t.made (now, .onPacket packet now)).Acked p.1 p.2 n := by
  refine ⟨fourSent, ackFor .reliable 0 [⟨4, 1⟩], 0, .reliable, 1, entryAt fourSent.host.link 1,
    entryAt (fourSent.host.link.onPacket (ackFor .reliable 0 [⟨4, 1⟩]) 0) 1, fourSent_reachable,
    by decide +kernel, by decide +kernel, by decide +kernel, by decide +kernel, by decide +kernel, ?_⟩
  rintro ⟨packets, hnodup, hlength, hall⟩
  have hsame : packets = List.replicate packets.length (.reliable, 4) := by
    refine List.eq_replicate_of_mem fun p hp => ?_
    obtain ⟨n, -, hacked⟩ := hall p hp
    exact acked_fourSent hacked
  rw [hsame, hlength] at hnodup
  exact absurd hnodup (by decide)

end Timed

end Host

end NetLink.Channel
