import NetLink.Channel.LinkPair.Delivery

/-! What an Ack promises stays true: a seq that left the window of the sender was accepted by the receiver
or waits there. -/

namespace NetLink.Channel

open Lib SequenceBuffer

def Stream.Has (s : Stream) (seq : ℕ) : Prop := seq < s.nextExpected ∨ s.reorder.contains seq = true

section Has

variable {window seq : ℕ} {s t : Stream} {f : Feed} {lane : Lane} {v w : LaneView}

lemma Stream.Tells.has (hi : RecvInv window s) (h : s.Tells seq) : s.Has seq := by
  rcases h with h | h
  · have := hi.pos
    exact .inl (by omega)
  · obtain ⟨⟨seq, b⟩, hb, rfl⟩ := List.mem_map.mp h
    exact .inr (contains_iff.mpr ⟨b, (mem_entries_iff hi.wf).mp hb⟩)

lemma RecvMove.has {p : PacketHeader → List UInt8 → Prop} {ms : List AssembledMessage} (hi : RecvInv window s)
    (hm : RecvMove p s ms t) (h : s.Has seq) : t.Has seq := by
  cases hm with
  | refuse => exact h
  | retry => exact h
  | buffer header body hp hlo hhi hn =>
    exact h.imp_right fun hc => (contains_insert hi.wf (hi.slot_free hlo.le hhi hn)).mpr (.inr hc)
  | accept => exact h.imp_left Nat.lt_succ_of_lt
  | drain header body budget hf hr =>
    by_cases hs : seq = s.nextExpected
    · exact .inl (by simp [hs])
    · exact h.imp Nat.lt_succ_of_lt fun hc => (contains_erase hi.wf).mpr ⟨hs, hc⟩

lemma LaneMove.has (hi : RecvInv window v.stream) (hm : LaneMove f lane v w) (h : v.stream.Has seq) :
    w.stream.Has seq := by
  cases hm with
  | adjust t ha => simpa only [Stream.Has, ha.expected, ha.reorder] using h
  | take => exact h
  | recv ms t hm => exact hm.has hi h
  | transmit c t hc ht hn hf hr => simpa only [Stream.Has, hr.1, hr.2.1] using h
  | release seq e t ha ht hn hf hr => simpa only [Stream.Has, hr.1, hr.2.1] using h

lemma LinkRun.has {v w : LinkView} (hl : lane ≠ .media) (hi : ViewInv v) (hr : LinkRun f v w)
    (h : (v.streams lane).Has seq) : (w.streams lane).Has seq :=
  (hr.invariant (P := fun v => ViewInv v ∧ (v.streams lane).Has seq)
    (fun _ _ hv hm => ⟨hv.1.move hm, (LinkView.lane_move hl hv.1 hm).has (hv.1.recv lane) hv.2⟩) ⟨hi, h⟩).2

lemma LinkRun.pendingTrue {v w : LinkView} (hl : lane ≠ .media) (hi : ViewInv v) (hr : LinkRun f v w)
    (h : ∀ q ∈ v.pending, ∀ seq, q.acks lane seq → (v.streams lane).Has seq) :
    ∀ q ∈ w.pending, ∀ seq, q.acks lane seq → (w.streams lane).Has seq := by
  refine (hr.invariant (P := fun v => ViewInv v ∧
    ∀ q ∈ v.pending, ∀ seq, q.acks lane seq → (v.streams lane).Has seq) (fun v w hv hm =>
      ⟨hv.1.move hm, ?_⟩) ⟨hi, h⟩).2
  have hold : ∀ q ∈ v.pending, ∀ seq, q.acks lane seq → (w.streams lane).Has seq := fun q hq seq ha =>
    LinkRun.has hl hv.1 (.single hm) (hv.2 q hq seq ha)
  cases hm with
  | queue packet hd ht hn =>
    intro q hq seq ha
    rcases List.mem_append.mp hq with hq | hq
    · exact hold q hq seq ha
    · obtain rfl := List.mem_singleton.mp hq
      exact (ht lane seq ha).has (hv.1.recv lane)
  | unqueue => exact fun q hq => hold q (List.mem_of_mem_tail hq)
  | _ => exact hold

def Accounted (s : Stream) (has : ℕ → Prop) : Prop :=
  ∀ seq < s.nextSendSeq, s.inFlight.contains seq = true ∨ has seq

lemma contains_of_core {b c : SequenceBuffer InFlight}
    (h : (c.find seq).map InFlight.core = (b.find seq).map InFlight.core) : c.contains seq = b.contains seq := by
  simpa [contains] using congrArg Option.isSome h

lemma LaneMove.accounted {has : ℕ → Prop} (hacked : ∀ seq, f.acked lane seq → has seq) (hm : LaneMove f lane v w)
    (h : Accounted v.stream has) : Accounted w.stream has := by
  cases hm with
  | adjust t ha =>
    intro seq hseq
    simp only [ha.next] at hseq
    rw [contains_of_core (ha.inFlight seq)]
    exact h seq hseq
  | take => exact h
  | recv ms t hm =>
    have ht : t.nextSendSeq = v.stream.nextSendSeq ∧ t.inFlight = v.stream.inFlight := by
      cases hm <;> exact ⟨rfl, rfl⟩
    simpa only [Accounted, ht.1, ht.2] using h
  | transmit c t hc ht hn hf hr =>
    intro seq hseq
    simp only [hn] at hseq
    by_cases hs : seq = v.stream.nextSendSeq
    · left
      simpa [contains, hs] using congrArg Option.isSome (hf seq)
    · rw [contains_of_core ((hf seq).trans (if_neg hs))]
      exact h seq (by omega)
  | release seq' e t ha ht hn hf hr =>
    intro seq hseq
    simp only [hn] at hseq
    by_cases hs : seq = seq'
    · exact .inr (hs ▸ hacked seq' ha)
    · simpa [contains, hf, hs] using h seq hseq

end Has

namespace LinkPair

variable {lane : Lane} {p q : LinkPair}

structure AckInv (lane : Lane) (p : LinkPair) : Prop where
  pending : p.b.link.mFailed = false →
    ∀ q ∈ p.b.link.mPendingAcks, ∀ seq, q.acks lane seq → (p.b.link.streamFor lane).Has seq
  wire : p.b.link.mFailed = false →
    ∀ q ∈ p.b.wire, ∀ seq, q.acks lane seq → (p.b.link.streamFor lane).Has seq
  sent : p.a.link.mFailed = false → p.b.link.mFailed = false →
    Accounted (p.a.link.streamFor lane) (p.b.link.streamFor lane).Has

lemma AckInv.initial (hi : system.init p) : AckInv lane p := by
  obtain ⟨⟨timings, id, budget, ha⟩, ⟨timings', id', budget', hb⟩⟩ := hi
  obtain ⟨a, b⟩ := p
  subst ha hb
  refine ⟨fun _ => by simp [ReliableLink.new], fun _ => by simp, fun _ _ seq hseq => .inr (.inl ?_)⟩
  exact hseq

lemma not_acks_of_offers {h : Host} {other : Lane} (ho : h.link.Offers other) {seq : ℕ} :
    ¬h.link.mPeeked.acks lane seq := by
  obtain ⟨-, seq', e, hp, -⟩ := ho
  rintro ⟨hk, -⟩
  rw [hp] at hk
  simp only [makeDatagram, PacketHeader.onWire, flags_headerOf] at hk
  split at hk <;> simp at hk

lemma AckInv.left {a : Host} (hl : lane ≠ .media) (hs : p.a.Sound) (h : AckInv lane p)
    (ht : Host.Step Fits (· ∈ p.b.wire) p.a a) : AckInv lane { p with a := a } := by
  refine ⟨h.pending, h.wire, fun hna hnb => ?_⟩
  rcases Host.run_of_step ht hs.offers with hf | hr
  · simp only [Host.Fails] at hf
    simp [hf, ReliableLink.fail] at hna
  · have hacked : ∀ seq, (Host.feed Fits (· ∈ p.b.wire)).acked lane seq → (p.b.link.streamFor lane).Has seq := by
      rintro seq ⟨q, hq, ha⟩
      exact h.wire hnb q hq seq ha
    exact (hr.invariant (P := fun v => ViewInv v ∧ Accounted (v.streams lane) (p.b.link.streamFor lane).Has)
      (fun v w hv hm => ⟨hv.1.move hm, (LinkView.lane_move hl hv.1 hm).accounted hacked hv.2⟩)
      ⟨hs.view, h.sent (hr.failed.symm.trans hna) hnb⟩).2

lemma run_of_alive {b : Host} (hs : p.b.Sound) (ht : Host.Step Fits (· ∈ p.a.wire) p.b b)
    (hnb : b.link.mFailed = false) :
    LinkRun (Host.feed Fits (· ∈ p.a.wire)) p.b.view b.view ∧ p.b.link.mFailed = false := by
  rcases Host.run_of_step ht hs.offers with hf | hr
  · rw [hf] at hnb
    simp [ReliableLink.fail] at hnb
  · exact ⟨hr, hr.failed.symm.trans hnb⟩

lemma AckInv.right {b : Host} (hl : lane ≠ .media) (hs : p.b.Sound) (h : AckInv lane p)
    (ht : Host.Step Fits (· ∈ p.a.wire) p.b b) : AckInv lane { p with b := b } := by
  refine ⟨fun hnb => ?_, fun hnb q hq seq ha => ?_, fun hna hnb seq hseq => ?_⟩
  · obtain ⟨hr, hnb⟩ := run_of_alive hs ht hnb
    exact hr.pendingTrue hl hs.view (h.pending hnb)
  · obtain ⟨hr, hnb⟩ := run_of_alive hs ht hnb
    refine hr.has hl hs.view ?_
    rcases Host.wire_of_step ht hq with hq | ⟨⟨other, ho⟩, rfl⟩ | hq
    · exact h.wire hnb q hq seq ha
    · exact absurd ha (not_acks_of_offers (hs.offers other ho))
    · exact h.pending hnb q hq seq ha
  · obtain ⟨hr, hnb⟩ := run_of_alive hs ht hnb
    exact (h.sent hna hnb seq hseq).imp_right fun hh => hr.has hl hs.view hh

lemma ackInv_of_reachable (hl : lane ≠ .media) (hr : system.Reachable p) : AckInv lane p := by
  refine hr.invariant (fun _ => AckInv.initial) fun p q hr h hs => ?_
  have hinv := inv_of_reachable hl hr
  cases hs with
  | left a hs => exact h.left hl hinv.soundA hs
  | right b hs => exact h.right hl hinv.soundB hs

lemma has_persists {seq : ℕ} (hl : lane ≠ .media) (hr : system.Reachable p) (hs : system.Steps p q)
    (h : (p.b.link.streamFor lane).Has seq) : q.b.link.mFailed = false → (q.b.link.streamFor lane).Has seq := by
  refine hr.persists (P := fun q => q.b.link.mFailed = false → (q.b.link.streamFor lane).Has seq)
    (fun p q hr h hs => ?_) hs fun _ => h
  have hinv := inv_of_reachable hl hr
  cases hs with
  | left a hs => exact h
  | right b hs =>
    intro hnb
    obtain ⟨hrun, hnb⟩ := run_of_alive hinv.soundB hs hnb
    exact hrun.has hl hinv.soundB.view (h hnb)

lemma of_not_hasPending {l : ReliableLink} (hl : lane ≠ .media) (hw : (l.streamFor lane).inFlight.WF)
    (h : l.hasPending lane = false) :
    (∀ seq, (l.streamFor lane).inFlight.contains seq = false) ∧ (l.streamFor lane).cursor = none := by
  simp only [ReliableLink.hasPending, hl, if_false] at h
  cases hs : l.mStreams lane with
  | none => simp [ReliableLink.streamFor, hs, Stream.new, contains]
  | some s =>
    have hst := ReliableLink.streamFor_of_some l lane s hs
    simp only [hs, Option.any_some, Bool.or_eq_false_iff, Bool.not_eq_false', Option.isSome_eq_false_iff,
      Option.isNone_iff_eq_none] at h
    rw [hst] at hw ⊢
    exact ⟨fun seq => by simp [contains, (isEmpty_iff hw).mp h.1 seq], h.2⟩

structure WaitsForBudget (s : Stream) (rest : List OutboundMessage) : Prop where
  paused : s.budgetPaused = true
  refused : ∃ b, s.reorder.find s.nextExpected = some b ∧ b.header.startsFragmentedMessage = true ∧
    s.refusedLength = b.header.totalLength
  complete : ∀ i e, (rest.flatMap messageFragments)[i]? = some e →
    ∃ b, s.reorder.find (s.nextExpected + i) = some b ∧ Carries e b.header b.body

lemma index_eq_zero {m : OutboundMessage} {i : ℕ} {header : PacketHeader} {body : List UInt8}
    (hfit : m.body.length ≤ MaxMessagePayload) (hi : i < fragmentsOf m.body.length)
    (hc : Carries (fragmentAt { cursorFor m with next := i }) header body)
    (hs : header.startsFragmentedMessage = true) : i = 0 := by
  rw [fragmentAt_cursor hfit hi] at hc
  simp only [PacketHeader.startsFragmentedMessage, Bool.and_eq_true, beq_iff_eq] at hs
  have hf := hc.fragmented
  rw [hs.1, eq_comm, decide_eq_true_eq] at hf
  exact (hc.index hf).symm.trans hs.2

lemma waits_of_all_held {taken : List OutboundMessage} {v : LaneView} {window : ℕ}
    (hfit : ∀ m ∈ taken, m.body.length ≤ MaxMessagePayload) (hi : RecvInv window v.stream)
    (hh : HeadRefused v.stream) (hc : RecvContent taken v)
    (hall : ∀ seq ≤ (taken.flatMap messageFragments).length, v.stream.Has seq) :
    ∃ done rest, taken = done ++ rest ∧ v.out = done.map OutboundMessage.content ∧
      (rest = [] ∨ WaitsForBudget v.stream rest) := by
  obtain ⟨done, rest, i, hp, ho, -⟩ := hc.reads
  refine ⟨done, rest, hp.split, ho, ?_⟩
  rcases rest with _ | ⟨m, rest⟩
  · exact .inl rfl
  have hpos := hi.pos
  have held : ∀ j, v.stream.nextExpected + j ≤ (taken.flatMap messageFragments).length →
      ∃ b, v.stream.reorder.find (v.stream.nextExpected + j) = some b := fun j hj =>
    contains_iff.mp ((hall _ hj).resolve_left (by omega))
  have hlen : v.stream.nextExpected ≤ (taken.flatMap messageFragments).length := by
    have hlt := (List.getElem?_eq_some_iff.mp (hp.getElem?.trans (getElem?_messageFragments hp.lt_length))).1
    omega
  obtain ⟨b, hb⟩ := held 0 hlen
  obtain ⟨hpaused, hstart, hrefused⟩ := hh b hb
  obtain ⟨e, he, hcarry⟩ := hc.held _ b hb
  rw [Nat.add_zero, hp.getElem?, getElem?_messageFragments hp.lt_length, Option.some.injEq] at he
  subst he
  have hm : m ∈ taken := by simp [hp.split]
  obtain rfl := index_eq_zero (hfit m hm) (length_messageFragments m ▸ hp.lt_length) hcarry hstart
  refine .inr ⟨hpaused, ⟨b, hb, hstart, hrefused⟩, fun j e he => ?_⟩
  have hidx : (taken.flatMap messageFragments)[v.stream.nextExpected + j - 1]? = some e := by
    have hcount := hp.count
    rw [hp.split, List.flatMap_append, List.getElem?_append_right (by omega), ← he]
    congr 1
    omega
  have hlt := (List.getElem?_eq_some_iff.mp hidx).1
  obtain ⟨b', hb'⟩ := held j (by omega)
  obtain ⟨e', he', hcarry'⟩ := hc.held _ b' hb'
  rw [hidx, Option.some.injEq] at he'
  exact ⟨b', hb', he' ▸ hcarry'⟩

theorem acks_never_reneged (hr : system.Reachable p) (ha : p.a.link.mFailed = false)
    (hb : p.b.link.mFailed = false) (lane : Lane) (hl : lane ≠ .media) :
    (∀ seq < (p.a.link.streamFor lane).nextSendSeq, (p.a.link.streamFor lane).inFlight.contains seq = false →
      ∀ q, system.Steps p q → q.b.link.mFailed = false → (q.b.link.streamFor lane).Has seq) ∧
    (p.a.link.hasPending lane = false → ∃ done rest, p.a.taken lane = done ++ rest ∧
      (p.b.delivered lane).map (fun d => (d.tag, d.body)) = done.map (fun m => (m.tag, m.body)) ∧
      (rest = [] ∨ WaitsForBudget (p.b.link.streamFor lane) rest)) := by
  have hinv := inv_of_reachable hl hr
  have hack := ackInv_of_reachable hl hr
  refine ⟨fun seq hseq hgone q hs => has_persists hl hr hs ?_, fun hp => ?_⟩
  · exact (hack.sent ha hb seq hseq).resolve_left (by simp [hgone])
  · obtain ⟨hempty, hcursor⟩ := of_not_hasPending hl (hinv.soundA.view.send lane).wf hp
    have hsend := hinv.sends ha
    have hnext : (p.a.link.streamFor lane).nextSendSeq - 1 =
        ((p.a.taken lane).flatMap messageFragments).length := by
      rcases hsend.cursor_cases with ⟨-, done, hpiece⟩ | ⟨done, m, i, hc, -⟩
      · exact hpiece.length_nil
      · rw [show (p.a.view.lane lane).stream.cursor = none from hcursor] at hc
        simp at hc
    have hpos : 1 ≤ (p.a.link.streamFor lane).nextSendSeq := hsend.pos
    exact waits_of_all_held hinv.fit (hinv.soundB.view.recv lane) (hinv.soundB.settled.head lane) (hinv.reads hb)
      fun seq hseq => (hack.sent ha hb seq (by omega)).resolve_left (by simp [hempty seq])

def acknowledged : LinkPair where
  a := arrived.a.onPacket (arrived.b.peekAck.link.mPendingAcks.headD { header := {} }) 0
  b := arrived.b.peekAck.commitAck

lemma acknowledged_reachable : system.Reachable acknowledged := by
  have h₁ := arrived_reachable.step (Step.right _ _ (.peekAck _))
  have h₂ := h₁.step (Step.right _ _ (.commitAck _))
  exact h₂.step (Step.left _ _ (.onPacket _ (arrived.b.peekAck.link.mPendingAcks.headD { header := {} }) 0
    (by decide +kernel)))

theorem acks_never_reneged_acknowledged : ∃ done rest, acknowledged.a.taken .control = done ++ rest ∧
    (acknowledged.b.delivered .control).map (fun d => (d.tag, d.body)) = done.map (fun m => (m.tag, m.body)) ∧
    (rest = [] ∨ WaitsForBudget (acknowledged.b.link.streamFor .control) rest) :=
  (acks_never_reneged acknowledged_reachable (by decide +kernel) (by decide +kernel) .control (by decide)).2
    (by decide +kernel)

end LinkPair

end NetLink.Channel
