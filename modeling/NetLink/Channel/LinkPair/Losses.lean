import NetLink.Channel.LinkPair.Acks
import NetLink.Channel.ReliableLink.Losses

/-! Fast retransmits of two links: which datagram that arrived is behind a loss. -/

namespace NetLink.Channel

open SequenceBuffer

def Packet.tracked (q : Packet) : Bool := q.header.flags.kind = .data ∧ q.header.flags.lane ≠ .media

namespace Host

variable {source : Lane → OutboundMessage → Prop} {incoming : Packet → Prop} {h h' : Host}

def labels (h h' : Host) : List (ℕ × Packet) :=
  ((h'.wire.drop h.wire.length).filter Packet.tracked).map fun q => (h'.link.mTransmissions, q)

lemma labels_of_wire {more : List Packet} (hw : h'.wire = h.wire ++ more) :
    h.labels h' = (more.filter Packet.tracked).map fun q => (h'.link.mTransmissions, q) := by
  rw [labels, hw, List.drop_left]

lemma keeps_of_fails (hf : Fails h h') : h.view.Keeps h'.view := by
  rw [hf]
  intro lane seq e he
  simp [view, ReliableLink.view, ReliableLink.fail, ReliableLink.resetStreams, ReliableLink.streamFor,
    Stream.new] at he

lemma lane_of_offers {lane : Lane} {seq : ℕ} {e : InFlight}
    (hp : h.link.mPeeked = makeDatagram (h.link.headerOf lane seq e) e.bytes) :
    h.link.mPeeked.header.flags.kind = .data ∧ h.link.mPeeked.header.flags.lane = lane ∧
      h.link.mPeeked.header.seq = seq := by
  rw [hp]
  refine ⟨?_, ?_, ?_⟩
  · simp only [makeDatagram, PacketHeader.onWire, flags_headerOf]
    split <;> simp
  · simp only [makeDatagram, PacketHeader.onWire, flags_headerOf]
    split <;> simp
  · simp only [makeDatagram, PacketHeader.onWire, ReliableLink.headerOf, ReliableLink.makeHeader]
    split <;> rfl

lemma labels_of_step (hs : h.Sound) (hp : ∀ q ∈ h.link.mPendingAcks, q.header.flags.kind ≠ .data)
    (ht : Step source incoming h h') :
    h.labels h' = [] ∧ h.view.Keeps h'.view ∨ ∃ lane seq q, h.labels h' = [(h.link.mTransmissions + 1, q)] ∧
      q.tracked = true ∧ q.header.flags.lane = lane ∧ q.header.seq = seq ∧ h.view.Transmits h'.view lane seq := by
  rcases run_of_step ht hs.offers with hf | hr
  · have hw : h'.wire = h.wire ++ [] := by rw [hf, List.append_nil]
    exact .inl ⟨by rw [labels_of_wire hw]; rfl, keeps_of_fails hf⟩
  have quiet : h'.wire = h.wire → h'.link.mTransmissions = h.link.mTransmissions →
      h.labels h' = [] ∧ h.view.Keeps h'.view := fun hw hn =>
    ⟨by rw [labels_of_wire (hw.trans (List.append_nil _).symm)]; rfl, (hr.keeps hs.view).2 hn⟩
  cases ht with
  | peek lane next hm =>
    exact .inl (quiet rfl (congrArg ReliableLink.Aside.transmissions (ReliableLink.aside_peek _ _)))
  | commit lane now ho =>
    have hw : (h.commit lane now).wire = h.wire ++ [h.link.mPeeked] := rfl
    by_cases hl : lane = .media
    · subst hl
      obtain ⟨-, seq, e, hpeeked, -⟩ := hs.offers .media ho
      have hnot : h.link.mPeeked.tracked = false := by simp [Packet.tracked, (lane_of_offers hpeeked).2.1]
      refine .inl ⟨by rw [labels_of_wire hw]; simp [hnot], ?_⟩
      exact (hr.keeps hs.view).2 (congrArg LinkView.transmissions (view_commitMedia h.link h))
    · obtain ⟨seq, e, hpeeked, htransmits⟩ := ReliableLink.commit_transmits hs.view hl (hs.offers lane ho) now
      obtain ⟨hk, hlane, hseq⟩ := lane_of_offers hpeeked
      have htracked : h.link.mPeeked.tracked = true := by simp [Packet.tracked, hk, hlane, hl]
      have hnumber : (h.commit lane now).link.mTransmissions = h.link.mTransmissions + 1 := htransmits.number
      exact .inr ⟨lane, seq,
        h.link.mPeeked, by rw [labels_of_wire hw]; simp [htracked, hnumber], htracked, hlane, hseq,
        htransmits⟩
  | peekAck => exact .inl (quiet rfl ReliableLink.sameSending_peekAck.2.2)
  | commitAck =>
    have hw : h.commitAck.wire = h.wire ++ h.link.mPendingAcks.head?.toList := rfl
    refine .inl ⟨?_, (hr.keeps hs.view).2 rfl⟩
    rw [labels_of_wire hw]
    cases hpending : h.link.mPendingAcks with
    | nil => rfl
    | cons q rest =>
      have hnot : q.tracked = false := by simp [Packet.tracked, hp q (by simp [hpending])]
      simp [hnot]
  | onPacket packet now hp => exact .inl (quiet rfl (ReliableLink.transmissions_onPacket ..))
  | setPaused paused =>
    exact .inl (quiet rfl (congrArg ReliableLink.Aside.transmissions (ReliableLink.aside_setPaused _)))
  | onTimer now =>
    rcases ReliableLink.aside_onTimer (l := h.link) now with ha | hf
    · exact .inl (quiet rfl (congrArg ReliableLink.Aside.transmissions ha))
    · have hw : (h.onTimer now).wire = h.wire ++ [] := (List.append_nil _).symm
      exact .inl ⟨by rw [labels_of_wire hw]; rfl, keeps_of_fails (by rw [Fails, Host.onTimer, hf])⟩
  | supervise now => exact .inl (quiet rfl rfl)
  | takeDelivered => exact .inl (quiet rfl rfl)
  | exchangeBudget budget => exact .inl (quiet rfl rfl)

end Host

section Grounded

variable {window seq : ℕ} {s t : Stream} {f : Feed} {lane : Lane} {reached : Lane → ℕ → Prop}

lemma RecvMove.has_before {p : PacketHeader → List UInt8 → Prop} {ms : List AssembledMessage}
    (hi : RecvInv window s) (hm : RecvMove p s ms t) (h : t.Has seq) :
    s.Has seq ∨ ∃ header body, p header body ∧ header.seq = seq := by
  cases hm with
  | refuse => exact .inl h
  | retry => exact .inl h
  | buffer header body hp hlo hhi hn =>
    rcases h with h | h
    · exact .inl (.inl h)
    · rcases (contains_insert hi.wf (hi.slot_free hlo.le hhi hn)).mp h with rfl | h
      · exact .inr ⟨header, body, hp, rfl⟩
      · exact .inl (.inr h)
  | accept header body budget hp hs hn hr =>
    rcases h with h | h
    · rcases Nat.lt_succ_iff_lt_or_eq.mp h with h | rfl
      · exact .inl (.inl h)
      · exact .inr ⟨header, body, hp, hs⟩
    · exact .inl (.inr h)
  | drain header body budget hf hr =>
    rcases h with h | h
    · rcases Nat.lt_succ_iff_lt_or_eq.mp h with h | rfl
      · exact .inl (.inl h)
      · exact .inl (.inr (contains_iff.mpr ⟨_, hf⟩))
    · exact .inl (.inr ((contains_erase hi.wf).mp h).2)

lemma LaneMove.has_before {v w : LaneView} (hi : RecvInv window v.stream) (hm : LaneMove f lane v w)
    (h : w.stream.Has seq) : v.stream.Has seq ∨ ∃ header body, f.data lane header body ∧ header.seq = seq := by
  cases hm with
  | adjust t ha => exact .inl (by simpa only [Stream.Has, ha.expected, ha.reorder] using h)
  | take => exact .inl h
  | recv ms t hm => exact hm.has_before hi h
  | transmit c t hc ht hn hf hr => exact .inl (by simpa only [Stream.Has, hr.1, hr.2.1] using h)
  | release seq e t ha ht hn hf hr => exact .inl (by simpa only [Stream.Has, hr.1, hr.2.1] using h)

structure Grounded (reached : Lane → ℕ → Prop) (v : LinkView) : Prop where
  has : ∀ lane ≠ .media, ∀ seq ≥ 1, (v.streams lane).Has seq → reached lane seq
  told : ∀ q ∈ v.pending, ∀ lane ≠ .media, ∀ seq ≥ 1, q.acks lane seq → reached lane seq

lemma LinkRun.grounded {v w : LinkView} (hi : ViewInv v)
    (hd : ∀ lane ≠ .media, ∀ header body, f.data lane header body → reached lane header.seq)
    (h : Grounded reached v) (hr : LinkRun f v w) : Grounded reached w := by
  refine (hr.invariant (P := fun v => ViewInv v ∧ Grounded reached v) (fun v w hv hm =>
    ⟨hv.1.move hm, ?_⟩) ⟨hi, h⟩).2
  obtain ⟨hi, h⟩ := hv
  have hhas : ∀ lane ≠ .media, ∀ seq ≥ 1, (w.streams lane).Has seq → reached lane seq := by
    intro lane hl seq hseq hh
    rcases (LinkView.lane_move hl hi hm).has_before (hi.recv lane) hh with hh | ⟨header, body, hp, rfl⟩
    · exact h.has lane hl seq hseq hh
    · exact hd lane hl header body hp
  refine ⟨hhas, ?_⟩
  cases hm with
  | queue packet hk ht hn =>
    intro q hq lane hl seq hseq ha
    rcases List.mem_append.mp hq with hq | hq
    · exact h.told q hq lane hl seq hseq ha
    · obtain rfl := List.mem_singleton.mp hq
      exact h.has lane hl seq hseq ((ht lane seq ha).has (hi.recv lane))
  | unqueue => exact fun q hq => h.told q (List.mem_of_mem_tail hq)
  | _ => exact h.told

lemma Host.grounded_of_step {incoming : Packet → Prop} {source : Lane → OutboundMessage → Prop} {h h' : Host}
    (hs : h.Sound) (ht : Step source incoming h h')
    (hin : ∀ q, incoming q → q.header.flags.kind = .data → q.header.flags.lane ≠ .media →
      reached q.header.flags.lane q.header.seq)
    (hg : Grounded reached h.view)
    (hw : ∀ q ∈ h.wire, ∀ lane ≠ .media, ∀ seq ≥ 1, q.acks lane seq → reached lane seq) :
    Grounded reached h'.view ∧ ∀ q ∈ h'.wire, ∀ lane ≠ .media, ∀ seq ≥ 1, q.acks lane seq → reached lane seq := by
  constructor
  · rcases run_of_step ht hs.offers with hf | hr
    · rw [hf]
      refine ⟨fun lane hl seq hseq hh =>
        ?_, by simp [view, ReliableLink.view, ReliableLink.fail, ReliableLink.resetStreams]⟩
      simp [Stream.Has, view, ReliableLink.view, ReliableLink.fail, ReliableLink.resetStreams,
        ReliableLink.streamFor,
        Stream.new, contains] at hh
      omega
    · refine hr.grounded hs.view ?_ hg
      rintro lane hl _ _ ⟨q, hq, hk, rfl, rfl, rfl⟩
      exact hin q hq hk hl
  · intro q hq lane hl seq hseq ha
    rcases wire_of_step ht hq with hq | ⟨⟨other, ho⟩, rfl⟩ | hq
    · exact hw q hq lane hl seq hseq ha
    · exact absurd ha (LinkPair.not_acks_of_offers (hs.offers other ho))
    · exact hg.told q hq lane hl seq hseq ha

end Grounded

structure Labelled where
  a : Host
  b : Host
  sent : List (ℕ × Packet) := []
  arrived : List (ℕ × Packet) := []

namespace Labelled

/-- The network loses, repeats, delays and reorders; `fair` is asked of the packets the first link hears. -/
inductive Step (fair : Labelled → Packet → Prop) (p : Labelled) : Labelled → Prop
  | left (a : Host) (hs : Host.Step (fun _ _ => True) (fun q => q ∈ p.b.wire ∧ fair p q) p.a a) :
      Step fair p { p with a := a, sent := p.sent ++ p.a.labels a }
  | right (b : Host) (hs : Host.Step (fun _ _ => True) (fun q => q ∈ p.a.wire ∧ q.tracked = false) p.b b) :
      Step fair p { p with b := b }
  | arrives (label : ℕ × Packet) (now : TimePoint) (hl : label ∈ p.sent) :
      Step fair p { p with b := p.b.onPacket label.2 now, arrived := p.arrived ++ [label] }

def system (fair : Labelled → Packet → Prop) : Lib.System Labelled where
  init p := p.a.Initial ∧ p.b.Initial ∧ p.sent = [] ∧ p.arrived = []
  step := Step fair

def Carries (lane : Lane) (seq : ℕ) (label : ℕ × Packet) : Prop :=
  label.2.tracked = true ∧ label.2.header.flags.lane = lane ∧ label.2.header.seq = seq

/-- Whatever the Ack speaks for was sent only once, or its latest transmission or a later one has arrived. -/
def Confirmed (p : Labelled) (q : Packet) : Prop :=
  ∀ lane seq e, q.acks lane seq → p.a.link.entry lane seq = some e →
    (∀ label ∈ p.sent, Carries lane seq label → label.1 = e.transmission) ∨
      ∃ label ∈ p.arrived, e.transmission ≤ label.1

def Reached (p : Labelled) (lane : Lane) (seq : ℕ) : Prop := ∃ label ∈ p.arrived, Carries lane seq label

structure Inv (p : Labelled) : Prop where
  soundA : p.a.Sound
  soundB : p.b.Sound
  pending : ∀ q ∈ p.a.link.mPendingAcks, q.header.flags.kind ≠ .data
  subset : ∀ label ∈ p.arrived, label ∈ p.sent
  labelled : ∀ lane seq e, p.a.link.entry lane seq = some e → ∃ label ∈ p.sent, Carries lane seq label ∧
    label.1 = e.transmission
  tracked : ∀ label ∈ p.sent, label.2.tracked = true
  grounded : Grounded p.Reached p.b.view
  told : ∀ q ∈ p.b.wire, ∀ lane ≠ .media, ∀ seq ≥ 1, q.acks lane seq → p.Reached lane seq
  largest : p.a.link.mLargestAcked = 0 ∨ ∃ label ∈ p.arrived, p.a.link.mLargestAcked ≤ label.1

variable {p : Labelled} {fair : Labelled → Packet → Prop}

lemma Reached.mono {p p' : Labelled} {lane : Lane} {seq : ℕ} (hs : ∀ label ∈ p.arrived, label ∈ p'.arrived)
    (h : p.Reached lane seq) : p'.Reached lane seq := by
  obtain ⟨label, hl, hc⟩ := h
  exact ⟨label, hs label hl, hc⟩

lemma inv_of_init (hi : (system fair).init p) : p.Inv := by
  obtain ⟨a, b, sent, arrived⟩ := p
  obtain ⟨ha, hb, rfl, rfl⟩ := hi
  refine ⟨Host.sound_of_initial ha, Host.sound_of_initial hb, ?_, by simp, ?_, by simp, ⟨?_, ?_⟩, ?_, ?_⟩
  · obtain ⟨timings, id, budget, rfl⟩ := ha
    simp [ReliableLink.new]
  · obtain ⟨timings, id, budget, rfl⟩ := ha
    simp [ReliableLink.entry, ReliableLink.new, ReliableLink.streamFor, Stream.new]
  · obtain ⟨timings, id, budget, rfl⟩ := hb
    intro lane hl seq hseq hh
    simp [Stream.Has, Host.view, ReliableLink.view, ReliableLink.new, ReliableLink.streamFor, Stream.new,
      contains] at hh
    omega
  · obtain ⟨timings, id, budget, rfl⟩ := hb
    simp [Host.view, ReliableLink.view, ReliableLink.new]
  · obtain ⟨timings, id, budget, rfl⟩ := hb
    simp
  · obtain ⟨timings, id, budget, rfl⟩ := ha
    exact .inl rfl

lemma Inv.right (h : p.Inv) {b : Host}
    (hs : Host.Step (fun _ _ => True) (fun q => q ∈ p.a.wire ∧ q.tracked = false) p.b b) :
      Inv { p with b := b } := by
  obtain ⟨hg, hw⟩ := Host.grounded_of_step h.soundB hs (fun q hq hk hl => by simp [Packet.tracked, hk, hl] at hq)
    h.grounded h.told
  exact ⟨h.soundA, h.soundB.step hs, h.pending, h.subset, h.labelled, h.tracked, hg, hw, h.largest⟩

lemma Inv.arrives (h : p.Inv) {label : ℕ × Packet} (now : TimePoint) (hl : label ∈ p.sent) :
    Inv { p with b := p.b.onPacket label.2 now, arrived := p.arrived ++ [label] } := by
  have hmore : ∀ {lane seq}, p.Reached lane seq → Reached { p with
      b := p.b.onPacket label.2 now, arrived := p.arrived ++ [label] } lane seq :=
    Reached.mono fun _ => List.mem_append_left _
  have hs : Host.Step (fun _ _ => True) (· = label.2) p.b (p.b.onPacket label.2 now) := .onPacket _ _ now rfl
  have hnew : ∀ q, q = label.2 → q.header.flags.kind = .data → q.header.flags.lane ≠ .media → Reached { p with
      b := p.b.onPacket label.2 now, arrived := p.arrived ++ [label] } q.header.flags.lane q.header.seq := by
    rintro _ rfl - -
    exact ⟨label, List.mem_append_right _ (List.mem_singleton_self _), h.tracked label hl, rfl, rfl⟩
  obtain ⟨hg, hw⟩ := Host.grounded_of_step h.soundB hs hnew
    ⟨fun lane hl seq hseq hh => hmore (h.grounded.has lane hl seq hseq hh),
      fun q hq lane hl seq hseq ha => hmore (h.grounded.told q hq lane hl seq hseq ha)⟩
    fun q hq lane hl seq hseq ha => hmore (h.told q hq lane hl seq hseq ha)
  refine ⟨h.soundA, h.soundB.step hs, h.pending, fun other ho => ?_, h.labelled, h.tracked, hg, hw, ?_⟩
  · rcases List.mem_append.mp ho with ho | ho
    · exact h.subset other ho
    · exact List.mem_singleton.mp ho ▸ hl
  · refine h.largest.imp_right ?_
    rintro ⟨other, ho, hle⟩
    exact ⟨other, List.mem_append_left _ ho, hle⟩

lemma largest_of_step {incoming : Packet → Prop} {source : Lane → OutboundMessage → Prop} {h h' : Host}
    (hs : h.Sound) (ht : Host.Step source incoming h h') :
    h'.link.mLargestAcked = h.link.mLargestAcked ∨ h'.link.mLargestAcked = 0 ∨ ∃ q lane seq e, incoming q ∧
      q.acks lane seq ∧ h.link.entry lane seq = some e ∧ h'.link.mLargestAcked = e.transmission := by
  cases ht with
  | peek lane next hm => exact .inl (congrArg ReliableLink.Aside.largest (ReliableLink.aside_peek _ _))
  | commit lane now ho =>
    obtain ⟨n, sent, resent, ha⟩ := ReliableLink.aside_commit h.link lane now
    have hlargest := congrArg ReliableLink.Aside.largest ha
    exact .inl hlargest
  | peekAck => exact .inl ReliableLink.sameSending_peekAck.2.1
  | onPacket q now hq =>
    have hw : h.link.Sending := fun lane => (hs.view.send lane).wf
    refine (ReliableLink.onPacket_largest _ _ hw).imp_right fun ⟨lane, seq, e, ha, hf, he⟩ => ?_
    exact .inr ⟨q, lane, seq, e, hq, ha, hf, he⟩
  | setPaused paused => exact .inl (congrArg ReliableLink.Aside.largest (ReliableLink.aside_setPaused _))
  | onTimer now =>
    rcases ReliableLink.aside_onTimer (l := h.link) now with ha | hf
    · exact .inl (congrArg ReliableLink.Aside.largest ha)
    · right
      left
      rw [Host.onTimer, hf]
      rfl
  | commitAck | supervise | takeDelivered | exchangeBudget => exact .inl rfl

lemma Inv.left (h : p.Inv) {a : Host}
    (hs : Host.Step (fun _ _ => True) (fun q => q ∈ p.b.wire ∧ p.Confirmed q) p.a a) :
    Inv { p with a := a, sent := p.sent ++ p.a.labels a } := by
  have hlabels := Host.labels_of_step h.soundA h.pending hs
  refine ⟨h.soundA.step hs, h.soundB, ?_, fun label hl => List.mem_append_left _ (h.subset label hl), ?_,
    ?_, h.grounded,
    h.told, ?_⟩
  · rcases Host.run_of_step hs h.soundA.offers with hf | hr
    · simp only [Host.Fails] at hf
      simp [hf, ReliableLink.fail, ReliableLink.resetStreams]
    · exact LinkPair.pending_of_run hr h.pending
  · intro lane seq e hf
    have hold : (∃ e', p.a.link.entry lane seq = some e' ∧ e'.transmission = e.transmission) →
        ∃ label ∈ p.sent ++ p.a.labels a, Carries lane seq label ∧ label.1 = e.transmission := by
      rintro ⟨e', hf', he'⟩
      obtain ⟨label, hl, hc, hn⟩ := h.labelled lane seq e' hf'
      exact ⟨label, List.mem_append_left _ hl, hc, hn.trans he'⟩
    rcases hlabels with ⟨-, hkeeps⟩ | ⟨lane', seq', q, hl, htracked, hlane, hseq, ht⟩
    · exact hold (hkeeps lane seq e hf)
    · rcases ht.entries lane seq e hf with hsame | ⟨rfl, rfl, he⟩
      · exact hold hsame
      · refine ⟨(p.a.link.mTransmissions + 1, q), ?_, ⟨htracked, hlane, hseq⟩, he.symm⟩
        exact List.mem_append_right _ (hl ▸ List.mem_singleton_self _)
  · intro label hl
    rcases List.mem_append.mp hl with hl | hl
    · exact h.tracked label hl
    · obtain ⟨q, hq, rfl⟩ := List.mem_map.mp hl
      exact (List.mem_filter.mp hq).2
  · rcases largest_of_step h.soundA hs with hsame | hzero | ⟨q, lane, seq, e, ⟨hq, hc⟩, ha, hf, hlargest⟩
    · refine h.largest.imp hsame.trans ?_
      rintro ⟨label, hl, hle⟩
      exact ⟨label, hl, hsame.trans_le hle⟩
    · exact .inl hzero
    · -- the Ack rests on a datagram that has arrived, and it was the latest one or came after it
      right
      obtain ⟨label, hl, hcarries, hn⟩ := h.labelled lane seq e hf
      have hmedia : lane ≠ .media := by
        rintro rfl
        have htracked := hcarries.1
        simp [Packet.tracked, hcarries.2.1] at htracked
      have hseq : 1 ≤ seq := by
        have hkey := (h.soundA.view.send lane).key seq (contains_iff.mpr ⟨e, hf⟩)
        exact (h.soundA.view.send lane).base_pos.trans hkey.1
      rcases hc lane seq e ha hf with honce | ⟨other, ho, hother⟩
      · obtain ⟨other, ho, hcarries'⟩ := h.told q hq lane hmedia seq hseq ha
        exact ⟨other, ho, hlargest.trans_le (honce other (h.subset other ho) hcarries').ge⟩
      · exact ⟨other, ho, hlargest.trans_le hother⟩

lemma inv (h : (system Confirmed).Reachable p) : p.Inv := by
  refine h.invariant (fun _ => inv_of_init) fun p p' _ hp hs => ?_
  cases hs with
  | left a hs => exact hp.left hs
  | right b hs => exact hp.right hs
  | arrives label now hl => exact hp.arrives now hl

theorem loss_has_cause (h : (system Confirmed).Reachable p) {q : Packet} (hq : q ∈ p.b.wire) (hc : p.Confirmed q)
    (now : TimePoint) (lane : Lane) (seq : ℕ) (e e' : InFlight)
    (hf : (p.a.link.streamFor lane).inFlight.find seq = some e) (he : e.lost = false)
    (hf' : ((p.a.onPacket q now).link.streamFor lane).inFlight.find seq = some e') (he' : e'.lost = true) :
    ∃ label ∈ p.arrived, e.transmission < label.1 := by
  have hstep : Host.Step (fun _ _ => True) (fun q => q ∈ p.b.wire ∧ p.Confirmed q) p.a (p.a.onPacket q now) :=
    .onPacket _ q now ⟨hq, hc⟩
  obtain ⟨e₀, hf₀, hle⟩ := ReliableLink.onPacket_lost (fun lane => ((inv h).soundA.view.send lane).wf) hf' he'
  obtain rfl : e = e₀ := Option.some.inj (hf.symm.trans hf₀)
  have hle : e.transmission + FastRetransmitThreshold ≤ (p.a.onPacket q now).link.mLargestAcked := hle he
  have hthreshold : 0 < FastRetransmitThreshold := by decide
  rcases ((inv h).left hstep).largest with hzero | ⟨label, hl, hlabel⟩
  · have hzero : (p.a.onPacket q now).link.mLargestAcked = 0 := hzero
    omega
  · have hlabel : (p.a.onPacket q now).link.mLargestAcked ≤ label.1 := hlabel
    exact ⟨label, hl, by omega⟩

def ownStep (p : Labelled) (a : Host) : Labelled := { p with a := a, sent := p.sent ++ p.a.labels a }

def send (p : Labelled) (lane : Lane) (next : Option OutboundMessage) (now : TimePoint) : Labelled :=
  (p.ownStep (p.a.peek lane next)).ownStep ((p.a.peek lane next).commit lane now)

def wait (p : Labelled) (now : TimePoint) : Labelled := p.ownStep (p.a.onTimer now)

def deliver (p : Labelled) (i : ℕ) (now : TimePoint) : Labelled :=
  let label := p.sent.getD i (0, { header := {} })
  { p with b := (p.b.onPacket label.2 now).peekAck.commitAck, arrived := p.arrived ++ [label] }

def start : Labelled := ⟨{ link := .new {} 7 none }, { link := .new {} 9 none }, [], []⟩

lemma reachable_own (h : (system fair).Reachable p) {a : Host}
    (hs : Host.Step (fun _ _ => True) (fun q => q ∈ p.b.wire ∧ fair p q) p.a a) :
      (system fair).Reachable (p.ownStep a) :=
  h.step (.left a hs)

lemma reachable_send (h : (system fair).Reachable p) (lane : Lane) (next : Option OutboundMessage)
    (now : TimePoint) (ho : (p.a.peek lane next).offered = some lane) :
    (system fair).Reachable (p.send lane next now) :=
  reachable_own (reachable_own h (.peek _ lane next fun _ _ => trivial)) (.commit _ lane now ho)

lemma reachable_deliver (h : (system fair).Reachable p) (i : ℕ) (now : TimePoint)
    (hi : p.sent.getD i (0, { header := {} }) ∈ p.sent) : (system fair).Reachable (p.deliver i now) :=
  ((h.step (.arrives _ now hi)).step (.right _ (.peekAck _))).step (.right _ (.commitAck _))

lemma start_reachable : (system fair).Reachable start := .of_init ⟨⟨_, _, _, rfl⟩, ⟨_, _, _, rfl⟩, rfl, rfl⟩

def overtaking : Labelled :=
  let send (p : Labelled) := p.send .bulk (some { body := [1] }) 0
  (send (send (send (send start)))).deliver 3 0

lemma overtaking_reachable : (system fair).Reachable overtaking := by
  have h₁ := reachable_send (start_reachable : (system fair).Reachable start) .bulk (some { body := [1] }) 0
    (by decide +kernel)
  have h₂ := reachable_send h₁ .bulk (some { body := [1] }) 0 (by decide +kernel)
  have h₃ := reachable_send h₂ .bulk (some { body := [1] }) 0 (by decide +kernel)
  have h₄ := reachable_send h₃ .bulk (some { body := [1] }) 0 (by decide +kernel)
  exact reachable_deliver h₄ 3 0 (by decide +kernel)

def answer (p : Labelled) : Packet := p.b.wire.getD 0 { header := {} }

lemma overtaking_confirmed : overtaking.Confirmed overtaking.answer := by
  rintro lane seq e ⟨-, hlane, ack, hack, hseq⟩ hf
  have hbulk : overtaking.answer.header.flags.lane = .bulk := by decide +kernel
  have hbody : overtaking.answer.ack = some ⟨1, 0, [⟨4, 1⟩]⟩ := by decide +kernel
  have hheader : overtaking.answer.header.seq = 0 := by decide +kernel
  obtain rfl : Lane.bulk = lane := hbulk.symm.trans hlane
  obtain rfl : (⟨1, 0, [⟨4, 1⟩]⟩ : AckBody) = ack := Option.some.inj (hbody.symm.trans hack)
  have hcases : seq = 0 ∨ seq = 4 := by
    simp only [hheader, List.mem_singleton, exists_eq_left, SeqRange.last] at hseq
    omega
  rcases hcases with rfl | rfl
  · have hnone : overtaking.a.link.entry .bulk 0 = none := by decide +kernel
    rw [hnone] at hf
    cases hf
  · right
    have hn : (overtaking.a.link.entry .bulk 4).map InFlight.transmission = some 4 := by decide +kernel
    rw [hf, Option.map_some, Option.some.injEq] at hn
    exact ⟨overtaking.arrived.getD 0 (0, { header := {} }), by decide +kernel, hn ▸ by decide +kernel⟩

def inFlightAt (h : Host) (lane : Lane) (seq : ℕ) : InFlight :=
  ((h.link.streamFor lane).inFlight.find seq).getD { message := [] }

theorem loss_has_cause_overtaking :
    (inFlightAt (overtaking.a.onPacket overtaking.answer 0) .bulk 1).lost = true ∧
      ∃ label ∈ overtaking.arrived, (inFlightAt overtaking.a .bulk 1).transmission < label.1 := by
  refine ⟨by decide +kernel, loss_has_cause overtaking_reachable (q := overtaking.answer) (by decide +kernel)
    overtaking_confirmed 0 .bulk 1 _ (inFlightAt (overtaking.a.onPacket overtaking.answer 0) .bulk 1)
      ?_ ?_ ?_ ?_⟩ <;>
    decide +kernel

def spurious : Labelled :=
  let send (p : Labelled) := p.send .bulk (some { body := [1] }) (fromMillis 1000)
  let p := (start.send .reliable (some { body := [1] }) 0).wait (fromMillis 1000)
  ((send (send (send (send p)))).send .reliable none (fromMillis 1000)).deliver 0 (fromMillis 1001)

lemma spurious_reachable : (system fun _ _ => True).Reachable spurious := by
  have h₀ := reachable_send (start_reachable : (system fun _ _ => True).Reachable start) .reliable
    (some { body := [1] }) 0 (by decide +kernel)
  have h₁ := reachable_own h₀ (.onTimer _ (fromMillis 1000))
  have h₂ := reachable_send h₁ .bulk (some { body := [1] }) (fromMillis 1000) (by decide +kernel)
  have h₃ := reachable_send h₂ .bulk (some { body := [1] }) (fromMillis 1000) (by decide +kernel)
  have h₄ := reachable_send h₃ .bulk (some { body := [1] }) (fromMillis 1000) (by decide +kernel)
  have h₅ := reachable_send h₄ .bulk (some { body := [1] }) (fromMillis 1000) (by decide +kernel)
  have h₆ := reachable_send h₅ .reliable none (fromMillis 1000) (by decide +kernel)
  exact reachable_deliver h₆ 0 (fromMillis 1001) (by decide +kernel)

/-- The Ack for the first transmission is taken for one of the last, and packets that nothing has overtaken are
lost. -/
theorem loss_without_cause : ∃ p q now lane seq e e', (system fun _ _ => True).Reachable p ∧ q ∈ p.b.wire ∧
    (p.a.link.streamFor lane).inFlight.find seq = some e ∧ e.lost = false ∧
    ((p.a.onPacket q now).link.streamFor lane).inFlight.find seq = some e' ∧ e'.lost = true ∧
    ∀ label ∈ p.arrived, label.1 ≤ e.transmission := by
  refine ⟨spurious, spurious.answer, fromMillis 1001, .bulk, 1, inFlightAt spurious.a .bulk 1,
    inFlightAt (spurious.a.onPacket spurious.answer (fromMillis 1001)) .bulk 1, spurious_reachable, ?_⟩
  decide +kernel

end Labelled

end NetLink.Channel
