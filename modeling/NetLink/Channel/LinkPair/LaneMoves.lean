import NetLink.Channel.LinkPair.Fragments

/-! The moves of a link as one lane sees them. -/

namespace NetLink.Channel

open SequenceBuffer

def InFlight.core (e : InFlight) : InFlight :=
  { e with transmissions := 0, lost := false, sentAt := 0, transmission := 0 }

structure LaneView where
  stream : Stream
  taken : List OutboundMessage
  out : List (UInt32 × List UInt8)

def LinkView.lane (v : LinkView) (lane : Lane) : LaneView where
  stream := v.streams lane
  taken := v.taken lane
  out := (v.delivered.filter (·.lane == lane)).map fun d => (d.tag, d.body)

structure Stream.Alike (s t : Stream) : Prop where
  cursor : t.cursor = s.cursor
  next : t.nextSendSeq = s.nextSendSeq
  inFlight : ∀ seq, (t.inFlight.find seq).map InFlight.core = (s.inFlight.find seq).map InFlight.core
  reorder : t.reorder = s.reorder
  expected : t.nextExpected = s.nextExpected
  assembler : t.assembler = s.assembler

lemma Stream.Alike.refl (s : Stream) : s.Alike s := ⟨rfl, rfl, fun _ => rfl, rfl, rfl, rfl⟩

inductive LaneMove (f : Feed) (lane : Lane) : LaneView → LaneView → Prop
  | adjust (v : LaneView) (t : Stream) (ha : v.stream.Alike t) : LaneMove f lane v { v with stream := t }
  | take (v : LaneView) (m : OutboundMessage) (hs : f.source lane m) (hc : v.stream.cursor = none) :
      LaneMove f lane v { v with stream := v.stream.took m, taken := v.taken ++ [m] }
  | recv (v : LaneView) (ms : List AssembledMessage) (t : Stream) (hm : RecvMove (f.data lane) v.stream ms t) :
      LaneMove f lane v { v with stream := t, out := v.out ++ ms.map fun m => (m.tag, m.body) }
  | transmit (v : LaneView) (c : FragmentCursor) (t : Stream) (hc : v.stream.cursor = some c)
      (ht : t.cursor = c.advance) (hn : t.nextSendSeq = v.stream.nextSendSeq + 1)
      (hf : ∀ seq, (t.inFlight.find seq).map InFlight.core = if seq = v.stream.nextSendSeq then some (fragmentAt c)
        else (v.stream.inFlight.find seq).map InFlight.core)
      (hr : t.reorder = v.stream.reorder ∧ t.nextExpected = v.stream.nextExpected ∧
        t.assembler = v.stream.assembler) :
      LaneMove f lane v { v with stream := t }
  | release (v : LaneView) (seq : ℕ) (e : InFlight) (t : Stream) (ha : f.acked lane seq)
      (ht : t.cursor = v.stream.cursor) (hn : t.nextSendSeq = v.stream.nextSendSeq)
      (hf : ∀ other, t.inFlight.find other = if other = seq then none else v.stream.inFlight.find other)
      (hr : t.reorder = v.stream.reorder ∧ t.nextExpected = v.stream.nextExpected ∧
        t.assembler = v.stream.assembler) :
      LaneMove f lane v { v with stream := t }

lemma core_assign {b : SequenceBuffer InFlight} {seq : ℕ} {e e' : InFlight} (hw : b.WF) (hf : b.find seq = some e)
    (he : e'.core = e.core) (other : ℕ) :
    ((b.assign seq e').find other).map InFlight.core = (b.find other).map InFlight.core := by
  rw [find_assign hw]
  split
  · next h =>
    rw [h.1, hf, Option.map_some, Option.map_some, he]
  · rfl

namespace LinkView

variable {f : Feed} {v w : LinkView} {lane : Lane}

lemma lane_set (v : LinkView) (lane : Lane) (s : Stream) :
    (v.set lane s).lane lane = { v.lane lane with stream := s } := by
  simp [LinkView.lane, set]

lemma lane_set_of_ne {other : Lane} (h : lane ≠ other) (s : Stream) : (v.set other s).lane lane = v.lane lane := by
  simp [LinkView.lane, set, h]

lemma lane_move_set {other : Lane} {s : Stream}
    (hs : LaneMove f other (v.lane other) { v.lane other with stream := s }) :
    LaneMove f lane (v.lane lane) ((v.set other s).lane lane) := by
  by_cases h : lane = other
  · subst h
    rwa [lane_set]
  · rw [lane_set_of_ne h]
    exact .adjust _ _ (.refl _)

lemma filter_received (lane other : Lane) (ms : List AssembledMessage) :
    ((ms.map fun m => (⟨other, m.tag, m.body⟩ : DeliveredMessage)).filter (·.lane == lane)).map
      (fun d => (d.tag, d.body)) = if other = lane then ms.map fun m => (m.tag, m.body) else [] := by
  induction ms with
  | nil => simp
  | cons m ms ih => by_cases h : other = lane <;> simp_all

lemma lane_move (hl : lane ≠ .media) (hi : ViewInv v) (hm : LinkMove f v w) :
    LaneMove f lane (v.lane lane) (w.lane lane) := by
  cases hm with
  | take other m hm hs hc =>
    by_cases h : lane = other
    · subst h
      have hmove := LaneMove.take (f := f) (v.lane lane) m hs hc
      simpa [LinkView.lane, set] using hmove
    · have hv : LinkView.lane { v.set other ((v.streams other).took m) with
          taken := Function.update v.taken other (v.taken other ++ [m]) } lane = v.lane lane := by
        simp [LinkView.lane, set, h]
      exact hv ▸ .adjust _ _ (.refl _)
  | takeMedia ms =>
    have hv : LinkView.lane { v with taken := Function.update v.taken .media ms } lane = v.lane lane := by
      simp [LinkView.lane, hl]
    exact hv ▸ .adjust _ _ (.refl _)
  | deliverMedia m hm =>
    have hv : LinkView.lane { v with delivered := v.delivered ++ [m] } lane = v.lane lane := by
      simp [LinkView.lane, hm, Ne.symm hl]
    exact hv ▸ .adjust _ _ (.refl _)
  | recv other ms t hk hm hmove =>
    by_cases h : lane = other
    · subst h
      have hv : (v.receive lane t ms).lane lane = { v.lane lane with
          stream := t, out := (v.lane lane).out ++ ms.map fun m => (m.tag, m.body) } := by
        simp only [LinkView.lane, receive, set, Function.update_self, List.filter_append, List.map_append,
          filter_received, if_true]
      exact hv ▸ .recv _ ms t hmove
    · have hv : (v.receive other t ms).lane lane = v.lane lane := by
        simp only [LinkView.lane, receive, set, Function.update_of_ne h, List.filter_append, List.map_append,
          filter_received, if_neg (Ne.symm h), List.append_nil]
      exact hv ▸ .adjust _ _ (.refl _)
  | tune other paused serial time interval =>
    exact lane_move_set (.adjust _ _ ⟨rfl, rfl, fun _ => rfl, rfl, rfl, rfl⟩)
  | scrub other => exact lane_move_set (.adjust _ _ ⟨rfl, rfl, fun _ => rfl, rfl, rfl, rfl⟩)
  | retransmit other seq rest e now hm hlost hf he =>
    exact lane_move_set (.adjust _ _ ⟨rfl, rfl, core_assign (hi.send other).wf hf rfl, rfl, rfl, rfl⟩)
  | transmit other c now hm hc hr =>
    refine lane_move_set (.transmit _ c _ hc rfl rfl (fun seq => ?_) ⟨rfl, rfl, rfl⟩)
    rw [(hi.send other).find_transmitted hr]
    change _ = if seq = (v.streams other).nextSendSeq then _ else _
    split <;> rfl
  | release other seq e hk ha hf => 
    exact lane_move_set (.release _ seq e _ ha rfl rfl (fun _ => find_erase (hi.send other).wf) ⟨rfl, rfl, rfl⟩)
  | advance other base hk => exact lane_move_set (.adjust _ _ ⟨rfl, rfl, fun _ => rfl, rfl, rfl, rfl⟩)
  | giveUp record rest e hk hs hf he ht =>
    exact lane_move_set (.adjust _ _ ⟨rfl, rfl, core_assign (hi.send record.lane).wf hf rfl, rfl, rfl, rfl⟩)
  | drop | queue | unqueue | fault => exact .adjust _ _ (.refl _)

end LinkView

end NetLink.Channel
