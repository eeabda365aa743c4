import NetLink.Channel.ReliableLink.Host

/-! The receive side of a stream moves in five ways; everything a link does with Data packets is a run
of these moves and leaves the rest of the link alone. -/

namespace NetLink.Channel

inductive RecvMove (p : PacketHeader → List UInt8 → Prop) : Stream → List AssembledMessage → Stream → Prop
  | refuse (s : Stream) (header : PacketHeader) (body : List UInt8)
      (hp : (p header body ∧ header.seq = s.nextExpected ∧ s.reorder.find s.nextExpected = none) ∨
        s.reorder.find s.nextExpected = some ⟨header, body⟩)
      (hs : header.startsFragmentedMessage = true) :
      RecvMove p s [] { s with budgetPaused := true, refusedLength := header.totalLength }
  | retry (s : Stream) : RecvMove p s [] { s with budgetPaused := false }
  | buffer (s : Stream) (header : PacketHeader) (body : List UInt8) (hp : p header body)
      (hlo : s.nextExpected < header.seq) (hhi : header.seq < s.nextExpected + s.reorder.capacity)
      (hn : s.reorder.find header.seq = none) :
      RecvMove p s [] { s with reorder := s.reorder.insert header.seq ⟨header, body⟩ }
  | accept (s : Stream) (header : PacketHeader) (body : List UInt8) (budget : Option AssemblyBudget)
      (hp : p header body) (hs : header.seq = s.nextExpected) (hn : s.reorder.find s.nextExpected = none)
      (hr : MessageAssembler.hasRoomFor budget header = true) :
      RecvMove p s (s.assembler.accept budget header body).2.2.toList { s with
        assembler := (s.assembler.accept budget header body).1
        nextExpected := s.nextExpected + 1 }
  | drain (s : Stream) (header : PacketHeader) (body : List UInt8) (budget : Option AssemblyBudget)
      (hf : s.reorder.find s.nextExpected = some ⟨header, body⟩)
      (hr : MessageAssembler.hasRoomFor budget header = true) :
      RecvMove p s (s.assembler.accept budget header body).2.2.toList { s with
        assembler := (s.assembler.accept budget header body).1
        reorder := s.reorder.erase s.nextExpected
        nextExpected := s.nextExpected + 1 }

inductive RecvRun (p : PacketHeader → List UInt8 → Prop) : Stream → List AssembledMessage → Stream → Prop
  | refl (s : Stream) : RecvRun p s [] s
  | tail {s t u : Stream} {ms ns : List AssembledMessage} (hr : RecvRun p s ms t) (hm : RecvMove p t ns u) :
      RecvRun p s (ms ++ ns) u

namespace RecvRun

variable {p : PacketHeader → List UInt8 → Prop} {s t u : Stream} {ms ns : List AssembledMessage}

lemma single (h : RecvMove p s ms t) : RecvRun p s ms t := by simpa using (refl s).tail h

lemma trans (h : RecvRun p s ms t) (h' : RecvRun p t ns u) : RecvRun p s (ms ++ ns) u := by
  induction h' with
  | refl => simpa using h
  | tail _ hm ih => simpa using ih.tail hm

lemma invariant {P : Stream → Prop} (hstep : ∀ s ms t, P s → RecvMove p s ms t → P t) (h : RecvRun p s ms t)
    (hs : P s) : P t := by
  induction h with
  | refl => exact hs
  | tail _ hm ih => exact hstep _ _ _ ih hm

end RecvRun

namespace ReliableLink

def received (l : ReliableLink) (lane : Lane) (s : Stream) (ms : List AssembledMessage)
    (budget : Option AssemblyBudget) (stats : LinkStats) (due : Lane → Bool) : ReliableLink :=
  { l with
    mStreams := Function.update l.mStreams lane (some s)
    mDelivered := l.mDelivered ++ ms.map fun m => { lane := lane, tag := m.tag, body := m.body }
    mBudget := budget
    mStats := stats
    mAckDue := due }

section Received

variable (l : ReliableLink) (lane : Lane) (s t : Stream) (ms ns : List AssembledMessage)
  (budget budget' : Option AssemblyBudget) (stats stats' : LinkStats) (due due' : Lane → Bool)

lemma streamFor_received :
    (l.received lane s ms budget stats due).streamFor = Function.update l.streamFor lane s :=
  streamFor_setStream l lane s

@[simp] lemma streamFor_received_self : (l.received lane s ms budget stats due).streamFor lane = s := by
  simp [streamFor_received]

@[simp] lemma received_received :
    (l.received lane s ms budget stats due).received lane t ns budget' stats' due' =
      l.received lane t (ms ++ ns) budget' stats' due' := by
  simp [received]

@[simp] lemma setStream_received :
    (l.received lane s ms budget stats due).setStream lane t = l.received lane t ms budget stats due := by
  simp [received, setStream]

lemma setStream_eq_received :
    l.setStream lane s = l.received lane s [] l.mBudget l.mStats l.mAckDue := by
  simp [received, setStream]

end Received

def ReceivedVia (p : PacketHeader → List UInt8 → Prop) (lane : Lane) (l l' : ReliableLink) : Prop :=
  ∃ s ms budget stats due, RecvRun p (l.streamFor lane) ms s ∧ l' = l.received lane s ms budget stats due

namespace ReceivedVia

variable {p : PacketHeader → List UInt8 → Prop} {lane : Lane} {l l₁ l₂ : ReliableLink}

lemma start (l : ReliableLink) : ReceivedVia p lane l (l.setStream lane (l.streamFor lane)) :=
  ⟨_, [], l.mBudget, l.mStats, l.mAckDue, .refl _, setStream_eq_received ..⟩

lemma trans (h : ReceivedVia p lane l l₁) (h' : ReceivedVia p lane l₁ l₂) : ReceivedVia p lane l l₂ := by
  obtain ⟨s, ms, budget, stats, due, hr, rfl⟩ := h
  obtain ⟨t, ns, budget', stats', due', hr', rfl⟩ := h'
  rw [streamFor_received_self] at hr'
  exact ⟨t, ms ++ ns, budget', stats', due', hr.trans hr', received_received ..⟩

lemma move {s : Stream} {ms : List AssembledMessage} (hm : RecvMove p (l.streamFor lane) ms s)
    (budget : Option AssemblyBudget) (stats : LinkStats) (due : Lane → Bool) :
    ReceivedVia p lane l (l.received lane s ms budget stats due) :=
  ⟨s, ms, budget, stats, due, .single hm, rfl⟩

lemma refl (h : (l.mStreams lane).isSome) : ReceivedVia p lane l l := by
  obtain ⟨s, hs⟩ := Option.isSome_iff_exists.mp h
  refine ⟨s, [], l.mBudget, l.mStats, l.mAckDue, ?_, ?_⟩
  · rw [streamFor_of_some l lane s hs]
    exact .refl s
  · simp [received, ← hs]

lemma isSome (h : ReceivedVia p lane l l₁) : (l₁.mStreams lane).isSome := by
  obtain ⟨s, ms, budget, stats, due, -, rfl⟩ := h
  simp [received]

end ReceivedVia

variable {p : PacketHeader → List UInt8 → Prop} {lane : Lane} {l : ReliableLink} {s : Stream}
  {header : PacketHeader} {body : List UInt8}

lemma acceptInOrder_refused (h : MessageAssembler.hasRoomFor l.mBudget header = false) :
    l.acceptInOrder lane s header body =
      (false, l.setStream lane { s with budgetPaused := true, refusedLength := header.totalLength }) := by
  simp [acceptInOrder, h]

lemma acceptInOrder_taken (l : ReliableLink) (lane : Lane) (s : Stream) (body : List UInt8)
    (h : MessageAssembler.hasRoomFor l.mBudget header = true) :
    ∃ stats, l.acceptInOrder lane s header body = (true, l.received lane
      { s with assembler := (s.assembler.accept l.mBudget header body).1 }
      (s.assembler.accept l.mBudget header body).2.2.toList
      (s.assembler.accept l.mBudget header body).2.1 stats l.mAckDue) := by
  rcases ha : s.assembler.accept l.mBudget header body with ⟨assembler, budget, _ | message⟩
  · exact ⟨l.mStats, by simp [acceptInOrder, h, ha, setStream, received]⟩
  · simp only [acceptInOrder, h, ha, setStream, deliver]
    exact ⟨_, rfl⟩

lemma startsFragmentedMessage_of_refused (h : MessageAssembler.hasRoomFor l.mBudget header = false) :
    header.startsFragmentedMessage = true := by
  unfold MessageAssembler.hasRoomFor at h
  split at h
  · simp at h
  · simp only [Bool.or_eq_false_iff, Bool.not_eq_false'] at h
    exact h.1

lemma drainLoop_received (n : ℕ) (h : (l.mStreams lane).isSome) :
    ReceivedVia p lane l (drainLoop lane n l) := by
  induction n generalizing l with
  | zero => exact .refl h
  | succ n ih =>
    unfold drainLoop
    dsimp only
    split
    · exact .refl h
    · next buffered hf =>
      cases hr : MessageAssembler.hasRoomFor l.mBudget buffered.header with
      | false =>
        rw [acceptInOrder_refused hr, setStream_eq_received]
        exact .move (.refuse _ _ buffered.body (.inr hf) (startsFragmentedMessage_of_refused hr)) ..
      | true =>
        obtain ⟨stats, he⟩ := acceptInOrder_taken l lane (l.streamFor lane) buffered.body hr
        rw [he]
        simp only [streamFor_received_self, setStream_received]
        exact (ReceivedVia.move (.drain _ _ buffered.body l.mBudget hf hr) ..).trans (ih (by simp [received]))

lemma drainReorderBuffer_received (h : (l.mStreams lane).isSome) :
    ReceivedVia p lane l (l.drainReorderBuffer lane) :=
  drainLoop_received _ h

lemma ReceivedVia.stats_due {l' : ReliableLink} (h : ReceivedVia p lane l l') (stats : LinkStats)
    (due : Lane → Bool) : ReceivedVia p lane l { l' with mStats := stats, mAckDue := due } := by
  obtain ⟨s, ms, budget, _, _, hr, rfl⟩ := h
  exact ⟨s, ms, budget, stats, due, hr, rfl⟩

lemma retryRefused_received (h : (l.mStreams lane).isSome) : ReceivedVia p lane l (l.retryRefused lane) := by
  unfold retryRefused
  dsimp only
  split
  · exact .refl h
  · rw [setStream_eq_received]
    have hm := ReceivedVia.move (p := p) (RecvMove.retry (l.streamFor lane)) l.mBudget l.mStats l.mAckDue
    exact (hm.trans (drainReorderBuffer_received hm.isSome)).stats_due ..

lemma handleData_received (hl : lane ≠ .media) (hp : p header body) :
    ReceivedVia p lane l (l.handleData lane header body) := by
  unfold handleData
  dsimp only
  rw [checkIndex_of_ne_media l lane hl]
  have hs : ReceivedVia p lane l (l.setStream lane (l.streamFor lane)) := .start l
  have h₀ := hs.trans (retryRefused_received hs.isSome)
  generalize (l.setStream lane (l.streamFor lane)).retryRefused lane = l₀ at h₀ ⊢
  refine .trans h₀ ?_
  have hi := h₀.isSome
  split
  · exact (ReceivedVia.refl hi).stats_due ..
  next hw =>
  split
  · exact (ReceivedVia.refl hi).stats_due ..
  next hc =>
  obtain ⟨hlo, hn⟩ := not_or.mp hc
  have hn : (l₀.streamFor lane).reorder.find header.seq = none := by
    simpa [SequenceBuffer.contains] using hn
  split
  · next hne =>
    rw [setStream_eq_received]
    exact .move (.buffer _ _ body hp (by omega) (by omega) hn) ..
  · next hseq =>
    rw [not_not] at hseq
    cases hr : MessageAssembler.hasRoomFor l₀.mBudget header with
    | false =>
      rw [acceptInOrder_refused (l := l₀.dueAck lane) hr, setStream_eq_received]
      exact .move (.refuse _ header body (.inl ⟨hp, hseq, hseq ▸ hn⟩)
        (startsFragmentedMessage_of_refused hr)) ..
    | true =>
      obtain ⟨stats, he⟩ := acceptInOrder_taken (l₀.dueAck lane) lane (l₀.streamFor lane) body hr
      rw [he]
      simp only [streamFor_received_self, setStream_received]
      have hm := ReceivedVia.move (l := l₀)
        (.accept (p := p) _ header body l₀.mBudget hp hseq (hseq ▸ hn) hr)
        ((l₀.streamFor lane).assembler.accept l₀.mBudget header body).2.1 stats (l₀.dueAck lane).mAckDue
      exact hm.trans (drainReorderBuffer_received hm.isSome)

end ReliableLink

end NetLink.Channel
