import NetLink.Channel.ReliableLink.Intake

/-! What a link has reserved of the budget it shares: exactly the messages it is putting together. -/

namespace NetLink.Channel

structure AssemblyBudget.Accounts (limit bytes : ℕ) (b : AssemblyBudget) : Prop where
  mLimit : b.mLimit = limit
  mUsed : b.mUsed = bytes
  le : bytes ≤ limit
  sound : b.underflow = false

namespace AssemblyBudget.Accounts

variable {b : AssemblyBudget} {limit rest n : ℕ}

lemma release (h : b.Accounts limit (rest + n)) : (b.release n).Accounts limit rest where
  mLimit := h.mLimit
  mUsed := by simp [AssemblyBudget.release, h.mUsed]
  le := (Nat.le_add_right _ _).trans h.le
  sound := by simp [AssemblyBudget.release, h.mUsed, h.sound]

lemma reserve (h : b.Accounts limit rest) (hf : b.fits n = true) : (b.reserve n).2.Accounts limit (rest + n) := by
  have hle := h.le
  rw [AssemblyBudget.reserve, if_pos hf]
  rw [fits, decide_eq_true_eq, h.mLimit, h.mUsed] at hf
  exact ⟨h.mLimit, congrArg (· + n) h.mUsed, by omega, h.sound⟩

end AssemblyBudget.Accounts

namespace MessageAssembler

def reservation (a : MessageAssembler) : ℕ := if a.mAssembling then a.mTotalLength else 0

def Books (limit rest : ℕ) (budget : Option AssemblyBudget) (a : MessageAssembler) : Prop :=
  ∃ b, budget = some b ∧ b.Accounts limit (rest + a.reservation)

variable {a : MessageAssembler} {limit rest : ℕ} {budget : Option AssemblyBudget} {header : PacketHeader}
  {body : List UInt8}

lemma Books.released (h : Books limit rest budget a) : Books limit rest (a.released budget) {} := by
  obtain ⟨b, rfl, hb⟩ := h
  rw [MessageAssembler.released]
  split
  · next ha =>
    rw [reservation, if_pos ha] at hb
    exact ⟨_, rfl, hb.release⟩
  · next ha =>
    rw [reservation, if_neg ha] at hb
    exact ⟨b, rfl, hb⟩

lemma Books.append (h : Books limit rest budget a) :
    Books limit rest (a.append budget header body).2.1 (a.append budget header body).1 := by
  rw [MessageAssembler.append]
  by_cases hm : (!a.mAssembling || header.fragCount != a.mFragCount || header.fragIndex != a.mNextIndex) = true
  · rw [if_pos hm]
    exact h.released
  rw [if_neg hm]
  dsimp only
  generalize (if header.flags.isLastFragment then a.mTotalLength - a.mBody.length else MaxFragmentBody) = expected
  split
  · exact h.released
  split
  · exact h
  · exact h.released

lemma Books.accept (h : Books limit rest budget a) :
    Books limit rest (a.accept budget header body).2.1 (a.accept budget header body).1 := by
  rw [MessageAssembler.accept]
  split
  · exact h.released
  split
  · split
    · exact h.released
    · obtain ⟨b, hb, haccounts⟩ := h.released
      rw [hb, reserved]
      cases hf : b.fits header.totalLength with
      | true =>
        have hr : (b.reserve header.totalLength).1 = true := by rw [AssemblyBudget.reserve, if_pos hf]
        rw [hr]
        exact Books.append ⟨_, rfl, haccounts.reserve hf⟩
      | false =>
        have hr : b.reserve header.totalLength = (false, b) := by simp [AssemblyBudget.reserve, hf]
        rw [hr]
        exact ⟨b, rfl, haccounts⟩
  · exact h.append

end MessageAssembler

namespace ReliableLink

namespace Intake

def reserved (i : Intake) : ℕ := (StreamLanes.map fun lane => (i.lanes lane).assembler.reservation).sum

def others (i : Intake) (lane : Lane) : ℕ :=
  (StreamLanes.map fun other => if other = lane then 0 else (i.lanes other).assembler.reservation).sum

def Books (limit rest : ℕ) (i : Intake) : Prop := ∃ b, i.budget = some b ∧ b.Accounts limit (rest + i.reserved)

variable {i i' : Intake} {lane : Lane} {limit rest : ℕ}

lemma reserved_eq (hl : lane ≠ .media) : i.reserved = i.others lane + (i.lanes lane).assembler.reservation := by
  cases lane <;> simp [reserved, others, StreamLanes] at hl ⊢ <;> omega

lemma others_congr (h : ∀ other, other ≠ lane → i'.lanes other = i.lanes other) :
    i'.others lane = i.others lane := by
  rw [others, others]
  congr 2
  funext other
  split
  · rfl
  · next ho => rw [h other ho]

lemma books_iff (hl : lane ≠ .media) : i.Books limit rest ↔
    MessageAssembler.Books limit (rest + i.others lane) i.budget (i.lanes lane).assembler := by
  rw [Books, reserved_eq hl, MessageAssembler.Books]
  simp only [Nat.add_assoc]

end Intake

variable {l : ReliableLink} {lane : Lane} {limit rest : ℕ}

lemma upheld_books : Upheld (fun _ _ => True) (fun s b => MessageAssembler.Books limit rest b s.assembler)
    (fun s b => MessageAssembler.Books limit rest b s.assembler)
    (fun s b => MessageAssembler.Books limit rest b s.assembler) where
  waits _ _ h _ := h
  reopens _ _ h _ := h
  drains _ _ _ h _ _ := h.accept
  stops _ _ h := h
  refuses _ _ _ h _ _ := h
  rests _ _ h := h
  buffers _ _ _ _ h _ _ _ _ := h
  rejects _ _ _ _ h _ _ _ := h
  accepts _ _ _ _ h _ _ _ := h.accept

lemma Books.of_received {p : PacketHeader → List UInt8 → Prop} {l' : ReliableLink} (hl : lane ≠ .media)
    (hv : ReceivedVia p lane l l')
    (hb : ∀ rest, l.Receives (fun s b => MessageAssembler.Books limit rest b s.assembler) lane →
      l'.Receives (fun s b => MessageAssembler.Books limit rest b s.assembler) lane)
    (h : l.intake.Books limit rest) : l'.intake.Books limit rest := by
  rw [Intake.books_iff hl] at h ⊢
  rw [Intake.others_congr fun other ho => hv.intake_lanes ho]
  exact hb _ h

lemma handleData_books (hl : lane ≠ .media) (header : PacketHeader) (body : List UInt8)
    (h : l.intake.Books limit rest) : (l.handleData lane header body).intake.Books limit rest :=
  Books.of_received hl (handleData_received (p := fun _ _ => True) hl trivial)
    (fun _ => handleData_receives hl upheld_books trivial) h

lemma retryRefused_books (hl : lane ≠ .media) (hs : (l.mStreams lane).isSome) (h : l.intake.Books limit rest) :
    (l.retryRefused lane).intake.Books limit rest :=
  Books.of_received hl (retryRefused_received (p := fun _ _ => True) hs)
    (fun _ => retryRefused_receives upheld_books) h

lemma foldl_books {f : Option AssemblyBudget → Lane → Option AssemblyBudget} {held : Lane → ℕ}
    (hf : ∀ b lane rest, b.Accounts limit (rest + held lane) → ∃ b', f (some b) lane = some b' ∧
      b'.Accounts limit rest)
    (lanes : List Lane) (b : AssemblyBudget) (hb : b.Accounts limit (rest + (lanes.map held).sum)) :
    ∃ b', lanes.foldl f (some b) = some b' ∧ b'.Accounts limit rest := by
  induction lanes generalizing b with
  | nil => exact ⟨b, rfl, hb⟩
  | cons lane lanes ih =>
    rw [List.map_cons, List.sum_cons, Nat.add_comm (held lane), ← Nat.add_assoc] at hb
    obtain ⟨b', he, hb'⟩ := hf b lane _ hb
    rw [List.foldl_cons, he]
    exact ih b' hb'

lemma releasedBudget_books (h : l.intake.Books limit rest) :
    ∃ b, l.releasedBudget = some b ∧ b.Accounts limit rest := by
  obtain ⟨b, hb, haccounts⟩ := h
  have hb : l.mBudget = some b := hb
  rw [releasedBudget, hb]
  refine foldl_books (fun b lane rest hb => ?_) StreamLanes b haccounts
  split
  · next hs =>
    have hnone : (l.streamFor lane).assembler = {} := by
      rw [streamFor, hs]
      rfl
    have hzero : (l.intake.lanes lane).assembler.reservation = 0 := congrArg MessageAssembler.reservation hnone
    rw [hzero] at hb
    exact ⟨b, rfl, hb⟩
  · next s hs =>
    have hi : (l.intake.lanes lane).assembler = s.assembler :=
      congrArg Stream.assembler (streamFor_of_some l lane s hs)
    rw [hi] at hb
    have hr := MessageAssembler.Books.released (a := s.assembler) ⟨b, rfl, hb⟩
    exact hr

lemma fail_books (h : l.intake.Books limit rest) : l.fail.intake.Books limit rest := releasedBudget_books h

end ReliableLink

lemma Host.books_call {source : Lane → OutboundMessage → Prop} {incoming : Packet → Prop} {h : Host}
    {c : Host.Call} {limit rest : ℕ} (hc : h.Allows source incoming c) (hb : h.link.intake.Books limit rest) :
    (h.call c).link.intake.Books limit rest :=
  intake_call (fun _ packet _ _ hl => ReliableLink.handleData_books hl packet.header packet.body)
    (fun _ _ => ReliableLink.retryRefused_books) (fun _ => ReliableLink.fail_books) hc hb

end NetLink.Channel
