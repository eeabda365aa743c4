import NetLink.Channel.Packet

/-! Puts the fragments of one stream together again, within a budget shared by many streams. -/

namespace NetLink.Channel

structure AssembledMessage where
  tag : UInt32
  body : List UInt8
  deriving DecidableEq, Repr

structure AssemblyBudget where
  mLimit : ℕ := AssemblyBudgetBytes
  mUsed : ℕ := 0
  underflow : Bool := false
  deriving DecidableEq, Repr

namespace AssemblyBudget

def fits (b : AssemblyBudget) (bytes : ℕ) : Bool := bytes ≤ b.mLimit - b.mUsed

def reserve (b : AssemblyBudget) (bytes : ℕ) : Bool × AssemblyBudget :=
  if b.fits bytes then (true, { b with mUsed := b.mUsed + bytes }) else (false, b)

def release (b : AssemblyBudget) (bytes : ℕ) : AssemblyBudget :=
  { b with mUsed := b.mUsed - bytes, underflow := b.underflow || b.mUsed < bytes }

end AssemblyBudget

structure MessageAssembler where
  mAssembling : Bool := false
  mFragCount : ℕ := 0
  mNextIndex : ℕ := 0
  mTag : UInt32 := 0
  mTotalLength : ℕ := 0
  mBody : List UInt8 := []
  deriving DecidableEq, Repr

namespace MessageAssembler

def hasRoomFor (budget : Option AssemblyBudget) (header : PacketHeader) : Bool :=
  match budget with
  | none => true
  | some b => !header.startsFragmentedMessage || b.fits header.totalLength

def released (a : MessageAssembler) (budget : Option AssemblyBudget) : Option AssemblyBudget :=
  if a.mAssembling then budget.map (·.release a.mTotalLength) else budget

def reserved (budget : Option AssemblyBudget) (bytes : ℕ) : Bool × Option AssemblyBudget :=
  match budget with
  | none => (true, none)
  | some b => ((b.reserve bytes).1, some (b.reserve bytes).2)

def append (a : MessageAssembler) (budget : Option AssemblyBudget) (header : PacketHeader) (body : List UInt8) :
    MessageAssembler × Option AssemblyBudget × Option AssembledMessage :=
  if !a.mAssembling || header.fragCount != a.mFragCount || header.fragIndex != a.mNextIndex then
    ({}, a.released budget, none)
  else
    let expected := if header.flags.isLastFragment then a.mTotalLength - a.mBody.length else MaxFragmentBody
    if body.length != expected then
      ({}, a.released budget, none)
    else
      let next := { a with mBody := a.mBody ++ body, mNextIndex := a.mNextIndex + 1 }
      if next.mNextIndex < next.mFragCount then (next, budget, none)
      else ({}, a.released budget, some ⟨a.mTag, next.mBody⟩)

def accept (a : MessageAssembler) (budget : Option AssemblyBudget) (header : PacketHeader) (body : List UInt8) :
    MessageAssembler × Option AssemblyBudget × Option AssembledMessage :=
  if !header.flags.isFragmented then
    ({}, a.released budget, some ⟨header.tag, body⟩)
  else if header.fragIndex = 0 then
    if header.totalLength > MaxMessagePayload ∨ fragmentsOf header.totalLength ≠ header.fragCount then
      ({}, a.released budget, none)
    else
      match reserved (a.released budget) header.totalLength with
      | (false, budget) => ({}, budget, none)
      | (true, budget) =>
        append { mAssembling := true, mFragCount := header.fragCount, mNextIndex := 0,
                 mTag := header.tag, mTotalLength := header.totalLength, mBody := [] } budget header body
  else append a budget header body

end MessageAssembler

end NetLink.Channel
