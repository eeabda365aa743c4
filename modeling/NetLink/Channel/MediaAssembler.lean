import NetLink.Channel.MessageAssembler

/-! Puts the fragments of unacknowledged messages together: they arrive in any order, and some never. -/

namespace NetLink.Channel

namespace MediaAssembler

structure Slot where
  used : Bool := false
  id : ℕ := 0
  count : ℕ := 0
  received : ℕ := 0
  present : ℕ := 0
  tag : UInt32 := 0
  totalLength : ℕ := 0
  lastLength : ℕ := 0
  body : List UInt8 := []
  deriving DecidableEq, Repr

end MediaAssembler

structure MediaAssembler where
  mSlots : List MediaAssembler.Slot := List.replicate MediaAssemblySlots {}
  mAbandoned : ℕ := 0
  deriving DecidableEq, Repr

namespace MediaAssembler

inductive Scan
  | found (i : ℕ)
  | missing (free oldest : Option ℕ)
  deriving DecidableEq, Repr

def scan (slots : List Slot) (id : ℕ) : List ℕ → Option ℕ → Option ℕ → Scan
  | [], free, oldest => .missing free oldest
  | i :: rest, free, oldest =>
    let slot := slots.getD i {}
    if slot.used && slot.id == id then .found i
    else if !slot.used then scan slots id rest (some i) oldest
    else
      match oldest with
      | none => scan slots id rest free (some i)
      | some o =>
        scan slots id rest free (if slot.id < (slots.getD o {}).id then some i else some o)

def resize (body : List UInt8) (n : ℕ) : List UInt8 := body.take n ++ List.replicate (n - body.length) 0

def claim (slots : List Slot) (i id count : ℕ) : List Slot :=
  let slot := slots.getD i {}
  slots.set i { slot with
    used := true
    id := id
    count := count
    body := resize slot.body (count * MaxFragmentBody) }

def slotFor (m : MediaAssembler) (id count : ℕ) : Option ℕ × MediaAssembler :=
  match scan m.mSlots id (List.range m.mSlots.length) none none with
  | .found i => (some i, m)
  | .missing (some i) _ => (some i, { m with mSlots := claim m.mSlots i id count })
  | .missing none none => (none, m)
  | .missing none (some o) =>
    if id < (m.mSlots.getD o {}).id then (none, m)
    else
      (some o, { mSlots := claim (m.mSlots.set o {}) o id count, mAbandoned := m.mAbandoned + 1 })

def overwrite (target : List UInt8) (offset : ℕ) (source : List UInt8) : List UInt8 :=
  target.take offset ++ source ++ target.drop (offset + source.length)

def store (slot : Slot) (header : PacketHeader) (body : List UInt8) : Slot :=
  let slot := { slot with
    body := overwrite slot.body (header.fragIndex * MaxFragmentBody) body
    present := slot.present ||| (1 <<< header.fragIndex)
    received := slot.received + 1 }
  let slot := if header.fragIndex = 0 then
    { slot with tag := header.tag, totalLength := header.totalLength } else slot
  if header.flags.isLastFragment then { slot with lastLength := body.length } else slot

def accept (m : MediaAssembler) (header : PacketHeader) (body : List UInt8) :
    MediaAssembler × Option AssembledMessage :=
  if !header.flags.isFragmented then (m, some ⟨header.tag, body⟩)
  else if header.fragCount > 64 ∨ header.seq ≤ header.fragIndex then (m, none)
  else if (if header.flags.isLastFragment then body.isEmpty || body.length > MaxFragmentBody
      else body.length != MaxFragmentBody) then (m, none)
  else
    match m.slotFor (header.seq - header.fragIndex) header.fragCount with
    | (none, m) => (m, none)
    | (some i, m) =>
      let slot := m.mSlots.getD i {}
      if slot.count ≠ header.fragCount ∨ slot.present.testBit header.fragIndex then (m, none)
      else
        let slot := store slot header body
        if slot.received < slot.count then ({ m with mSlots := m.mSlots.set i slot }, none)
        else
          let length := (slot.count - 1) * MaxFragmentBody + slot.lastLength
          let m := { m with mSlots := m.mSlots.set i {} }
          if length ≠ slot.totalLength then (m, none)
          -- `resize` never grows the body here: it holds `count` full fragments
          else (m, some ⟨slot.tag, slot.body.take length⟩)

end MediaAssembler

end NetLink.Channel
