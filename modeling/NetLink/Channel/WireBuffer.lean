import NetLink.Channel.Wire
import NetLink.Net.Address

/-! The fields of a binary message, one after another in network byte order. A writer is the list of the
bytes written so far. -/

namespace NetLink.Channel

open Net (Text)

def writeText (value : Text) : List UInt8 :=
  let size := min value.length 255
  UInt8.ofNat size :: value.take size

lemma length_writeText_le (value : Text) : (writeText value).length ≤ 256 := by
  simp only [writeText, List.length_cons, List.length_take]
  omega

structure WireReader where
  mBytes : List UInt8
  mFailed : Bool := false
  deriving DecidableEq, Repr

namespace WireReader

-- Every read fails once one read went past the end
def next (r : WireReader) (size : ℕ) : List UInt8 × WireReader :=
  if r.mFailed || r.mBytes.length < size then ([], { r with mFailed := true })
  else (r.mBytes.take size, { r with mBytes := r.mBytes.drop size })

def u8 (r : WireReader) : UInt8 × WireReader :=
  let (field, r) := r.next 1
  (field.headD 0, r)

def u16 (r : WireReader) : ℕ × WireReader :=
  let (field, r) := r.next 2
  (if field.isEmpty then 0 else readUint16 field 0, r)

def u64 (r : WireReader) : ℕ × WireReader :=
  let (field, r) := r.next 8
  (if field.isEmpty then 0 else readUint64 field 0, r)

def text (r : WireReader) : Text × WireReader :=
  let (size, r) := r.u8
  r.next size.toNat

def complete (r : WireReader) : Bool := !r.mFailed && r.mBytes.isEmpty

end WireReader

end NetLink.Channel
