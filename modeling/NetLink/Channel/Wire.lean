import NetLink.Channel.AckRanges

/-! The binary encoding of packets and Ack bodies, in network byte order. -/

namespace NetLink.Channel

def ProtocolMagic : ℕ := 0x4E4C
def ProtocolVersion : UInt8 := 3

def writeUint16 (value : ℕ) : List UInt8 := [UInt8.ofNat (value >>> 8), UInt8.ofNat value]

def writeUint32 (value : ℕ) : List UInt8 :=
  [UInt8.ofNat (value >>> 24), UInt8.ofNat (value >>> 16), UInt8.ofNat (value >>> 8), UInt8.ofNat value]

def writeUint64 (value : ℕ) : List UInt8 := writeUint32 (value >>> 32) ++ writeUint32 value

def byteAt (d : List UInt8) (offset : ℕ) : UInt8 := d.getD offset 0

def readUint16 (d : List UInt8) (offset : ℕ) : ℕ :=
  (byteAt d offset).toNat * 2 ^ 8 + (byteAt d (offset + 1)).toNat

def readUint32 (d : List UInt8) (offset : ℕ) : ℕ :=
  readUint16 d offset * 2 ^ 16 + readUint16 d (offset + 2)

def readUint64 (d : List UInt8) (offset : ℕ) : ℕ :=
  readUint32 d offset * 2 ^ 32 + readUint32 d (offset + 4)

def encodeHeader (h : PacketHeader) : List UInt8 :=
  writeUint16 ProtocolMagic ++ [ProtocolVersion, h.flags.mBits] ++ writeUint32 h.srcStreamID.toNat ++
    writeUint32 h.dstStreamID.toNat ++ writeUint64 h.seq ++
    (if h.flags.isFragmented then writeUint16 h.fragIndex ++ writeUint16 h.fragCount else []) ++
    (if h.startsMessage then writeUint32 h.tag.toNat else []) ++
    (if h.startsFragmentedMessage then writeUint32 h.totalLength else [])

def encodePacket (h : PacketHeader) (body : List UInt8) : List UInt8 := encodeHeader h ++ body

def encodeRange (r : SeqRange) : List UInt8 := writeUint64 r.first ++ writeUint16 r.count

def encodeAck (ack : AckBody) (maxRanges : ℕ) : List UInt8 :=
  writeUint32 ack.serial ++ writeUint32 ack.mediaReceived ++
    (ack.ranges.take maxRanges).flatMap encodeRange

def decodeRange (d : List UInt8) (offset : ℕ) : Option SeqRange :=
  let range : SeqRange := { first := readUint64 d offset, count := readUint16 d (offset + 8) }
  -- The comparison is the 64-bit one: `last` has wrapped
  if range.count = 0 ∨ range.first = 0 ∨ range.last % 2 ^ 64 < range.first then none else some range

def decodeRanges (d : List UInt8) : ℕ → ℕ → Option (List SeqRange)
  | 0, _ => some []
  | n + 1, offset => do
    let range ← decodeRange d offset
    let rest ← decodeRanges d n (offset + SeqRangeSize)
    return range :: rest

def decodeAck (d : List UInt8) : Option AckBody :=
  if d.length < AckFieldsSize ∨ (d.length - AckFieldsSize) % SeqRangeSize ≠ 0 then none
  else do
    let ranges ← decodeRanges d ((d.length - AckFieldsSize) / SeqRangeSize) AckFieldsSize
    return { serial := readUint32 d 0, mediaReceived := readUint32 d 4, ranges := ranges }

abbrev Reading := PacketHeader × ℕ

def readBase (d : List UInt8) : Option Reading :=
  if d.length < BaseHeaderSize then none
  else if readUint16 d 0 ≠ ProtocolMagic ∨ byteAt d 2 ≠ ProtocolVersion then none
  else
    let header : PacketHeader :=
      { flags := ⟨byteAt d 3⟩
        srcStreamID := UInt32.ofNat (readUint32 d 4)
        dstStreamID := UInt32.ofNat (readUint32 d 8)
        seq := readUint64 d 12 }
    if !header.flags.isValid || header.flags.kind == .beacon then none
    else if header.srcStreamID = 0 ∨ (header.flags.kind = .data ∧ header.seq = 0) then none
    else some (header, BaseHeaderSize)

def readFragment (d : List UInt8) : Reading → Option Reading
  | (header, size) =>
    if !header.flags.isFragmented then some (header, size)
    else if d.length < size + FragmentExtensionSize then none
    else
      let header := { header with fragIndex := readUint16 d size, fragCount := readUint16 d (size + 2) }
      if header.fragCount < 2 ∨ header.fragCount > fragmentsOf (maxMessageSize header.flags.lane) ∨
          header.fragIndex ≥ header.fragCount then none
      else if header.flags.isLastFragment ≠ (header.fragIndex + 1 == header.fragCount) then none
      else some (header, size + FragmentExtensionSize)

def readTag (d : List UInt8) : Reading → Option Reading
  | (header, size) =>
    if !header.startsMessage then some (header, size)
    else if d.length < size + TagExtensionSize then none
    else some ({ header with tag := UInt32.ofNat (readUint32 d size) }, size + TagExtensionSize)

def readLength (d : List UInt8) : Reading → Option Reading
  | (header, size) =>
    if !header.startsFragmentedMessage then some (header, size)
    else if d.length < size + LengthExtensionSize then none
    else
      let header := { header with totalLength := readUint32 d size }
      if header.totalLength > maxMessageSize header.flags.lane ∨
          fragmentsOf header.totalLength ≠ header.fragCount then none
      else some (header, size + LengthExtensionSize)

def decodeHeader (d : List UInt8) : Option (PacketHeader × List UInt8) := do
  let base ← readBase d
  let fragment ← readFragment d base
  let tagged ← readTag d fragment
  let (header, size) ← readLength d tagged
  return (header, d.drop size)

def isBodySizeValid (h : PacketHeader) (size : ℕ) : Bool :=
  match h.flags.kind with
  | .data =>
    if !h.flags.isFragmented then size ≤ MaxFragmentBody
    else if h.flags.isLastFragment then 0 < size && size ≤ MaxFragmentBody
    else size == MaxFragmentBody
  | .ping => size == 0
  | .ack | .beacon => true

def decodePacket (d : List UInt8) : Option Packet :=
  if d.length > MaxDatagramSize then none
  else do
    let (header, body) ← decodeHeader d
    if !isBodySizeValid header body.length then none
    else some { header := header, body := body,
                ack := if header.flags.kind = .ack then decodeAck body else none }

variable {d : List UInt8} {r r' : Reading}

lemma isValid_of_readBase (h : readBase d = some r) : r.1.flags.isValid = true := by
  unfold readBase at h
  dsimp only at h
  split at h
  · simp at h
  split at h
  · simp at h
  split at h
  · simp at h
  next hv =>
  split at h
  · simp at h
  obtain rfl := Option.some.inj h
  simp only [Bool.or_eq_true, Bool.not_eq_true', not_or, Bool.not_eq_false] at hv
  exact hv.1

lemma flags_readFragment (h : readFragment d r = some r') :
    r'.1.flags = r.1.flags := by
  obtain ⟨header, size⟩ := r
  simp only [readFragment] at h
  split at h
  · obtain rfl := Option.some.inj h
    rfl
  split at h
  · simp at h
  split at h
  · simp at h
  split at h
  · simp at h
  obtain rfl := Option.some.inj h
  rfl

lemma flags_readTag (h : readTag d r = some r') : r'.1.flags = r.1.flags := by
  obtain ⟨header, size⟩ := r
  simp only [readTag] at h
  split at h
  · obtain rfl := Option.some.inj h
    rfl
  split at h
  · simp at h
  obtain rfl := Option.some.inj h
  rfl

lemma flags_readLength (h : readLength d r = some r') :
    r'.1.flags = r.1.flags := by
  obtain ⟨header, size⟩ := r
  simp only [readLength] at h
  split at h
  · obtain rfl := Option.some.inj h
    rfl
  split at h
  · simp at h
  split at h
  · simp at h
  obtain rfl := Option.some.inj h
  rfl

lemma isValid_of_decodeHeader {d body : List UInt8} {header : PacketHeader}
    (h : decodeHeader d = some (header, body)) : header.flags.isValid = true := by
  simp only [decodeHeader, Option.bind_eq_bind, Option.bind_eq_some_iff, Option.pure_def, Option.some.injEq,
    Prod.mk.injEq] at h
  obtain ⟨base, hb, fragment, hf, tagged, ht, ⟨header', size⟩, hl, rfl, -⟩ := h
  rw [flags_readLength hl, flags_readTag ht, flags_readFragment hf]
  exact isValid_of_readBase hb

def Packet.Accepted (p : Packet) : Prop := ∃ bytes, decodePacket bytes = some p

lemma Packet.Accepted.isValid {p : Packet} (h : p.Accepted) : p.header.flags.isValid = true := by
  obtain ⟨bytes, h⟩ := h
  unfold decodePacket at h
  split at h
  · simp at h
  · simp only [Option.bind_eq_bind, Option.bind_eq_some_iff] at h
    obtain ⟨⟨header, body⟩, hh, h⟩ := h
    split at h
    · simp at h
    · obtain rfl := Option.some.inj h
      exact isValid_of_decodeHeader hh

def Packet.bytes (p : Packet) : List UInt8 := encodePacket p.header p.body

end NetLink.Channel
