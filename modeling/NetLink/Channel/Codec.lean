import Mathlib.Tactic.Linarith
import NetLink.Channel.Wire

/-! What is read back from what was written. -/

namespace NetLink.Channel

variable (d rest : List UInt8) (value : ℕ)

section Shift

variable (start : List UInt8) (k : ℕ)

lemma byteAt_append : byteAt (start ++ d) (start.length + k) = byteAt d k := by
  simp [byteAt, List.getElem?_append_right]

lemma readUint16_append : readUint16 (start ++ d) (start.length + k) = readUint16 d k := by
  rw [readUint16, byteAt_append, Nat.add_assoc, byteAt_append, readUint16]

lemma readUint32_append : readUint32 (start ++ d) (start.length + k) = readUint32 d k := by
  rw [readUint32, readUint16_append, Nat.add_assoc, readUint16_append, readUint32]

lemma readUint64_append : readUint64 (start ++ d) (start.length + k) = readUint64 d k := by
  rw [readUint64, readUint32_append, Nat.add_assoc, readUint32_append, readUint64]

end Shift

lemma readUint16_writeUint16 : readUint16 (writeUint16 value ++ rest) 0 = value % 2 ^ 16 := by
  have h₀ : byteAt (writeUint16 value ++ rest) 0 = UInt8.ofNat (value >>> 8) := rfl
  have h₁ : byteAt (writeUint16 value ++ rest) 1 = UInt8.ofNat value := rfl
  rw [readUint16, h₀, h₁, UInt8.toNat_ofNat', UInt8.toNat_ofNat', Nat.shiftRight_eq_div_pow]
  omega

lemma readUint32_writeUint32 : readUint32 (writeUint32 value ++ rest) 0 = value % 2 ^ 32 := by
  have h₀ : readUint16 (writeUint32 value ++ rest) 0 = (value >>> 16) % 2 ^ 16 := by
    have hw : writeUint32 value ++ rest = writeUint16 (value >>> 16) ++ (writeUint16 value ++ rest) := by
      simp [writeUint32, writeUint16, ← Nat.shiftRight_add]
    rw [hw, readUint16_writeUint16]
  have h₂ : readUint16 (writeUint32 value ++ rest) 2 = value % 2 ^ 16 := readUint16_writeUint16 rest value
  rw [readUint32, h₀, h₂, Nat.shiftRight_eq_div_pow]
  omega

lemma readUint64_writeUint64 : readUint64 (writeUint64 value ++ rest) 0 = value % 2 ^ 64 := by
  have h₀ : readUint32 (writeUint64 value ++ rest) 0 = (value >>> 32) % 2 ^ 32 := by
    rw [writeUint64, List.append_assoc, readUint32_writeUint32]
  have h₄ : readUint32 (writeUint64 value ++ rest) 4 = value % 2 ^ 32 := readUint32_writeUint32 rest value
  rw [readUint64, h₀, h₄, Nat.shiftRight_eq_div_pow]
  omega

def extensions (h : PacketHeader) : List UInt8 :=
  (if h.flags.isFragmented then writeUint16 h.fragIndex ++ writeUint16 h.fragCount else []) ++
    ((if h.startsMessage then writeUint32 h.tag.toNat else []) ++
    (if h.startsFragmentedMessage then writeUint32 h.totalLength else []))

lemma encodePacket_eq (h : PacketHeader) (body : List UInt8) : encodePacket h body =
    writeUint16 ProtocolMagic ++ [ProtocolVersion, h.flags.mBits] ++ (writeUint32 h.srcStreamID.toNat ++
      (writeUint32 h.dstStreamID.toNat ++ (writeUint64 h.seq ++ (extensions h ++ body)))) := by
  simp only [encodePacket, encodeHeader, extensions, List.append_assoc]

def PacketHeader.base (h : PacketHeader) : PacketHeader where
  flags := h.flags
  srcStreamID := h.srcStreamID
  dstStreamID := h.dstStreamID
  seq := h.seq % 2 ^ 64

section Base

variable (h : PacketHeader) (body : List UInt8)

lemma readUint32_source : readUint32 (encodePacket h body) 4 = h.srcStreamID.toNat := by
  have hs := readUint32_append (writeUint32 h.srcStreamID.toNat ++ (writeUint32 h.dstStreamID.toNat ++
    (writeUint64 h.seq ++ (extensions h ++ body))))
      (writeUint16 ProtocolMagic ++ [ProtocolVersion, h.flags.mBits]) 0
  rw [← encodePacket_eq, readUint32_writeUint32, Nat.mod_eq_of_lt h.srcStreamID.toNat_lt] at hs
  exact hs

lemma readUint32_destination : readUint32 (encodePacket h body) 8 = h.dstStreamID.toNat := by
  have hs := readUint32_append (writeUint32 h.srcStreamID.toNat ++ (writeUint32 h.dstStreamID.toNat ++
    (writeUint64 h.seq ++ (extensions h ++ body))))
      (writeUint16 ProtocolMagic ++ [ProtocolVersion, h.flags.mBits]) 4
  have ht := readUint32_append (writeUint32 h.dstStreamID.toNat ++ (writeUint64 h.seq ++ (extensions h ++ body)))
    (writeUint32 h.srcStreamID.toNat) 0
  rw [← encodePacket_eq] at hs
  rw [readUint32_writeUint32, Nat.mod_eq_of_lt h.dstStreamID.toNat_lt] at ht
  exact hs.trans ht

lemma readUint64_seq : readUint64 (encodePacket h body) 12 = h.seq % 2 ^ 64 := by
  have hs := readUint64_append (writeUint32 h.srcStreamID.toNat ++ (writeUint32 h.dstStreamID.toNat ++
    (writeUint64 h.seq ++ (extensions h ++ body))))
      (writeUint16 ProtocolMagic ++ [ProtocolVersion, h.flags.mBits]) 8
  have ht := readUint64_append (writeUint64 h.seq ++ (extensions h ++ body))
    (writeUint32 h.srcStreamID.toNat ++ writeUint32 h.dstStreamID.toNat) 0
  rw [← encodePacket_eq] at hs
  rw [readUint64_writeUint64, List.append_assoc] at ht
  exact hs.trans ht

end Base

end NetLink.Channel
