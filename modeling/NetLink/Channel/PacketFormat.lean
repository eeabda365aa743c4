import NetLink.Channel.Codec

/-! The packet format: what is accepted is written back byte for byte, what is well formed is accepted, and nothing
is read behind the end. -/

namespace NetLink.Channel

section Fields

variable {d : List UInt8} {k : ℕ}

lemma drop_eq_byteAt (hk : k < d.length) : d.drop k = byteAt d k :: d.drop (k + 1) := by
  rw [List.drop_eq_getElem_cons hk]
  simp [byteAt, hk]

lemma writeUint16_readUint16 (hk : k + 2 ≤ d.length) :
    writeUint16 (readUint16 d k) ++ d.drop (k + 2) = d.drop k := by
  have h₀ := (byteAt d k).toNat_lt
  have h₁ := (byteAt d (k + 1)).toNat_lt
  rw [drop_eq_byteAt (show k < d.length by omega), drop_eq_byteAt (show k + 1 < d.length by omega), writeUint16,
    readUint16]
  have hhigh : UInt8.ofNat (((byteAt d k).toNat * 2 ^ 8 + (byteAt d (k + 1)).toNat) >>> 8) = byteAt d k := by
    rw [Nat.shiftRight_eq_div_pow, show ((byteAt d k).toNat * 2 ^ 8 + (byteAt d (k + 1)).toNat) / 2 ^ 8 =
      (byteAt d k).toNat by omega,
      UInt8.ofNat_toNat]
  have hlow : UInt8.ofNat ((byteAt d k).toNat * 2 ^ 8 + (byteAt d (k + 1)).toNat) = byteAt d (k + 1) := by
    apply UInt8.toNat_inj.mp
    rw [UInt8.toNat_ofNat']
    omega
  rw [hhigh, hlow]
  rfl

lemma readUint16_lt (d : List UInt8) (k : ℕ) : readUint16 d k < 2 ^ 16 := by
  have h₀ := (byteAt d k).toNat_lt
  have h₁ := (byteAt d (k + 1)).toNat_lt
  rw [readUint16]
  omega

lemma readUint32_lt (d : List UInt8) (k : ℕ) : readUint32 d k < 2 ^ 32 := by
  have h₀ := readUint16_lt d k
  have h₁ := readUint16_lt d (k + 2)
  rw [readUint32]
  omega

lemma readUint64_lt (d : List UInt8) (k : ℕ) : readUint64 d k < 2 ^ 64 := by
  have h₀ := readUint32_lt d k
  have h₁ := readUint32_lt d (k + 4)
  rw [readUint64]
  omega

lemma writeUint16_add (a b : ℕ) : writeUint16 (a * 2 ^ 16 + b) = writeUint16 b := by
  have hmod : ∀ x y : ℕ, x % 2 ^ 8 = y % 2 ^ 8 → UInt8.ofNat x = UInt8.ofNat y := fun x y h => by
    apply UInt8.toNat_inj.mp
    rw [UInt8.toNat_ofNat', UInt8.toNat_ofNat']
    exact h
  rw [writeUint16, writeUint16, Nat.shiftRight_eq_div_pow, Nat.shiftRight_eq_div_pow,
    hmod ((a * 2 ^ 16 + b) / 2 ^ 8) (b / 2 ^ 8) (by omega),
    hmod (a * 2 ^ 16 + b) b (by omega)]

lemma writeUint32_eq (value : ℕ) : writeUint32 value = writeUint16 (value >>> 16) ++ writeUint16 value := by
  simp [writeUint32, writeUint16, ← Nat.shiftRight_add]

lemma writeUint32_readUint32 (hk : k + 4 ≤ d.length) :
    writeUint32 (readUint32 d k) ++ d.drop (k + 4) = d.drop k := by
  have h₁ := readUint16_lt d (k + 2)
  rw [writeUint32_eq, readUint32, writeUint16_add, Nat.shiftRight_eq_div_pow,
    show (readUint16 d k * 2 ^ 16 + readUint16 d (k + 2)) / 2 ^ 16 = readUint16 d k by omega, List.append_assoc,
    writeUint16_readUint16 (show k + 2 + 2 ≤ d.length by omega), writeUint16_readUint16 (by omega)]

lemma writeUint32_add (a b : ℕ) : writeUint32 (a * 2 ^ 32 + b) = writeUint32 b := by
  rw [writeUint32_eq, writeUint32_eq, Nat.shiftRight_eq_div_pow, Nat.shiftRight_eq_div_pow,
    show (a * 2 ^ 32 + b) / 2 ^ 16 = a * 2 ^ 16 + b / 2 ^ 16 by omega, writeUint16_add,
    show a * 2 ^ 32 + b = (a * 2 ^ 16) * 2 ^ 16 + b by omega, writeUint16_add]

lemma writeUint64_readUint64 (hk : k + 8 ≤ d.length) :
    writeUint64 (readUint64 d k) ++ d.drop (k + 8) = d.drop k := by
  have h₁ := readUint32_lt d (k + 4)
  rw [writeUint64, readUint64, writeUint32_add, Nat.shiftRight_eq_div_pow,
    show (readUint32 d k * 2 ^ 32 + readUint32 d (k + 4)) / 2 ^ 32 = readUint32 d k by omega, List.append_assoc,
    writeUint32_readUint32 (show k + 4 + 4 ≤ d.length by omega), writeUint32_readUint32 (by omega)]

end Fields

namespace PacketHeader

def baseBytes (h : PacketHeader) : List UInt8 :=
  writeUint16 ProtocolMagic ++ [ProtocolVersion, h.flags.mBits] ++
    (writeUint32 h.srcStreamID.toNat ++ (writeUint32 h.dstStreamID.toNat ++ writeUint64 h.seq))

def fragmentBytes (h : PacketHeader) : List UInt8 :=
  if h.flags.isFragmented then writeUint16 h.fragIndex ++ writeUint16 h.fragCount else []

def tagBytes (h : PacketHeader) : List UInt8 := if h.startsMessage then writeUint32 h.tag.toNat else []

def lengthBytes (h : PacketHeader) : List UInt8 :=
  if h.startsFragmentedMessage then writeUint32 h.totalLength else []

lemma length_baseBytes (h : PacketHeader) : h.baseBytes.length = BaseHeaderSize := rfl

lemma length_fragmentBytes (h : PacketHeader) :
    h.fragmentBytes.length = if h.flags.isFragmented then FragmentExtensionSize else 0 := by
  rw [fragmentBytes]
  split <;> rfl

lemma length_tagBytes (h : PacketHeader) :
    h.tagBytes.length = if h.startsMessage then TagExtensionSize else 0 := by
  rw [tagBytes]
  split <;> rfl

lemma length_lengthBytes (h : PacketHeader) :
    h.lengthBytes.length = if h.startsFragmentedMessage then LengthExtensionSize else 0 := by
  rw [lengthBytes]
  split <;> rfl

structure Consistent (h : PacketHeader) : Prop where
  flags : h.flags.isValid = true
  source : h.srcStreamID ≠ 0
  seq : h.flags.kind = .data → 1 ≤ h.seq
  fragments : h.flags.isFragmented = true → h.fragIndex < h.fragCount ∧
    h.fragCount ≤ fragmentsOf (maxMessageSize h.flags.lane) ∧
      h.flags.isLastFragment = (h.fragIndex + 1 == h.fragCount)
  length : h.startsFragmentedMessage = true → h.totalLength ≤ maxMessageSize h.flags.lane ∧
    fragmentsOf h.totalLength = h.fragCount

structure WellFormed (h : PacketHeader) : Prop extends Consistent h where
  kind : h.flags.kind ≠ .beacon
  several : h.flags.isFragmented = true → 2 ≤ h.fragCount

end PacketHeader

lemma encodeHeader_eq (h : PacketHeader) :
    encodeHeader h = h.baseBytes ++ (h.fragmentBytes ++ (h.tagBytes ++ h.lengthBytes)) := by
  simp only [encodeHeader, PacketHeader.baseBytes, PacketHeader.fragmentBytes, PacketHeader.tagBytes,
    PacketHeader.lengthBytes, List.append_assoc]

lemma length_encodeHeader (h : PacketHeader) : (encodeHeader h).length = h.encodedSize := by
  rw [encodeHeader_eq, List.length_append, List.length_append, List.length_append, h.length_baseBytes,
    h.length_fragmentBytes, h.length_tagBytes, h.length_lengthBytes, PacketHeader.encodedSize, ← Nat.add_assoc,
    ← Nat.add_assoc]

section Decoding

variable {d : List UInt8} {header header' : PacketHeader} {size size' : ℕ}

lemma readBase_spec (h : readBase d = some (header, size)) : size = BaseHeaderSize ∧ size ≤ d.length ∧
    header.baseBytes ++ d.drop size = d ∧ header = header.base ∧ header.flags.isValid = true ∧
    header.flags.kind ≠ .beacon ∧ header.srcStreamID ≠ 0 ∧ (header.flags.kind = .data → 1 ≤ header.seq) := by
  rw [readBase] at h
  split at h
  · cases h
  next hlen =>
  split at h
  · cases h
  next hmagic =>
  dsimp only at h
  split at h
  · cases h
  next hflags =>
  split at h
  · cases h
  next hsource =>
  obtain ⟨rfl, rfl⟩ := Prod.mk.inj (Option.some.inj h)
  have hlen : 20 ≤ d.length := not_lt.mp hlen
  rw [not_or, not_not, not_not] at hmagic
  rw [not_or, not_and] at hsource
  simp only [Bool.or_eq_true, Bool.not_eq_true', beq_iff_eq, not_or, Bool.not_eq_false] at hflags
  refine ⟨rfl, hlen, ?_, ?_, hflags.1, hflags.2, hsource.1, fun hk => Nat.one_le_iff_ne_zero.mpr (hsource.2 hk)⟩
  · have hsrc : (UInt32.ofNat (readUint32 d 4)).toNat = readUint32 d 4 :=
      UInt32.toNat_ofNat_of_lt' (readUint32_lt d 4)
    have hdst : (UInt32.ofNat (readUint32 d 8)).toNat = readUint32 d 8 :=
      UInt32.toNat_ofNat_of_lt' (readUint32_lt d 8)
    have hstart : d = writeUint16 (readUint16 d 0) ++ [byteAt d 2, byteAt d 3] ++ d.drop 4 := by
      rw [List.append_assoc, List.cons_append, List.cons_append, List.nil_append,
        ← drop_eq_byteAt (k := 3) (by omega),
        ← drop_eq_byteAt (k := 2) (by omega), writeUint16_readUint16 (by omega), List.drop_zero]
    rw [PacketHeader.baseBytes]
    dsimp only
    have hfields : writeUint32
      (readUint32 d 4) ++ (writeUint32 (readUint32 d 8) ++ (writeUint64 (readUint64 d 12) ++
        d.drop BaseHeaderSize)) = d.drop 4 := by
      have hseq : writeUint64 (readUint64 d 12) ++ d.drop BaseHeaderSize = d.drop (8 + 4) :=
        writeUint64_readUint64 (k := 12) hlen
      rw [hseq, writeUint32_readUint32 (k := 8) (by omega)]
      exact writeUint32_readUint32 (k := 4) (by omega)
    rw [hsrc, hdst, List.append_assoc, List.append_assoc, List.append_assoc, List.append_assoc,
      hfields, ← hmagic.1,
      ← hmagic.2]
    rw [List.append_assoc] at hstart
    exact hstart.symm
  · rw [PacketHeader.base, Nat.mod_eq_of_lt (readUint64_lt d 12)]

lemma readFragment_spec (h : readFragment d (header, size) = some (header', size')) (hsize : size ≤ d.length) :
    ∃ index count, header' = { header with fragIndex := index, fragCount := count } ∧
      (header.flags.isFragmented = false → index = header.fragIndex ∧ count = header.fragCount) ∧
      (header.flags.isFragmented = true → 2 ≤ count ∧ index < count ∧
        count ≤ fragmentsOf (maxMessageSize header.flags.lane) ∧
          header.flags.isLastFragment = (index + 1 == count)) ∧
      size' ≤ d.length ∧ header'.fragmentBytes ++ d.drop size' = d.drop size := by
  simp only [readFragment] at h
  split at h
  · next hf =>
    rw [Bool.not_eq_true'] at hf
    obtain ⟨rfl, rfl⟩ := Prod.mk.inj (Option.some.inj h)
    refine ⟨header.fragIndex, header.fragCount, rfl, fun _ => ⟨rfl, rfl⟩, fun ht => ?_, hsize, ?_⟩
    · rw [hf] at ht
      cases ht
    · rw [PacketHeader.fragmentBytes, hf]
      rfl
  next hf =>
  rw [Bool.not_eq_true', Bool.not_eq_false] at hf
  split at h
  · cases h
  next hlen =>
  have hlen : size + 4 ≤ d.length := not_lt.mp hlen
  split at h
  · cases h
  next hcount =>
  split at h
  · cases h
  next hlast =>
  obtain ⟨rfl, rfl⟩ := Prod.mk.inj (Option.some.inj h)
  rw [not_or, not_or, not_lt, not_lt, not_le] at hcount
  rw [not_not] at hlast
  refine ⟨readUint16 d size, readUint16 d (size + 2), rfl, fun ht => ?_, fun _ =>
    ⟨hcount.1, hcount.2.2, hcount.2.1, hlast⟩,
    hlen, ?_⟩
  · rw [hf] at ht
    cases ht
  · rw [PacketHeader.fragmentBytes]
    dsimp only
    rw [if_pos hf, List.append_assoc, FragmentExtensionSize,
      writeUint16_readUint16 (show size + 2 + 2 ≤ d.length by omega),
      writeUint16_readUint16 (by omega)]

lemma readTag_spec (h : readTag d (header, size) = some (header', size')) (hsize : size ≤ d.length) :
    ∃ tag, header' = { header with tag := tag } ∧ (header.startsMessage = false → tag = header.tag) ∧
      size' ≤ d.length ∧ header'.tagBytes ++ d.drop size' = d.drop size := by
  simp only [readTag] at h
  split at h
  · next hs =>
    rw [Bool.not_eq_true'] at hs
    obtain ⟨rfl, rfl⟩ := Prod.mk.inj (Option.some.inj h)
    refine ⟨header.tag, rfl, fun _ => rfl, hsize, ?_⟩
    rw [PacketHeader.tagBytes, hs]
    rfl
  next hs =>
  rw [Bool.not_eq_true', Bool.not_eq_false] at hs
  split at h
  · cases h
  next hlen =>
  have hlen : size + 4 ≤ d.length := not_lt.mp hlen
  obtain ⟨rfl, rfl⟩ := Prod.mk.inj (Option.some.inj h)
  refine ⟨UInt32.ofNat (readUint32 d size), rfl, fun ht => ?_, hlen, ?_⟩
  · rw [hs] at ht
    cases ht
  · have hs' : ({ header with tag := UInt32.ofNat (readUint32 d size) } : PacketHeader).startsMessage = true := hs
    rw [PacketHeader.tagBytes, if_pos hs', UInt32.toNat_ofNat_of_lt' (readUint32_lt d size)]
    exact writeUint32_readUint32 hlen

lemma readLength_spec (h : readLength d (header, size) = some (header', size')) (hsize : size ≤ d.length) :
    ∃ n, header' = { header with totalLength := n } ∧
      (header.startsFragmentedMessage = false → n = header.totalLength) ∧
      (header.startsFragmentedMessage = true → n ≤ maxMessageSize header.flags.lane ∧
        fragmentsOf n = header.fragCount) ∧
      size' ≤ d.length ∧ header'.lengthBytes ++ d.drop size' = d.drop size := by
  simp only [readLength] at h
  split at h
  · next hs =>
    rw [Bool.not_eq_true'] at hs
    obtain ⟨rfl, rfl⟩ := Prod.mk.inj (Option.some.inj h)
    refine ⟨header.totalLength, rfl, fun _ => rfl, fun ht => ?_, hsize, ?_⟩
    · rw [hs] at ht
      cases ht
    · rw [PacketHeader.lengthBytes, hs]
      rfl
  next hs =>
  rw [Bool.not_eq_true', Bool.not_eq_false] at hs
  split at h
  · cases h
  next hlen =>
  have hlen : size + 4 ≤ d.length := not_lt.mp hlen
  split at h
  · cases h
  next hcount =>
  obtain ⟨rfl, rfl⟩ := Prod.mk.inj (Option.some.inj h)
  rw [not_or, not_lt, not_not] at hcount
  refine ⟨readUint32 d size, rfl, fun ht => ?_, fun _ => hcount, hlen, ?_⟩
  · rw [hs] at ht
    cases ht
  · have hs' : ({ header with totalLength := readUint32 d size } : PacketHeader).startsFragmentedMessage = true :=
      hs
    rw [PacketHeader.lengthBytes, if_pos hs']
    exact writeUint32_readUint32 hlen

lemma ite_eq_left_of_zero {α : Type} [Zero α] {b : Bool} {x : α} (h : b = false → x = 0) :
    (if b = true then x else 0) = x := by
  cases b with
  | true => rfl
  | false => exact (h rfl).symm

lemma decodeHeader_spec {body : List UInt8} (h : decodeHeader d = some (header, body)) :
    encodePacket header body = d ∧ header.WellFormed ∧ header.onWire = header ∧ header.seq < 2 ^ 64 := by
  simp only [decodeHeader, Option.bind_eq_bind, Option.bind_eq_some_iff, Option.pure_def, Option.some.injEq,
    Prod.mk.injEq] at h
  obtain ⟨⟨base, k₀⟩, hb, ⟨fragment, k₁⟩, hf, ⟨tagged, k₂⟩, ht, ⟨header', k₃⟩, hl, rfl, rfl⟩ := h
  obtain ⟨-, hk₀, hbytes₀, hbase, hflags, hkind, hsource, hseq⟩ := readBase_spec hb
  obtain ⟨index, count, rfl, hnone, hsome, hk₁, hbytes₁⟩ := readFragment_spec hf hk₀
  obtain ⟨tag, rfl, htag, hk₂, hbytes₂⟩ := readTag_spec ht hk₁
  obtain ⟨n, rfl, hlen, hlength, hk₃, hbytes₃⟩ := readLength_spec hl hk₂
  have hzero : base.fragIndex = 0 ∧ base.fragCount = 0 ∧ base.tag = 0 ∧ base.totalLength = 0 := by
    rw [hbase]
    exact ⟨rfl, rfl, rfl, rfl⟩
  refine ⟨?_, ⟨⟨hflags, hsource, hseq, fun hf => (hsome hf).2, hlength⟩, hkind, fun hf => (hsome hf).1⟩, ?_, ?_⟩
  · rw [encodePacket, encodeHeader_eq, List.append_assoc, List.append_assoc, List.append_assoc, hbytes₃]
    exact (congrArg _ ((congrArg _ hbytes₂).trans hbytes₁)).trans hbytes₀
  · simp only [PacketHeader.onWire, PacketHeader.mk.injEq, true_and]
    refine ⟨?_, ?_, ?_, ?_⟩
    · exact ite_eq_left_of_zero fun hf => (hnone hf).1.trans hzero.1
    · exact ite_eq_left_of_zero fun hf => (hnone hf).2.trans hzero.2.1
    · exact ite_eq_left_of_zero fun hs => (htag hs).trans hzero.2.2.1
    · exact ite_eq_left_of_zero fun hs => (hlen hs).trans hzero.2.2.2
  · rw [hbase]
    exact Nat.mod_lt _ (by decide)

end Decoding

section Encoding

variable {h : PacketHeader} {d start rest : List UInt8}

lemma readUint16_at (start rest : List UInt8) (value : ℕ) :
    readUint16 (start ++ (writeUint16 value ++ rest)) start.length = value % 2 ^ 16 :=
  (readUint16_append _ start 0).trans (readUint16_writeUint16 rest value)

lemma readUint32_at (start rest : List UInt8) (value : ℕ) :
    readUint32 (start ++ (writeUint32 value ++ rest)) start.length = value % 2 ^ 32 :=
  (readUint32_append _ start 0).trans (readUint32_writeUint32 rest value)

lemma fragmentsOf_maxMessageSize_lt (lane : Lane) : fragmentsOf (maxMessageSize lane) < 2 ^ 16 := by
  cases lane <;> decide

lemma maxMessageSize_lt (lane : Lane) : maxMessageSize lane < 2 ^ 32 := by
  cases lane <;> decide

lemma readBase_wellFormed (hw : h.WellFormed) (hs : h.seq < 2 ^ 64) (body : List UInt8) :
    readBase (encodePacket h body) = some (h.base, BaseHeaderSize) := by
  have hflags : byteAt (encodePacket h body) 3 = h.flags.mBits := rfl
  have hlen : ¬(encodePacket h body).length < BaseHeaderSize := by
    rw [encodePacket, encodeHeader_eq, List.length_append, List.length_append, h.length_baseBytes]
    omega
  have hmagic : ¬(readUint16 (encodePacket h body) 0 ≠ ProtocolMagic ∨
    byteAt (encodePacket h body) 2 ≠ ProtocolVersion) := by
    refine not_or.mpr ⟨not_not.mpr ?_, not_not.mpr rfl⟩
    rw [encodePacket_eq, List.append_assoc, readUint16_writeUint16]
    decide
  have hsource : ¬(h.srcStreamID = 0 ∨ h.flags.kind = .data ∧ h.seq = 0) := by
    rintro (h0 | ⟨hk, h0⟩)
    · exact hw.source h0
    · have := hw.seq hk
      omega
  have hkind : (h.flags.kind == .beacon) = false := beq_false_of_ne hw.kind
  rw [readBase, if_neg hlen, if_neg hmagic, readUint32_source, readUint32_destination, readUint64_seq, hflags,
    Nat.mod_eq_of_lt hs, UInt32.ofNat_toNat, UInt32.ofNat_toNat]
  dsimp only
  rw [show (⟨h.flags.mBits⟩ : PacketFlags) = h.flags from rfl, hw.flags, hkind, if_neg (by decide), if_neg hsource,
    PacketHeader.base, Nat.mod_eq_of_lt hs]

lemma readFragment_wellFormed (hw : h.WellFormed) (hwire : h.onWire = h)
    (hd : d = start ++ (h.fragmentBytes ++ rest)) :
    readFragment d ({ h with fragIndex := 0, fragCount := 0, tag := 0, totalLength := 0 }, start.length) =
      some ({ h with tag := 0, totalLength := 0 }, start.length + h.fragmentBytes.length) := by
  simp only [readFragment]
  cases hf : h.flags.isFragmented with
  | false =>
    have hi : h.fragIndex = 0 := by
      have := congrArg PacketHeader.fragIndex hwire
      simpa [PacketHeader.onWire, hf] using this.symm
    have hc : h.fragCount = 0 := by
      have := congrArg PacketHeader.fragCount hwire
      simpa [PacketHeader.onWire, hf] using this.symm
    rw [h.length_fragmentBytes, hf, hi, hc]
    rfl
  | true =>
    have hmin := hw.several hf
    obtain ⟨hindex, hmax, hlast⟩ := hw.fragments hf
    have hlt := fragmentsOf_maxMessageSize_lt h.flags.lane
    have hbytes : h.fragmentBytes = writeUint16 h.fragIndex ++ writeUint16 h.fragCount := by
      rw [PacketHeader.fragmentBytes, if_pos hf]
    have hsize : h.fragmentBytes.length = FragmentExtensionSize := by rw [h.length_fragmentBytes, if_pos hf]
    have hreadIndex : readUint16 d start.length = h.fragIndex := by
      rw [hd, hbytes, List.append_assoc, readUint16_at, Nat.mod_eq_of_lt (by omega)]
    have hreadCount : readUint16 d (start.length + 2) = h.fragCount := by
      have hassoc : d = (start ++ writeUint16 h.fragIndex) ++ (writeUint16 h.fragCount ++ rest) := by
        rw [hd, hbytes, List.append_assoc, List.append_assoc]
      have hread := readUint16_at (start ++ writeUint16 h.fragIndex) rest h.fragCount
      rw [← hassoc, List.length_append, Nat.mod_eq_of_lt (by omega)] at hread
      exact hread
    have hlen : ¬d.length < start.length + FragmentExtensionSize := by
      rw [hd, List.length_append, List.length_append, hsize]
      omega
    rw [if_neg (by decide), if_neg hlen, hreadIndex, hreadCount, if_neg (by omega),
      if_neg (by rw [hlast]; exact not_not.mpr rfl),
      hsize]

variable (start) in
lemma readTag_wellFormed (hwire : h.onWire = h) (hd : d = start ++ (h.tagBytes ++ rest)) :
    readTag d ({ h with tag := 0, totalLength := 0 }, start.length) =
      some ({ h with totalLength := 0 }, start.length + h.tagBytes.length) := by
  have hstarts : ({ h with tag := 0, totalLength := 0 } : PacketHeader).startsMessage = h.startsMessage := rfl
  simp only [readTag, hstarts]
  cases hs : h.startsMessage with
  | false =>
    have ht : h.tag = 0 := by
      have := congrArg PacketHeader.tag hwire
      simpa [PacketHeader.onWire, hs] using this.symm
    rw [h.length_tagBytes, hs, ht]
    rfl
  | true =>
    have hsize : h.tagBytes.length = TagExtensionSize := by rw [h.length_tagBytes, if_pos hs]
    have hread : readUint32 d start.length = h.tag.toNat := by
      rw [hd, PacketHeader.tagBytes, if_pos hs, readUint32_at, Nat.mod_eq_of_lt h.tag.toNat_lt]
    have hlen : ¬d.length < start.length + TagExtensionSize := by
      rw [hd, List.length_append, List.length_append, hsize]
      omega
    rw [if_neg (by decide), if_neg hlen, hread, UInt32.ofNat_toNat, hsize]

variable (start) in
lemma readLength_wellFormed (hw : h.WellFormed) (hwire : h.onWire = h)
    (hd : d = start ++ (h.lengthBytes ++ rest)) :
    readLength d ({ h with totalLength := 0 }, start.length) = some (h, start.length + h.lengthBytes.length) := by
  have hstarts : ({ h with totalLength := 0 } : PacketHeader).startsFragmentedMessage =
    h.startsFragmentedMessage := rfl
  simp only [readLength, hstarts]
  cases hs : h.startsFragmentedMessage with
  | false =>
    have hn : h.totalLength = 0 := by
      have := congrArg PacketHeader.totalLength hwire
      simpa [PacketHeader.onWire, hs] using this.symm
    have hsame : ({ h with totalLength := 0 } : PacketHeader) = h := by rw [← hn]
    rw [h.length_lengthBytes, hs, hsame]
    rfl
  | true =>
    obtain ⟨hmax, hcount⟩ := hw.length hs
    have hlt := maxMessageSize_lt h.flags.lane
    have hsize : h.lengthBytes.length = LengthExtensionSize := by rw [h.length_lengthBytes, if_pos hs]
    have hread : readUint32 d start.length = h.totalLength := by
      rw [hd, PacketHeader.lengthBytes, if_pos hs, readUint32_at, Nat.mod_eq_of_lt (by omega)]
    have hlen : ¬d.length < start.length + LengthExtensionSize := by
      rw [hd, List.length_append, List.length_append, hsize]
      omega
    rw [if_neg (by decide), if_neg hlen, hread, if_neg (by rw [hcount]; omega), hsize]

lemma decodeHeader_encodePacket (hw : h.WellFormed) (hwire : h.onWire = h) (hs : h.seq < 2 ^ 64)
    (body : List UInt8) :
    decodeHeader (encodePacket h body) = some (h, body) := by
  have hbytes : encodePacket h body =
    h.baseBytes ++ (h.fragmentBytes ++ (h.tagBytes ++ (h.lengthBytes ++ body))) := by
    rw [encodePacket, encodeHeader_eq, List.append_assoc, List.append_assoc, List.append_assoc]
  have hbase : h.base = { h with fragIndex := 0, fragCount := 0, tag := 0, totalLength := 0 } := by
    rw [PacketHeader.base, Nat.mod_eq_of_lt hs]
  have hfragment := readFragment_wellFormed hw hwire hbytes
  have htag := readTag_wellFormed (h.baseBytes ++ h.fragmentBytes) hwire
    (hbytes.trans (List.append_assoc ..).symm)
  have hlength := readLength_wellFormed ((h.baseBytes ++ h.fragmentBytes) ++ h.tagBytes) hw hwire
    (hbytes.trans ((List.append_assoc ..).symm.trans (List.append_assoc ..).symm))
  rw [h.length_baseBytes, ← hbase] at hfragment
  rw [List.length_append, h.length_baseBytes] at htag
  rw [List.length_append, List.length_append, h.length_baseBytes] at hlength
  rw [decodeHeader, readBase_wellFormed hw hs, Option.bind_eq_bind, Option.bind_some, hfragment,
    Option.bind_some, htag,
    Option.bind_some, hlength, Option.bind_some]
  have hdrop : (encodePacket h body).drop
      (BaseHeaderSize + h.fragmentBytes.length + h.tagBytes.length + h.lengthBytes.length) = body := by
    have hsize : BaseHeaderSize + h.fragmentBytes.length + h.tagBytes.length + h.lengthBytes.length =
        (encodeHeader h).length := by
      rw [encodeHeader_eq, List.length_append, List.length_append, List.length_append, h.length_baseBytes,
        Nat.add_assoc,
        Nat.add_assoc]
    rw [hsize, encodePacket, List.drop_left]
  dsimp only
  rw [hdrop]
  rfl

end Encoding

/-! The decoder with every access checked: `none` where the source would read behind the end. -/

namespace Checked

def byteAt (d : List UInt8) (offset : ℕ) : Option UInt8 := d[offset]?

def readUint16 (d : List UInt8) (offset : ℕ) : Option ℕ := do
  let high ← byteAt d offset
  let low ← byteAt d (offset + 1)
  return high.toNat * 2 ^ 8 + low.toNat

def readUint32 (d : List UInt8) (offset : ℕ) : Option ℕ := do
  let high ← readUint16 d offset
  let low ← readUint16 d (offset + 2)
  return high * 2 ^ 16 + low

def readUint64 (d : List UInt8) (offset : ℕ) : Option ℕ := do
  let high ← readUint32 d offset
  let low ← readUint32 d (offset + 4)
  return high * 2 ^ 32 + low

def readBase (d : List UInt8) : Option (Option Reading) :=
  if d.length < BaseHeaderSize then some none
  else do
    let magic ← readUint16 d 0
    let version ← byteAt d 2
    if magic ≠ ProtocolMagic ∨ version ≠ ProtocolVersion then return none
    else
      let flags : PacketFlags := ⟨← byteAt d 3⟩
      if !flags.isValid || flags.kind == .beacon then return none
      else
        let src ← readUint32 d 4
        let dst ← readUint32 d 8
        let seq ← readUint64 d 12
        let header : PacketHeader :=
          { flags := flags, srcStreamID := UInt32.ofNat src, dstStreamID := UInt32.ofNat dst, seq := seq }
        if header.srcStreamID = 0 ∨ (header.flags.kind = .data ∧ header.seq = 0) then return none
        else return some (header, BaseHeaderSize)

def readFragment (d : List UInt8) : Reading → Option (Option Reading)
  | (header, size) =>
    if !header.flags.isFragmented then some (some (header, size))
    else if d.length < size + FragmentExtensionSize then some none
    else do
      let index ← readUint16 d size
      let count ← readUint16 d (size + 2)
      let header := { header with fragIndex := index, fragCount := count }
      if header.fragCount < 2 ∨ header.fragCount > fragmentsOf (maxMessageSize header.flags.lane) ∨
          header.fragIndex ≥ header.fragCount then return none
      else if header.flags.isLastFragment ≠ (header.fragIndex + 1 == header.fragCount) then return none
      else return some (header, size + FragmentExtensionSize)

def readTag (d : List UInt8) : Reading → Option (Option Reading)
  | (header, size) =>
    if !header.startsMessage then some (some (header, size))
    else if d.length < size + TagExtensionSize then some none
    else do
      let tag ← readUint32 d size
      return some ({ header with tag := UInt32.ofNat tag }, size + TagExtensionSize)

def readLength (d : List UInt8) : Reading → Option (Option Reading)
  | (header, size) =>
    if !header.startsFragmentedMessage then some (some (header, size))
    else if d.length < size + LengthExtensionSize then some none
    else do
      let length ← readUint32 d size
      let header := { header with totalLength := length }
      if header.totalLength > maxMessageSize header.flags.lane ∨
          fragmentsOf header.totalLength ≠ header.fragCount then return none
      else return some (header, size + LengthExtensionSize)

def decodeHeader (d : List UInt8) : Option (Option (PacketHeader × List UInt8)) := do
  let some base ← readBase d | return none
  let some fragment ← readFragment d base | return none
  let some tagged ← readTag d fragment | return none
  let some (header, size) ← readLength d tagged | return none
  if size ≤ d.length then some (some (header, d.drop size)) else none

def decodePacket (d : List UInt8) : Option (Option (PacketHeader × List UInt8)) :=
  if d.length > MaxDatagramSize then some none
  else do
    let some (header, body) ← decodeHeader d | return none
    if !isBodySizeValid header body.length then return none else return some (header, body)

variable {d : List UInt8} {k : ℕ}

lemma byteAt_eq (hk : k < d.length) : byteAt d k = some (Channel.byteAt d k) := by
  simp [byteAt, Channel.byteAt, hk]

lemma readUint16_eq (hk : k + 2 ≤ d.length) : readUint16 d k = some (Channel.readUint16 d k) := by
  rw [readUint16, byteAt_eq (by omega), byteAt_eq (by omega)]
  rfl

lemma readUint32_eq (hk : k + 4 ≤ d.length) : readUint32 d k = some (Channel.readUint32 d k) := by
  rw [readUint32, readUint16_eq (by omega), readUint16_eq (by omega)]
  rfl

lemma readUint64_eq (hk : k + 8 ≤ d.length) : readUint64 d k = some (Channel.readUint64 d k) := by
  rw [readUint64, readUint32_eq (by omega), readUint32_eq (by omega)]
  rfl

lemma readBase_eq (d : List UInt8) : readBase d = some (Channel.readBase d) := by
  rw [readBase, Channel.readBase]
  split
  · rfl
  next hlen =>
  have hlen : 20 ≤ d.length := not_lt.mp hlen
  rw [readUint16_eq (by omega), byteAt_eq (by omega), byteAt_eq (k := 3) (by omega), readUint32_eq (by omega),
    readUint32_eq (by omega), readUint64_eq (by omega)]
  simp only [Option.bind_eq_bind, Option.bind_some, Option.pure_def]
  split
  · rfl
  split
  · rfl
  split <;> rfl

lemma readFragment_eq (d : List UInt8) (r : Reading) : readFragment d r = some (Channel.readFragment d r) := by
  obtain ⟨header, size⟩ := r
  simp only [readFragment, Channel.readFragment]
  split
  · rfl
  split
  · rfl
  next hlen =>
  have hlen : size + 4 ≤ d.length := not_lt.mp hlen
  rw [readUint16_eq (by omega), readUint16_eq (by omega)]
  simp only [Option.bind_eq_bind, Option.bind_some, Option.pure_def]
  split
  · rfl
  split <;> rfl

lemma readTag_eq (d : List UInt8) (r : Reading) : readTag d r = some (Channel.readTag d r) := by
  obtain ⟨header, size⟩ := r
  simp only [readTag, Channel.readTag]
  split
  · rfl
  split
  · rfl
  next hlen =>
  rw [readUint32_eq (not_lt.mp hlen)]
  rfl

lemma readLength_eq (d : List UInt8) (r : Reading) : readLength d r = some (Channel.readLength d r) := by
  obtain ⟨header, size⟩ := r
  simp only [readLength, Channel.readLength]
  split
  · rfl
  split
  · rfl
  next hlen =>
  rw [readUint32_eq (not_lt.mp hlen)]
  simp only [Option.bind_eq_bind, Option.bind_some, Option.pure_def]
  split <;> rfl

lemma decodeHeader_eq (d : List UInt8) : decodeHeader d = some (Channel.decodeHeader d) := by
  rw [decodeHeader, Channel.decodeHeader, readBase_eq]
  cases hb : Channel.readBase d with
  | none => rfl
  | some base =>
    obtain ⟨base, k₀⟩ := base
    obtain ⟨-, hk₀, -⟩ := readBase_spec hb
    simp only [Option.bind_eq_bind, Option.bind_some]
    rw [readFragment_eq]
    cases hf : Channel.readFragment d (base, k₀) with
    | none => rfl
    | some fragment =>
      obtain ⟨fragment, k₁⟩ := fragment
      obtain ⟨-, -, -, -, -, hk₁, -⟩ := readFragment_spec hf hk₀
      simp only [Option.bind_some]
      rw [readTag_eq]
      cases ht : Channel.readTag d (fragment, k₁) with
      | none => rfl
      | some tagged =>
        obtain ⟨tagged, k₂⟩ := tagged
        obtain ⟨-, -, -, hk₂, -⟩ := readTag_spec ht hk₁
        simp only [Option.bind_some]
        rw [readLength_eq]
        cases hl : Channel.readLength d (tagged, k₂) with
        | none => rfl
        | some header =>
          obtain ⟨header, k₃⟩ := header
          obtain ⟨-, -, -, -, hk₃, -⟩ := readLength_spec hl hk₂
          simp only [Option.bind_some, if_pos hk₃]
          rfl

lemma decodePacket_eq (d : List UInt8) :
    decodePacket d = some ((Channel.decodePacket d).map fun p => (p.header, p.body)) := by
  rw [decodePacket, Channel.decodePacket]
  split
  · rfl
  rw [decodeHeader_eq]
  cases hd : Channel.decodeHeader d with
  | none => rfl
  | some p =>
    obtain ⟨header, body⟩ := p
    simp only [Option.bind_eq_bind, Option.bind_some]
    split <;> rfl

end Checked

lemma decodePacket_spec {d : List UInt8} {p : Packet} (h : decodePacket d = some p) :
    encodePacket p.header p.body = d ∧ p.header.WellFormed ∧ p.header.onWire = p.header ∧ p.header.seq < 2 ^ 64 ∧
      isBodySizeValid p.header p.body.length = true := by
  rw [decodePacket] at h
  split at h
  · cases h
  · simp only [Option.bind_eq_bind, Option.bind_eq_some_iff] at h
    obtain ⟨⟨header, body⟩, hh, h⟩ := h
    split at h
    · cases h
    · next hsize =>
      obtain rfl := Option.some.inj h
      obtain ⟨hbytes, hw, hwire, hseq⟩ := decodeHeader_spec hh
      rw [Bool.not_eq_true', Bool.not_eq_false] at hsize
      exact ⟨hbytes, hw, hwire, hseq, hsize⟩

lemma decodePacket_encodePacket {h : PacketHeader} {body : List UInt8} (hw : h.WellFormed) (hwire : h.onWire = h)
    (hs : h.seq < 2 ^ 64) (hbody : isBodySizeValid h body.length = true)
    (hsize : (encodePacket h body).length ≤ MaxDatagramSize) :
    (decodePacket (encodePacket h body)).map (fun p => (p.header, p.body)) = some (h, body) := by
  rw [decodePacket, if_neg (not_lt.mpr hsize), decodeHeader_encodePacket hw hwire hs, Option.bind_eq_bind,
    Option.bind_some]
  dsimp only
  rw [hbody]
  rfl

theorem packet_format :
    (∀ d p, decodePacket d = some p → encodePacket p.header p.body = d ∧ p.header.WellFormed ∧
      p.header.onWire = p.header ∧ isBodySizeValid p.header p.body.length = true) ∧
    (∀ h body, h.WellFormed → h.onWire = h → h.seq < 2 ^ 64 → isBodySizeValid h body.length = true →
      (encodePacket h body).length ≤ MaxDatagramSize →
      (decodePacket (encodePacket h body)).map (fun p => (p.header, p.body)) = some (h, body)) ∧
    (∀ h, (encodeHeader h).length = h.encodedSize) ∧
    ∀ d, Checked.decodePacket d = some ((decodePacket d).map fun p => (p.header, p.body)) := by
  refine ⟨fun d p h => ?_, fun h body hw hwire hs hbody hsize => ?_, length_encodeHeader, Checked.decodePacket_eq⟩
  · obtain ⟨hbytes, hw, hwire, -, hbody⟩ := decodePacket_spec h
    exact ⟨hbytes, hw, hwire, hbody⟩
  · exact decodePacket_encodePacket hw hwire hs hbody hsize

def firstFragment : PacketHeader where
  flags := (PacketFlags.data .bulk).setFragment true false
  srcStreamID := 7
  seq := 1
  fragCount := 2
  tag := 5
  totalLength := MaxFragmentBody + 1

theorem packet_format_firstFragment :
    (decodePacket (encodePacket firstFragment (List.replicate MaxFragmentBody 0))).map
      (fun p => (p.header, p.body)) =
      some (firstFragment, List.replicate MaxFragmentBody 0) := by
  refine packet_format.2.1 firstFragment _ ⟨⟨by decide, by decide, by decide, by decide, by decide⟩, by
    decide, by decide⟩
    (by decide) (by decide) ?_ ?_
  · rw [List.length_replicate]
    decide
  · rw [encodePacket, List.length_append, length_encodeHeader, List.length_replicate]
    decide

/-- Consistent fields are not enough: a Beacon and a message of one fragment that says it is fragmented are
refused. -/
theorem consistent_refused :
    (∃ h body, h.Consistent ∧ h.onWire = h ∧ h.seq < 2 ^ 64 ∧ isBodySizeValid h body.length = true ∧
      (encodePacket h body).length ≤ MaxDatagramSize ∧ h.flags.isFragmented = false ∧
      decodePacket (encodePacket h body) = none) ∧
    ∃ h body, h.Consistent ∧ h.onWire = h ∧ h.seq < 2 ^ 64 ∧ isBodySizeValid h body.length = true ∧
      (encodePacket h body).length ≤ MaxDatagramSize ∧ h.flags.kind = .data ∧
      decodePacket (encodePacket h body) = none := by
  refine ⟨⟨{ flags := ⟨3⟩, srcStreamID := 7 }, [], ⟨?_, ?_, ?_, ?_, ?_⟩, ?_⟩,
    { flags := (PacketFlags.data .bulk).setFragment true true, srcStreamID := 7, seq := 1, fragCount := 1,
      totalLength := 1 },
    [0], ⟨?_, ?_, ?_, ?_, ?_⟩, ?_⟩ <;> decide

section Sent

variable {p q : Packet}

lemma encodePacket_of_decode (h : decodePacket p.bytes = some q) :
    encodePacket q.header q.body = encodePacket p.header p.body := (decodePacket_spec h).1

lemma source_of_decode (h : decodePacket p.bytes = some q) : q.header.srcStreamID = p.header.srcStreamID := by
  apply UInt32.toNat_inj.mp
  rw [← readUint32_source q.header q.body, ← readUint32_source p.header p.body, encodePacket_of_decode h]

lemma destination_of_decode (h : decodePacket p.bytes = some q) :
    q.header.dstStreamID = p.header.dstStreamID := by
  apply UInt32.toNat_inj.mp
  rw [← readUint32_destination q.header q.body, ← readUint32_destination p.header p.body, encodePacket_of_decode h]

lemma flags_of_decode (h : decodePacket p.bytes = some q) : q.header.flags = p.header.flags := by
  have hflags : byteAt (encodePacket q.header q.body) 3 = byteAt (encodePacket p.header p.body) 3 := by
    rw [encodePacket_of_decode h]
  exact congrArg PacketFlags.mk hflags

end Sent

end NetLink.Channel
