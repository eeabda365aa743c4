import Mathlib.Data.List.Basic

/-! Texts in UTF-8: where a character of a text begins, and what is left of a text that is cut off. -/

namespace NetLink.Lib.Utf8

def encode (chars : List Char) : List UInt8 := chars.flatMap String.utf8EncodeChar

def Valid (bytes : List UInt8) : Prop := bytes.toByteArray.IsValidUTF8

def isContinuation (byte : UInt8) : Bool := byte &&& 0xC0 == 0x80

def Boundary (chars : List Char) (n : ℕ) : Prop := ∃ kept, kept <+: chars ∧ (encode kept).length = n

variable {chars kept : List Char} {c d : Char} {bytes rest : List UInt8} {n m : ℕ} {byte : UInt8}

@[simp] lemma encode_nil : encode [] = [] := rfl

@[simp] lemma encode_cons (c : Char) (chars : List Char) :
    encode (c :: chars) = String.utf8EncodeChar c ++ encode chars :=
  rfl

@[simp] lemma encode_append (chars rest : List Char) : encode (chars ++ rest) = encode chars ++ encode rest :=
  List.flatMap_append

lemma valid_iff : Valid bytes ↔ ∃ chars, bytes = encode chars := by
  constructor
  · rintro ⟨chars, h⟩
    refine ⟨chars, ?_⟩
    have hdata := congrArg (fun array => array.data.toList) h
    simpa [List.utf8Encode, encode] using hdata
  · rintro ⟨chars, rfl⟩
    exact ⟨chars, rfl⟩

lemma isContinuation_ofNat (h : n < 256) : isContinuation (UInt8.ofNat n) = decide (128 ≤ n ∧ n < 192) := by
  have hall : ∀ n : Fin 256, isContinuation (UInt8.ofNat n) = decide (128 ≤ n.1 ∧ n.1 < 192) := by decide +kernel
  exact hall ⟨n, h⟩

lemma isContinuation_low (v : ℕ) : isContinuation (UInt8.ofNat (v % 64 + 128)) = true := by
  rw [isContinuation_ofNat (by omega), decide_eq_true_iff]
  omega

lemma encodeChar_eq_cons (c : Char) : ∃ first others, String.utf8EncodeChar c = first :: others ∧
    isContinuation first = false ∧ ∀ byte ∈ others, isContinuation byte = true := by
  have hfirst : ∀ n, n < 128 ∨ 192 ≤ n ∧ n < 256 → isContinuation (UInt8.ofNat n) = false := by
    intro n hn
    rw [isContinuation_ofNat (by omega), decide_eq_false_iff_not]
    omega
  rw [String.utf8EncodeChar]
  split
  · exact ⟨_, _, rfl, hfirst _ (by omega), by simp⟩
  split
  · exact ⟨_, _, rfl, hfirst _ (by omega), by simp [-UInt8.ofNat_add, isContinuation_low]⟩
  split
  · exact ⟨_, _, rfl, hfirst _ (by omega), by simp [-UInt8.ofNat_add, isContinuation_low]⟩
  · exact ⟨_, _, rfl, hfirst _ (by omega), by simp [-UInt8.ofNat_add, isContinuation_low]⟩

lemma encodeChar_append_inj {x y : List UInt8} (h : String.utf8EncodeChar c ++ x = String.utf8EncodeChar d ++ y) :
    c = d ∧ x = y := by
  have hread : ∀ (c : Char) (x : List UInt8),
      (String.utf8EncodeChar c ++ x).toByteArray.utf8DecodeChar? 0 = some c := by
    intro c x
    rw [List.toByteArray_append, ByteArray.utf8DecodeChar?_utf8EncodeChar_append]
  have hcd : c = d := Option.some.inj (by rw [← hread c x, h, hread d y])
  subst hcd
  exact ⟨rfl, List.append_cancel_left h⟩

lemma encode_prefix_iff : encode kept <+: encode chars ↔ kept <+: chars := by
  constructor
  · intro h
    induction kept generalizing chars with
    | nil => exact List.nil_prefix
    | cons c kept ih =>
      obtain ⟨more, h⟩ := h
      cases chars with
      | nil =>
        obtain ⟨first, others, hc, -⟩ := encodeChar_eq_cons c
        simp [hc] at h
      | cons d chars =>
        rw [encode_cons, encode_cons, List.append_assoc] at h
        obtain ⟨hcd, hrest⟩ := encodeChar_append_inj h
        exact List.cons_prefix_cons.mpr ⟨hcd, ih ⟨more, hrest⟩⟩
  · rintro ⟨rest, rfl⟩
    exact ⟨encode rest, (encode_append kept rest).symm⟩

lemma boundary_zero : Boundary chars 0 := ⟨[], List.nil_prefix, rfl⟩

lemma boundary_cons_of_pos (h : 0 < n) :
    Boundary (c :: chars) n ↔ c.utf8Size ≤ n ∧ Boundary chars (n - c.utf8Size) := by
  constructor
  · rintro ⟨kept, hk, rfl⟩
    cases kept with
    | nil => simp at h
    | cons d kept =>
      obtain ⟨hdc, hkept⟩ := List.cons_prefix_cons.mp hk
      rw [encode_cons, List.length_append, String.length_utf8EncodeChar, hdc]
      exact ⟨Nat.le_add_right _ _, kept, hkept, (Nat.add_sub_cancel_left _ _).symm⟩
  · rintro ⟨hle, kept, hk, hlen⟩
    refine ⟨c :: kept, List.cons_prefix_cons.mpr ⟨rfl, hk⟩, ?_⟩
    rw [encode_cons, List.length_append, String.length_utf8EncodeChar, hlen]
    omega

lemma isContinuation_eq_false_iff (h : (encode chars)[n]? = some byte) :
    isContinuation byte = false ↔ Boundary chars n := by
  induction chars generalizing n with
  | nil => simp at h
  | cons c chars ih =>
    obtain ⟨first, others, hc, hfirst, hothers⟩ := encodeChar_eq_cons c
    have hsize : c.utf8Size = others.length + 1 := by rw [← String.length_utf8EncodeChar, hc, List.length_cons]
    rw [encode_cons, hc, List.cons_append] at h
    cases n with
    | zero =>
      rw [List.getElem?_cons_zero, Option.some.injEq] at h
      rw [← h]
      exact ⟨fun _ => boundary_zero, fun _ => hfirst⟩
    | succ n =>
      rw [List.getElem?_cons_succ] at h
      rw [boundary_cons_of_pos n.succ_pos, hsize]
      rcases Nat.lt_or_ge n others.length with hn | hn
      · rw [List.getElem?_append_left hn] at h
        have hbyte := hothers byte (List.mem_of_getElem? h)
        rw [hbyte]
        exact ⟨nofun, fun hle => absurd hle.1 (by omega)⟩
      · rw [List.getElem?_append_right hn] at h
        rw [ih h, Nat.succ_sub_succ]
        exact ⟨fun hb => ⟨by omega, hb⟩, fun hb => hb.2⟩

lemma take_length_encode (h : kept <+: chars) : (encode chars).take (encode kept).length = encode kept :=
  List.prefix_iff_eq_take.mp (encode_prefix_iff.mpr h) |>.symm

lemma valid_take_iff : Valid ((encode chars).take n) ↔
    ((encode chars)[n]?.any isContinuation) = false := by
  cases hn : (encode chars)[n]? with
  | none =>
    rw [List.take_of_length_le (List.getElem?_eq_none_iff.mp hn)]
    exact ⟨fun _ => rfl, fun _ => valid_iff.mpr ⟨chars, rfl⟩⟩
  | some byte =>
    rw [Option.any_some, isContinuation_eq_false_iff hn, valid_iff]
    constructor
    · rintro ⟨kept, hk⟩
      have hlt := (List.getElem?_eq_some_iff.mp hn).1
      refine ⟨kept, encode_prefix_iff.mp (hk ▸ List.take_prefix n _), ?_⟩
      rw [← hk, List.length_take, Nat.min_eq_left (Nat.le_of_lt hlt)]
    · rintro ⟨kept, hk, rfl⟩
      exact ⟨kept, take_length_encode hk⟩

end NetLink.Lib.Utf8
