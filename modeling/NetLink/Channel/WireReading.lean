import NetLink.Channel.Codec
import NetLink.Channel.WireBuffer

/-! Reading fields one after another: what a field takes off the bytes, and what becomes of bytes that end too
early. -/

namespace NetLink.Channel

open Net (Text)

abbrev FieldReader (α : Type) := WireReader → α × WireReader

structure Reads {α : Type} (read : FieldReader α) (bytes : List UInt8) (value : α) : Prop where
  whole : ∀ rest, read { mBytes := bytes ++ rest } = (value, { mBytes := rest })
  short : ∀ part, part <+: bytes → part ≠ bytes → (read { mBytes := part }).2.mFailed = true
  sticky : ∀ r : WireReader, r.mFailed = true → (read r).2.mFailed = true

namespace WireReader

def both {α β : Type} (first : FieldReader α) (second : FieldReader β) : FieldReader (α × β) := fun r =>
  (((first r).1, (second (first r).2).1), (second (first r).2).2)

def mapped {α β : Type} (f : α → β) (read : FieldReader α) : FieldReader β := fun r => (f (read r).1, (read r).2)

end WireReader

section Combine

variable {α β : Type} {first : FieldReader α} {second : FieldReader β} {as bs : List UInt8} {a : α} {b : β}

lemma Reads.map (f : α → β) (h : Reads first as a) : Reads (WireReader.mapped f first) as (f a) where
  whole rest := by rw [WireReader.mapped, h.whole]
  short := h.short
  sticky := h.sticky

lemma Reads.bind {k : α → FieldReader β} (ha : Reads first as a) (hb : Reads (k a) bs b)
    (hs : ∀ x r, r.mFailed = true → (k x r).2.mFailed = true) :
    Reads (fun r => k (first r).1 (first r).2) (as ++ bs) b where
  whole tail := by simp only [List.append_assoc, ha.whole, hb.whole]
  short part hpart hne := by
    rcases List.prefix_or_prefix_of_prefix hpart (List.prefix_append as bs) with h | ⟨tail, rfl⟩
    · by_cases he : part = as
      · subst he
        have hfirst := ha.whole []
        rw [List.append_nil] at hfirst
        simp only [hfirst]
        refine hb.short [] List.nil_prefix fun hnil => hne ?_
        rw [← hnil, List.append_nil]
      · exact hs _ _ (ha.short part h he)
    · simp only [ha.whole]
      refine hb.short tail ((List.prefix_append_right_inj as).mp hpart) fun he => hne ?_
      rw [he]
  sticky r hr := hs _ _ (ha.sticky r hr)

lemma Reads.both (ha : Reads first as a) (hb : Reads second bs b) :
    Reads (WireReader.both first second) (as ++ bs) (a, b) :=
  ha.bind (k := fun x => WireReader.mapped (x, ·) second) (hb.map (a, ·)) fun _ => hb.sticky

end Combine

lemma length_lt_of_proper {part bytes : List UInt8} (h : part <+: bytes) (hne : part ≠ bytes) :
    part.length < bytes.length :=
  lt_of_le_of_ne h.length_le fun he => hne (h.eq_of_length he)

lemma next_failed {r : WireReader} {size : ℕ} (h : r.mFailed = true ∨ r.mBytes.length < size) :
    r.next size = ([], { r with mFailed := true }) := by
  rw [WireReader.next, if_pos]
  rw [Bool.or_eq_true, decide_eq_true_eq]
  exact h

lemma next_of_le {bytes : List UInt8} {size : ℕ} (h : size ≤ bytes.length) :
    WireReader.next { mBytes := bytes } size = (bytes.take size, { mBytes := bytes.drop size }) := by
  rw [WireReader.next, if_neg]
  simpa using h

lemma next_append (bytes rest : List UInt8) :
    WireReader.next { mBytes := bytes ++ rest } bytes.length = (bytes, { mBytes := rest }) := by
  rw [next_of_le (by simp), List.take_left, List.drop_left]

lemma reads_next (bytes : List UInt8) : Reads (fun r => r.next bytes.length) bytes bytes where
  whole := next_append bytes
  short part hpart hne := by rw [next_failed (.inr (length_lt_of_proper hpart hne))]
  sticky r hr := by rw [next_failed (.inl hr)]

lemma reads_fixed {α : Type} (bytes : List UInt8) (f : List UInt8 → α) :
    Reads (WireReader.mapped f fun r => r.next bytes.length) bytes (f bytes) :=
  (reads_next bytes).map f

lemma reads_u8 (value : UInt8) : Reads WireReader.u8 [value] value :=
  reads_fixed [value] fun field => field.headD 0

lemma reads_u16 {value : ℕ} (h : value < 2 ^ 16) : Reads WireReader.u16 (writeUint16 value) value := by
  have hfield : Reads WireReader.u16 (writeUint16 value) (readUint16 (writeUint16 value) 0) :=
    reads_fixed (writeUint16 value) fun field => if field.isEmpty then 0 else readUint16 field 0
  have hvalue := readUint16_writeUint16 [] value
  rw [List.append_nil, Nat.mod_eq_of_lt h] at hvalue
  rwa [hvalue] at hfield

lemma reads_u64 {value : ℕ} (h : value < 2 ^ 64) : Reads WireReader.u64 (writeUint64 value) value := by
  have hfield : Reads WireReader.u64 (writeUint64 value) (readUint64 (writeUint64 value) 0) :=
    reads_fixed (writeUint64 value) fun field => if field.isEmpty then 0 else readUint64 field 0
  have hvalue := readUint64_writeUint64 [] value
  rw [List.append_nil, Nat.mod_eq_of_lt h] at hvalue
  rwa [hvalue] at hfield

lemma sticky_next (size : ℕ) {r : WireReader} (h : r.mFailed = true) : (r.next size).2.mFailed = true := by
  rw [next_failed (.inl h)]

lemma reads_text {value : Text} (h : value.length ≤ 255) : Reads WireReader.text (writeText value) value := by
  have hsize : (UInt8.ofNat value.length).toNat = value.length := by
    rw [UInt8.toNat_ofNat']
    omega
  have hbytes : writeText value = [UInt8.ofNat value.length] ++ value := by
    rw [writeText, min_eq_left h, List.take_length]
    rfl
  have hvalue := reads_next value
  rw [← hsize] at hvalue
  rw [hbytes]
  exact (reads_u8 _).bind (k := fun size r => r.next size.toNat) hvalue fun size _ => sticky_next _

/-! Decoders that read their fields and then ask for the end of the bytes. -/

structure Exact {α : Type} (decode : List UInt8 → Option α) (bytes : List UInt8) (value : α) : Prop where
  whole : decode bytes = some value
  short : ∀ part, part <+: bytes → part ≠ bytes → decode part = none
  longer : ∀ extra, decode (bytes ++ [extra]) = none

def decodeWith {α β : Type} (read : FieldReader β) (judge : β → Option α) (bytes : List UInt8) : Option α :=
  if (read { mBytes := bytes }).2.complete then judge (read { mBytes := bytes }).1 else none

section Decoding

variable {α β : Type} {read : FieldReader β} {bytes : List UInt8} {fields : β} {value : α}

lemma Reads.decodeWith_eq (h : Reads read bytes fields) (judge : β → Option α) :
    decodeWith read judge bytes = judge fields := by
  have hwhole := h.whole []
  rw [List.append_nil] at hwhole
  rw [decodeWith, hwhole]
  rfl

lemma Reads.exact (h : Reads read bytes fields) {judge : β → Option α} (hj : judge fields = some value) :
    Exact (decodeWith read judge) bytes value where
  whole := (h.decodeWith_eq judge).trans hj
  short part hpart hne := by
    rw [decodeWith, WireReader.complete, h.short part hpart hne]
    rfl
  longer extra := by
    rw [decodeWith, h.whole]
    rfl

end Decoding

end NetLink.Channel
