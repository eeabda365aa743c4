import NetLink.Channel.LinkPair.Fragments
import NetLink.Channel.MediaAssembler
import Mathlib.Data.Finset.Card

/-! The slots of a media assembler: which one a fragment goes to, what a slot has of its message, and what becomes
of the other ones. -/

namespace NetLink.Channel.MediaAssembler

section Scan

variable {slots : List Slot} {id : ℕ} {seen : List ℕ} {free oldest : Option ℕ}

structure Scanned (slots : List Slot) (id : ℕ) (seen : List ℕ) (free oldest : Option ℕ) : Prop where
  other : ∀ i ∈ seen, (slots.getD i {}).used = true → (slots.getD i {}).id ≠ id
  full : free = none → ∀ i ∈ seen, (slots.getD i {}).used = true
  free : ∀ i ∈ free, i ∈ seen ∧ (slots.getD i {}).used = false
  empty : oldest = none → ∀ i ∈ seen, (slots.getD i {}).used = false
  oldest : ∀ o ∈ oldest, o ∈ seen ∧ (slots.getD o {}).used = true ∧
    ∀ i ∈ seen, (slots.getD i {}).used = true → (slots.getD o {}).id ≤ (slots.getD i {}).id

lemma Scanned.start (slots : List Slot) (id : ℕ) : Scanned slots id [] none none :=
  ⟨nofun, nofun, nofun, nofun, nofun⟩

lemma Scanned.passFree {i : ℕ} (h : Scanned slots id seen free oldest) (hi : (slots.getD i {}).used = false) :
    Scanned slots id (seen ++ [i]) (some i) oldest := by
  have hmem : ∀ j ∈ seen ++ [i], (slots.getD j {}).used = true → j ∈ seen := by
    intro j hj hu
    rcases List.mem_append.mp hj with hj | hj
    · exact hj
    · rw [List.mem_singleton.mp hj, hi] at hu
      cases hu
  refine ⟨fun j hj hu => h.other j (hmem j hj hu) hu, nofun, ?_, fun hn j hj => ?_, fun o ho => ?_⟩
  · rintro j ⟨⟩
    exact ⟨by simp, hi⟩
  · rw [← Bool.not_eq_true]
    intro hu
    rw [h.empty hn j (hmem j hj hu)] at hu
    cases hu
  · obtain ⟨hm, hu, hle⟩ := h.oldest o ho
    exact ⟨List.mem_append_left _ hm, hu, fun j hj hu => hle j (hmem j hj hu) hu⟩

def older (slots : List Slot) (i : ℕ) : Option ℕ → ℕ
  | none => i
  | some o => if (slots.getD i {}).id < (slots.getD o {}).id then i else o

lemma older_le {i o : ℕ} (ho : o = i ∨ o ∈ oldest) :
    (slots.getD (older slots i oldest) {}).id ≤ (slots.getD o {}).id := by
  cases oldest with
  | none =>
    obtain rfl : o = i := ho.resolve_right nofun
    exact le_rfl
  | some o' =>
    rw [older]
    split
    · rcases ho with rfl | ho
      · exact le_rfl
      · rw [← Option.some.inj ho]
        omega
    · rcases ho with rfl | ho
      · omega
      · rw [← Option.some.inj ho]

lemma older_cases (slots : List Slot) (i : ℕ) (oldest : Option ℕ) :
    older slots i oldest = i ∨ older slots i oldest ∈ oldest := by
  cases oldest with
  | none => exact .inl rfl
  | some o =>
    rw [older]
    split
    · exact .inl rfl
    · exact .inr rfl

lemma Scanned.passUsed {i : ℕ} (h : Scanned slots id seen free oldest) (hu : (slots.getD i {}).used = true)
    (hid : (slots.getD i {}).id ≠ id) : Scanned slots id (seen ++ [i]) free (some (older slots i oldest)) := by
  have hlast : i ∈ seen ++ [i] := by simp
  refine ⟨fun j hj hju => ?_, fun hf j hj => ?_, fun j hj => ?_, nofun, ?_⟩
  · rcases List.mem_append.mp hj with hj | hj
    · exact h.other j hj hju
    · rw [List.mem_singleton.mp hj]
      exact hid
  · rcases List.mem_append.mp hj with hj | hj
    · exact h.full hf j hj
    · rw [List.mem_singleton.mp hj]
      exact hu
  · exact ⟨List.mem_append_left _ (h.free j hj).1, (h.free j hj).2⟩
  · rintro o ⟨⟩
    refine ⟨?_, ?_, fun j hj hju => ?_⟩
    · rcases older_cases slots i oldest with he | hm
      · rw [he]
        exact hlast
      · exact List.mem_append_left _ (h.oldest _ hm).1
    · rcases older_cases slots i oldest with he | hm
      · rw [he]
        exact hu
      · exact (h.oldest _ hm).2.1
    · rcases List.mem_append.mp hj with hj | hj
      · cases ho : oldest with
        | none =>
          rw [h.empty ho j hj] at hju
          cases hju
        | some o =>
          rw [← ho]
          exact (older_le (.inr ho)).trans ((h.oldest o ho).2.2 j hj hju)
      · rw [List.mem_singleton.mp hj]
        exact older_le (.inl rfl)

lemma scan_cons (slots : List Slot) (id i : ℕ) (rest : List ℕ) (free oldest : Option ℕ) :
    scan slots id (i :: rest) free oldest =
      if ((slots.getD i {}).used && (slots.getD i {}).id == id) = true then .found i
      else if (slots.getD i {}).used = false then scan slots id rest (some i) oldest
      else scan slots id rest free (some (older slots i oldest)) := by
  rw [scan.eq_def]
  dsimp only
  split
  · rfl
  · cases hu : (slots.getD i {}).used with
    | false => rfl
    | true =>
      cases oldest with
      | none => rfl
      | some o =>
        rw [if_neg (by decide), if_neg (by decide), older]
        dsimp only
        split <;> rfl

lemma scan_spec (h : Scanned slots id seen free oldest) (rest : List ℕ) :
    (∃ i ∈ rest, scan slots id rest free oldest = .found i ∧ (slots.getD i {}).used = true ∧
      (slots.getD i {}).id = id) ∨
      ∃ free' oldest', scan slots id rest free oldest = .missing free' oldest' ∧
        Scanned slots id (seen ++ rest) free' oldest' := by
  induction rest generalizing seen free oldest with
  | nil =>
    refine .inr ⟨free, oldest, rfl, ?_⟩
    rw [List.append_nil]
    exact h
  | cons i rest ih =>
    rw [scan_cons]
    by_cases hu : (slots.getD i {}).used = true
    · by_cases hid : (slots.getD i {}).id = id
      · rw [if_pos (by rw [hu, hid, beq_self_eq_true]; rfl)]
        exact .inl ⟨i, List.mem_cons_self, rfl, hu, hid⟩
      · rw [if_neg (by rw [hu, Bool.true_and, beq_iff_eq]; exact hid), if_neg (by rw [hu]; decide)]
        rcases ih (h.passUsed hu hid) with ⟨j, hj, hf⟩ | ⟨free', oldest', hs, hm⟩
        · exact .inl ⟨j, List.mem_cons_of_mem _ hj, hf⟩
        · rw [List.append_assoc] at hm
          exact .inr ⟨free', oldest', hs, hm⟩
    · rw [Bool.not_eq_true] at hu
      rw [if_neg (by rw [hu]; exact Bool.false_ne_true), if_pos hu]
      rcases ih (h.passFree hu) with ⟨j, hj, hf⟩ | ⟨free', oldest', hs, hm⟩
      · exact .inl ⟨j, List.mem_cons_of_mem _ hj, hf⟩
      · rw [List.append_assoc] at hm
        exact .inr ⟨free', oldest', hs, hm⟩

end Scan

section SlotFor

variable {m : MediaAssembler} {id count : ℕ}

def fresh (id count : ℕ) : Slot :=
  { used := true, id := id, count := count, body := List.replicate (count * MaxFragmentBody) 0 }

structure At (m : MediaAssembler) (i : ℕ) (slot : Slot) : Prop where
  mem : m.mSlots[i]? = some slot
  used : slot.used = true

def Without (m : MediaAssembler) (id : ℕ) : Prop := ∀ i slot, m.At i slot → slot.id ≠ id

inductive Seated (m : MediaAssembler) (id count : ℕ) : Option ℕ → MediaAssembler → Prop
  | has {i : ℕ} {slot : Slot} (h : m.At i slot) (hid : slot.id = id) : Seated m id count (some i) m
  | free {i : ℕ} {slot : Slot} (hn : m.Without id) (hm : m.mSlots[i]? = some slot) (hu : slot.used = false) :
      Seated m id count (some i) { m with mSlots := m.mSlots.set i (fresh id count) }
  | evict {o : ℕ} {slot : Slot} (hn : m.Without id) (hall : ∀ s ∈ m.mSlots, s.used = true ∧ slot.id ≤ s.id)
      (h : m.At o slot) (hlt : slot.id < id) :
      Seated m id count (some o) { mSlots := m.mSlots.set o (fresh id count), mAbandoned := m.mAbandoned + 1 }
  | refuse (hn : m.Without id) (hall : ∀ s ∈ m.mSlots, s.used = true ∧ id < s.id) : Seated m id count none m

lemma getD_of_mem {slot : Slot} {i : ℕ} (h : m.mSlots[i]? = some slot) : m.mSlots.getD i {} = slot := by
  rw [List.getD_eq_getElem?_getD, h, Option.getD_some]

lemma exists_of_mem_range {i : ℕ} (h : i ∈ List.range m.mSlots.length) :
    m.mSlots[i]? = some (m.mSlots.getD i {}) := by
  rw [List.getD_eq_getElem?_getD, List.getElem?_eq_getElem (List.mem_range.mp h), Option.getD_some]

lemma mem_range_of_getElem? {i : ℕ} {slot : Slot} (h : m.mSlots[i]? = some slot) :
    i ∈ List.range m.mSlots.length :=
  List.mem_range.mpr (List.getElem?_eq_some_iff.mp h).1

/-- An unused slot has nothing of the message it was used for last. -/
def Blank (m : MediaAssembler) : Prop := ∀ slot ∈ m.mSlots, slot.used = false → slot = {}

lemma blank_empty : Blank {} := fun _ h _ => List.eq_of_mem_replicate h

lemma Blank.set {new : Slot} {i : ℕ} (h : m.Blank) (hn : new.used = false → new = {}) (n : ℕ) :
    Blank { mSlots := m.mSlots.set i new, mAbandoned := n } := by
  intro slot hs hu
  rcases List.mem_or_eq_of_mem_set hs with hs | rfl
  · exact h slot hs hu
  · exact hn hu

lemma claim_blank {slots : List Slot} {i : ℕ} (h : slots.getD i {} = {}) (id count : ℕ) :
    claim slots i id count = slots.set i (fresh id count) := by
  rw [claim, h]
  simp [resize, fresh]

lemma seated (h : m.Blank) (id count : ℕ) :
    Seated m id count (m.slotFor id count).1 (m.slotFor id count).2 := by
  rw [slotFor]
  rcases scan_spec (Scanned.start m.mSlots id) (List.range m.mSlots.length)
    with ⟨i, hi, hs, hu, hid⟩ | ⟨free, oldest, hs, hscan⟩
  · rw [hs]
    exact .has ⟨exists_of_mem_range hi, hu⟩ hid
  rw [List.nil_append] at hscan
  have hn : m.Without id := by
    intro i slot ha
    have hother := hscan.other i (mem_range_of_getElem? ha.mem)
    rw [getD_of_mem ha.mem] at hother
    exact hother ha.used
  rw [hs]
  cases free with
  | some i =>
    obtain ⟨hi, hu⟩ := hscan.free i rfl
    have hmem := exists_of_mem_range hi
    dsimp only
    rw [claim_blank (h _ (List.mem_of_getElem? hmem) hu)]
    exact .free hn hmem hu
  | none =>
    have hfull : ∀ s ∈ m.mSlots, ∃ i ∈ List.range m.mSlots.length, m.mSlots.getD i {} = s ∧ s.used = true := by
      intro s hm
      obtain ⟨i, hi⟩ := List.getElem?_of_mem hm
      have hu := hscan.full rfl i (mem_range_of_getElem? hi)
      rw [getD_of_mem hi] at hu
      exact ⟨i, mem_range_of_getElem? hi, getD_of_mem hi, hu⟩
    cases oldest with
    | none =>
      -- nothing is used and nothing is free: there are no slots
      refine .refuse hn fun s hm => ?_
      obtain ⟨i, hi, rfl, hu⟩ := hfull s hm
      rw [hscan.empty rfl i hi] at hu
      cases hu
    | some o =>
      obtain ⟨ho, hu, hle⟩ := hscan.oldest o rfl
      dsimp only
      split
      · refine .refuse hn fun s hm => ?_
        obtain ⟨i, hi, rfl, hiu⟩ := hfull s hm
        have hold := hle i hi hiu
        exact ⟨hiu, by omega⟩
      · have hemptied : (m.mSlots.set o {}).getD o {} = {} := by
          rw [List.getD_eq_getElem?_getD, List.getElem?_set_self (List.mem_range.mp ho), Option.getD_some]
        rw [claim_blank hemptied, List.set_set]
        refine .evict hn (fun s hm => ?_) ⟨exists_of_mem_range ho, hu⟩ ?_
        · obtain ⟨i, hi, rfl, hiu⟩ := hfull s hm
          exact ⟨hiu, hle i hi hiu⟩
        · have hne := hscan.other o ho hu
          omega

end SlotFor

section Store

variable {slot : Slot} {m : OutboundMessage} {header : PacketHeader} {body target source : List UInt8}
  {offset i k : ℕ}

lemma length_overwrite (h : offset + source.length ≤ target.length) :
    (overwrite target offset source).length = target.length := by
  simp only [overwrite, List.length_append, List.length_take, List.length_drop]
  omega

lemma getElem?_overwrite_of_mem (h : offset + source.length ≤ target.length) (hk : offset ≤ k)
    (hlt : k < offset + source.length) : (overwrite target offset source)[k]? = source[k - offset]? := by
  have htake : (target.take offset).length = offset := by
    rw [List.length_take]
    omega
  rw [overwrite, List.append_assoc, List.getElem?_append_right (by omega), htake,
    List.getElem?_append_left (by omega)]

lemma getElem?_overwrite_of_not (h : offset + source.length ≤ target.length)
    (hk : k < offset ∨ offset + source.length ≤ k) : (overwrite target offset source)[k]? = target[k]? := by
  have htake : (target.take offset).length = offset := by
    rw [List.length_take]
    omega
  rw [overwrite, List.append_assoc]
  rcases hk with hk | hk
  · rw [List.getElem?_append_left (by omega), List.getElem?_take_of_lt hk]
  · rw [List.getElem?_append_right (by omega), htake, List.getElem?_append_right (by omega), List.getElem?_drop]
    congr 1
    omega

@[simp] lemma used_store (slot : Slot) (header : PacketHeader) (body : List UInt8) :
    (store slot header body).used = slot.used := by
  rw [store]
  split <;> split <;> rfl

@[simp] lemma id_store (slot : Slot) (header : PacketHeader) (body : List UInt8) :
    (store slot header body).id = slot.id := by
  rw [store]
  split <;> split <;> rfl

@[simp] lemma count_store (slot : Slot) (header : PacketHeader) (body : List UInt8) :
    (store slot header body).count = slot.count := by
  rw [store]
  split <;> split <;> rfl

@[simp] lemma received_store (slot : Slot) (header : PacketHeader) (body : List UInt8) :
    (store slot header body).received = slot.received + 1 := by
  rw [store]
  split <;> split <;> rfl

lemma body_store (slot : Slot) (header : PacketHeader) (body : List UInt8) :
    (store slot header body).body = overwrite slot.body (header.fragIndex * MaxFragmentBody) body := by
  rw [store]
  split <;> split <;> rfl

lemma testBit_store (slot : Slot) (header : PacketHeader) (body : List UInt8) (k : ℕ) :
    (store slot header body).present.testBit k = (slot.present.testBit k || decide (header.fragIndex = k)) := by
  have hp : (store slot header body).present = slot.present ||| (1 <<< header.fragIndex) := by
    rw [store]
    split <;> split <;> rfl
  rw [hp, Nat.testBit_or, Nat.one_shiftLeft, Nat.testBit_two_pow]

lemma announced_store (slot : Slot) (header : PacketHeader) (body : List UInt8) :
    (store slot header body).tag = (if header.fragIndex = 0 then header.tag else slot.tag) ∧
      (store slot header body).totalLength = if header.fragIndex = 0 then header.totalLength
        else slot.totalLength := by
  rw [store]
  split <;> split <;> exact ⟨rfl, rfl⟩

lemma lastLength_store (slot : Slot) (header : PacketHeader) (body : List UInt8) :
    (store slot header body).lastLength = if header.flags.isLastFragment then body.length
      else slot.lastLength := by
  rw [store]
  dsimp only
  split <;> split <;> rfl

def arrived (slot : Slot) : Finset ℕ := {i ∈ Finset.range slot.count | slot.present.testBit i = true}

lemma mem_arrived : i ∈ arrived slot ↔ i < slot.count ∧ slot.present.testBit i = true := by
  rw [arrived, Finset.mem_filter, Finset.mem_range]

lemma arrived_store (hi : header.fragIndex < slot.count) :
    arrived (store slot header body) = insert header.fragIndex (arrived slot) := by
  ext j
  rw [Finset.mem_insert, mem_arrived, mem_arrived, count_store, testBit_store, Bool.or_eq_true, decide_eq_true_iff]
  constructor
  · rintro ⟨hj, hb | rfl⟩
    · exact .inr ⟨hj, hb⟩
    · exact .inl rfl
  · rintro (rfl | ⟨hj, hb⟩)
    · exact ⟨hi, .inr rfl⟩
    · exact ⟨hj, .inl hb⟩

structure Sized (slot : Slot) : Prop where
  size : slot.body.length = slot.count * MaxFragmentBody
  received : slot.received = (arrived slot).card

structure Holds (m : OutboundMessage) (slot : Slot) : Prop extends Sized slot where
  count : slot.count = fragmentsOf m.body.length
  bytes : ∀ k < m.body.length, k / MaxFragmentBody ∈ arrived slot → slot.body[k]? = m.body[k]?
  first : 0 ∈ arrived slot → slot.tag = m.tag ∧ slot.totalLength = m.body.length
  last : slot.count - 1 ∈ arrived slot → slot.lastLength = m.body.length - (slot.count - 1) * MaxFragmentBody

lemma arrived_fresh (id count : ℕ) : arrived (fresh id count) = ∅ := by
  ext j
  simp [mem_arrived, fresh]

lemma sized_fresh (id count : ℕ) : Sized (fresh id count) := by
  constructor
  · simp [fresh]
  · rw [arrived_fresh, Finset.card_empty]
    rfl

lemma holds_fresh (id : ℕ) (m : OutboundMessage) : Holds m (fresh id (fragmentsOf m.body.length)) where
  toSized := sized_fresh _ _
  count := rfl
  bytes k _ h := by
    rw [arrived_fresh] at h
    exact absurd h (Finset.notMem_empty _)
  first h := by
    rw [arrived_fresh] at h
    exact absurd h (Finset.notMem_empty _)
  last h := by
    rw [arrived_fresh] at h
    exact absurd h (Finset.notMem_empty _)

lemma Sized.fits (h : Sized slot) (hi : header.fragIndex < slot.count) (hb : body.length ≤ MaxFragmentBody) :
    header.fragIndex * MaxFragmentBody + body.length ≤ slot.body.length := by
  rw [h.size]
  calc header.fragIndex * MaxFragmentBody + body.length
      ≤ header.fragIndex * MaxFragmentBody + MaxFragmentBody := Nat.add_le_add_left hb _
    _ = (header.fragIndex + 1) * MaxFragmentBody := (Nat.succ_mul _ _).symm
    _ ≤ slot.count * MaxFragmentBody := Nat.mul_le_mul_right _ hi

lemma Sized.store (h : Sized slot) (hi : header.fragIndex < slot.count) (hb : body.length ≤ MaxFragmentBody)
    (hn : header.fragIndex ∉ arrived slot) : Sized (MediaAssembler.store slot header body) := by
  constructor
  · rw [body_store, length_overwrite (h.fits hi hb), count_store, h.size]
  · rw [received_store, arrived_store hi, Finset.card_insert_of_notMem hn, h.received]

lemma getElem?_bytes (hl : m.body.length ≤ MaxMessagePayload) (hi : i < fragmentsOf m.body.length)
    (hk : i * MaxFragmentBody ≤ k) (hlt : k - i * MaxFragmentBody < MaxFragmentBody) :
    (fragmentAt { cursorFor m with next := i }).bytes[k - i * MaxFragmentBody]? = m.body[k]? := by
  rw [fragmentAt_cursor hl hi, InFlight.bytes]
  dsimp only
  rw [List.getElem?_take]
  split
  · rw [List.getElem?_drop]
    congr 1
    omega
  · rw [List.getElem?_eq_none (by omega)]

structure Joins (m : OutboundMessage) (i : ℕ) (header : PacketHeader) (body : List UInt8) : Prop where
  length : m.body.length ≤ MaxMessagePayload
  index : i < fragmentsOf m.body.length
  several : 1 < fragmentsOf m.body.length
  carries : Carries (fragmentAt { cursorFor m with next := i }) header body

namespace Joins

variable (h : Joins m i header body)
include h

lemma isFragmented : header.flags.isFragmented = true := by
  have hc := h.carries.fragmented
  rw [fragmentAt_cursor h.length h.index] at hc
  rw [hc]
  exact decide_eq_true h.several

lemma fragIndex : header.fragIndex = i := by
  have hc := h.carries.index
  rw [fragmentAt_cursor h.length h.index] at hc
  exact hc h.several

lemma fragCount : header.fragCount = fragmentsOf m.body.length := by
  have hc := h.carries.count
  rw [fragmentAt_cursor h.length h.index] at hc
  exact hc h.several

lemma isLastFragment : header.flags.isLastFragment = (i + 1 == fragmentsOf m.body.length) := by
  have hc := h.carries.last
  rw [fragmentAt_cursor h.length h.index] at hc
  exact hc h.several

lemma announced (h0 : i = 0) : header.tag = m.tag ∧ header.totalLength = m.body.length := by
  have ht := h.carries.tag
  have hc := h.carries.total
  rw [fragmentAt_cursor h.length h.index] at ht hc
  exact ⟨ht (.inr h0), hc h.several h0⟩

lemma length_body : body.length = min MaxFragmentBody (m.body.length - i * MaxFragmentBody) := by
  rw [h.carries.body]
  exact length_bytes h.length h.index

lemma length_body_le : body.length ≤ MaxFragmentBody := by
  rw [h.length_body]
  exact min_le_left _ _

end Joins

lemma Holds.store (h : Holds m slot) (hj : Joins m i header body) (hn : i ∉ arrived slot) :
    Holds m (MediaAssembler.store slot header body) := by
  have hindex := hj.fragIndex
  have hlen := hj.length_body
  have hfit := mul_le_length hj.index
  have hi : header.fragIndex < slot.count := by
    rw [hindex, h.count]
    exact hj.index
  rw [← hindex] at hn
  have hroom := h.toSized.fits hi hj.length_body_le
  refine ⟨h.toSized.store hi hj.length_body_le hn, ?_, fun k hk hm => ?_, fun hm => ?_, fun hm => ?_⟩
  · rw [count_store, h.count]
  · rw [arrived_store hi, Finset.mem_insert] at hm
    rw [body_store]
    rw [hindex] at hm hroom ⊢
    have hdiv := Nat.div_add_mod k MaxFragmentBody
    have hmod : k % MaxFragmentBody < MaxFragmentBody := Nat.mod_lt _ (by decide)
    rw [Nat.mul_comm] at hdiv
    by_cases he : k / MaxFragmentBody = i
    · rw [he] at hdiv
      rw [getElem?_overwrite_of_mem hroom (by omega) (by omega), hj.carries.body,
        getElem?_bytes hj.length hj.index (by omega) (by omega)]
    · rw [getElem?_overwrite_of_not hroom, h.bytes k hk (hm.resolve_left he)]
      -- a byte of another fragment lies before or behind this one
      rcases Nat.lt_or_gt_of_ne he with hlt | hgt
      · have hmul := Nat.mul_le_mul_right MaxFragmentBody (Nat.succ_le_of_lt hlt)
        rw [Nat.succ_mul] at hmul
        omega
      · have hmul := Nat.mul_le_mul_right MaxFragmentBody (Nat.succ_le_of_lt hgt)
        rw [Nat.succ_mul] at hmul
        omega
  · rw [(announced_store slot header body).1, (announced_store slot header body).2]
    rw [arrived_store hi, Finset.mem_insert] at hm
    rw [hindex] at hm ⊢
    split
    · exact hj.announced ‹_›
    · exact h.first (hm.resolve_left fun h0 => absurd h0.symm ‹_›)
  · rw [count_store, arrived_store hi, Finset.mem_insert] at hm
    rw [lastLength_store, count_store, hj.isLastFragment]
    rw [hindex] at hm
    have hcount := h.count
    have hindex' := hj.index
    split
    · next hlast =>
      rw [beq_iff_eq] at hlast
      have hsize := le_fragmentsOf_mul m.body.length
      rw [hlen, show slot.count - 1 = i by omega]
      rw [← hlast, Nat.succ_mul] at hsize
      omega
    · next hlast =>
      rw [beq_iff_eq] at hlast
      exact h.last (hm.resolve_left (by omega))

lemma Holds.arrived_store (h : Holds m slot) (hj : Joins m i header body) :
    arrived (MediaAssembler.store slot header body) = insert i (arrived slot) := by
  rw [MediaAssembler.arrived_store, hj.fragIndex]
  rw [hj.fragIndex, h.count]
  exact hj.index

lemma Holds.complete (h : Holds m slot) (hc : slot.count ≤ slot.received) :
    (slot.count - 1) * MaxFragmentBody + slot.lastLength = m.body.length ∧ slot.totalLength = m.body.length ∧
      slot.tag = m.tag ∧ slot.body.take m.body.length = m.body := by
  have hpos := fragmentsOf_pos m.body.length
  have hcount := h.count
  have hall : arrived slot = Finset.range slot.count := by
    apply Finset.eq_of_subset_of_card_le (Finset.filter_subset _ _)
    rw [h.received] at hc
    rw [Finset.card_range]
    exact hc
  have hmem : ∀ j < slot.count, j ∈ arrived slot := by
    intro j hj
    rw [hall]
    exact Finset.mem_range.mpr hj
  obtain ⟨htag, htotal⟩ := h.first (hmem 0 (by omega))
  have hlast := h.last (hmem (slot.count - 1) (by omega))
  have hle : (slot.count - 1) * MaxFragmentBody ≤ m.body.length := mul_le_length (by omega)
  have hsize := le_fragmentsOf_mul m.body.length
  refine ⟨by omega, htotal, htag, ?_⟩
  apply List.ext_getElem?
  intro k
  rw [List.getElem?_take]
  split
  · next hk =>
    refine h.bytes k hk (hmem _ ?_)
    rw [hcount]
    exact Nat.div_lt_of_lt_mul (by rw [Nat.mul_comm]; omega)
  · rw [List.getElem?_eq_none (by omega)]

end Store

section Accept

variable {m : MediaAssembler} {msg : OutboundMessage} {slot : Slot} {header : PacketHeader} {body : List UInt8}
  {i j : ℕ}

def put (m : MediaAssembler) (i : ℕ) (header : PacketHeader) (body : List UInt8) :
    MediaAssembler × Option AssembledMessage :=
  let slot := m.mSlots.getD i {}
  if slot.count ≠ header.fragCount ∨ slot.present.testBit header.fragIndex then (m, none)
  else
    let slot := store slot header body
    if slot.received < slot.count then ({ m with mSlots := m.mSlots.set i slot }, none)
    else
      let length := (slot.count - 1) * MaxFragmentBody + slot.lastLength
      let m := { m with mSlots := m.mSlots.set i {} }
      if length ≠ slot.totalLength then (m, none) else (m, some ⟨slot.tag, slot.body.take length⟩)

structure Passes (header : PacketHeader) (body : List UInt8) : Prop where
  isFragmented : header.flags.isFragmented = true
  count : header.fragCount ≤ 64
  seq : header.fragIndex < header.seq
  size : if header.flags.isLastFragment then 0 < body.length ∧ body.length ≤ MaxFragmentBody
    else body.length = MaxFragmentBody

lemma Passes.size_le (h : Passes header body) : body.length ≤ MaxFragmentBody := by
  have hsize := h.size
  split at hsize
  · exact hsize.2
  · exact hsize.le

lemma badSize_iff (header : PacketHeader) (body : List UInt8) :
    (if header.flags.isLastFragment = true then body.isEmpty || decide (body.length > MaxFragmentBody)
      else body.length != MaxFragmentBody) = false ↔
      if header.flags.isLastFragment then 0 < body.length ∧ body.length ≤ MaxFragmentBody
      else body.length = MaxFragmentBody := by
  split
  · rw [Bool.or_eq_false_iff, decide_eq_false_iff_not, not_lt, List.length_pos_iff, List.isEmpty_eq_false_iff]
  · rw [bne_eq_false_iff_eq]

lemma accept_unfragmented (m : MediaAssembler) (hf : header.flags.isFragmented = false) :
    m.accept header body = (m, some ⟨header.tag, body⟩) := by
  rw [accept, hf]
  rfl

lemma accept_of_passes (hb : m.Blank) (h : Passes header body) :
    ∃ target m', Seated m (header.seq - header.fragIndex) header.fragCount target m' ∧
      (target = none ∧ m.accept header body = (m', none) ∨
        ∃ i, target = some i ∧ m.accept header body = m'.put i header body) := by
  refine ⟨_, _, seated hb _ _, ?_⟩
  rw [accept, if_neg (by rw [h.isFragmented]; decide), if_neg (not_or.mpr ⟨not_lt.mpr h.count, not_le.mpr h.seq⟩),
    if_neg (Bool.not_eq_true _ ▸ (badSize_iff header body).mpr h.size)]
  rcases hs : m.slotFor (header.seq - header.fragIndex) header.fragCount with ⟨target, m'⟩
  cases target with
  | none => exact .inl ⟨rfl, rfl⟩
  | some i => exact .inr ⟨i, rfl, rfl⟩

lemma accept_of_not_passes (m : MediaAssembler) (hf : header.flags.isFragmented = true) (h : ¬Passes header body) :
    m.accept header body = (m, none) := by
  rw [accept, if_neg (by rw [hf]; decide)]
  split
  · rfl
  next hcount =>
  rw [not_or, not_lt, not_le] at hcount
  rw [if_pos]
  rw [← Bool.not_eq_false]
  exact fun hb => h ⟨hf, hcount.1, hcount.2, (badSize_iff header body).mp hb⟩

structure Every (P : Slot → Prop) (m : MediaAssembler) : Prop where
  blank : m.Blank
  each : ∀ i slot, m.At i slot → P slot

lemma at_set {k n : ℕ} {s new : Slot} (h : At { mSlots := m.mSlots.set i new, mAbandoned := n } k s) :
    k = i ∧ s = new ∨ k ≠ i ∧ m.At k s := by
  have hmem := h.mem
  dsimp only at hmem
  rw [List.getElem?_set] at hmem
  split at hmem
  · next he =>
    split at hmem
    · exact .inl ⟨he.symm, (Option.some.inj hmem).symm⟩
    · cases hmem
  · next hne => exact .inr ⟨fun he => hne he.symm, hmem, h.used⟩

lemma Every.set {P : Slot → Prop} (h : Every P m) {new : Slot} (hn : new = {} ∨ new.used = true ∧ P new) (n : ℕ) :
    Every P { mSlots := m.mSlots.set i new, mAbandoned := n } := by
  refine ⟨h.blank.set (fun hu => hn.resolve_right fun hp => ?_) n, fun k s hk => ?_⟩
  · rw [hp.1] at hu
    cases hu
  rcases at_set hk with ⟨-, rfl⟩ | ⟨-, ha⟩
  · rcases hn with rfl | hn
    · cases hk.used
    · exact hn.2
  · exact h.each k s ha

lemma Seated.every {P : Slot → Prop} {id count : ℕ} {target : Option ℕ} {m' : MediaAssembler}
    (hs : Seated m id count target m') (h : Every P m) (hf : P (fresh id count)) : Every P m' := by
  cases hs with
  | has _ _ => exact h
  | free _ _ _ => exact h.set (.inr ⟨rfl, hf⟩) _
  | evict _ _ _ _ => exact h.set (.inr ⟨rfl, hf⟩) _
  | refuse _ _ => exact h

lemma lt_length_of_at (h : m.At i slot) : i < m.mSlots.length := (List.getElem?_eq_some_iff.mp h.mem).1

lemma Seated.at {id count : ℕ} {m' : MediaAssembler} (hs : Seated m id count (some i) m') :
    ∃ slot, m'.At i slot ∧ slot.id = id ∧ (m' = m ∨ slot = fresh id count) := by
  cases hs with
  | has h hid => exact ⟨_, h, hid, .inl rfl⟩
  | free _ hm _ =>
    refine ⟨_, ⟨?_, rfl⟩, rfl, .inr rfl⟩
    exact List.getElem?_set_self (List.getElem?_eq_some_iff.mp hm).1
  | evict _ _ h _ =>
    refine ⟨_, ⟨?_, rfl⟩, rfl, .inr rfl⟩
    exact List.getElem?_set_self (lt_length_of_at h)

lemma Blank.put (h : m.Blank) (ha : m.At i slot) (header : PacketHeader) (body : List UInt8) :
    (m.put i header body).1.Blank := by
  rw [MediaAssembler.put, getD_of_mem ha.mem]
  dsimp only
  split
  · exact h
  split
  · refine h.set (fun hu => ?_) _
    rw [used_store, ha.used] at hu
    cases hu
  · split <;> exact h.set (fun _ => rfl) _

lemma Blank.accept (h : m.Blank) (header : PacketHeader) (body : List UInt8) :
    (m.accept header body).1.Blank := by
  by_cases hf : header.flags.isFragmented = true
  · by_cases hpass : Passes header body
    · obtain ⟨target, m', hseat, hacc⟩ := accept_of_passes h hpass
      have hblank : m'.Blank := (hseat.every (P := fun _ => True) ⟨h, fun _ _ _ => trivial⟩ trivial).blank
      rcases hacc with ⟨-, hacc⟩ | ⟨i, rfl, hacc⟩
      · rw [hacc]
        exact hblank
      · obtain ⟨slot, hat, -⟩ := hseat.at
        rw [hacc]
        exact hblank.put hat header body
    · rw [accept_of_not_passes m hf hpass]
      exact h
  · rw [accept_unfragmented m (by rwa [Bool.not_eq_true] at hf)]
    exact h

lemma Joins.size (h : Joins msg j header body) :
    if header.flags.isLastFragment then 0 < body.length ∧ body.length ≤ MaxFragmentBody
    else body.length = MaxFragmentBody := by
  have hindex := h.index
  have hseveral := h.several
  have hlen := h.length_body
  rw [h.isLastFragment]
  split
  · next hlast =>
    rw [beq_iff_eq] at hlast
    refine ⟨?_, h.length_body_le⟩
    have hrest : j * MaxFragmentBody < msg.body.length := mul_lt_of_lt_fragmentsOf hindex (by omega)
    have hpos : 0 < MaxFragmentBody := by decide
    omega
  · next hlast =>
    rw [beq_iff_eq] at hlast
    have hrest := mul_lt_of_lt_fragmentsOf (n := msg.body.length) (i := j + 1) (by omega) (Nat.succ_pos j)
    rw [Nat.succ_mul] at hrest
    omega

lemma Joins.passes (h : Joins msg j header body) (hs : fragmentsOf msg.body.length ≤ 64) (hseq : j < header.seq) :
    Passes header body := by
  refine ⟨h.isFragmented, ?_, ?_, h.size⟩
  · rw [h.fragCount]
    exact hs
  · rw [h.fragIndex]
    exact hseq

lemma put_joins (ha : m.At i slot) (h : Holds msg slot) (hj : Joins msg j header body) :
    j ∈ arrived slot ∧ m.put i header body = (m, none) ∨
      j ∉ arrived slot ∧ (arrived slot).card + 1 < fragmentsOf msg.body.length ∧
        m.put i header body = ({ m with mSlots := m.mSlots.set i (store slot header body) }, none) ∨
      j ∉ arrived slot ∧ fragmentsOf msg.body.length ≤ (arrived slot).card + 1 ∧
        m.put i header body = ({ m with mSlots := m.mSlots.set i {} }, some ⟨msg.tag, msg.body⟩) := by
  have hcount : slot.count = header.fragCount := by rw [h.count, hj.fragCount]
  have hmem : j ∈ arrived slot ↔ slot.present.testBit header.fragIndex = true := by
    rw [mem_arrived, hj.fragIndex, h.count]
    exact and_iff_right hj.index
  rw [put, getD_of_mem ha.mem]
  dsimp only
  split
  · next hbad => exact .inl ⟨hmem.mpr (hbad.resolve_left (not_not.mpr hcount)), rfl⟩
  next hgood =>
  have hnew : j ∉ arrived slot := fun hin => hgood (.inr (hmem.mp hin))
  have hstored := h.store hj hnew
  rw [received_store, count_store, h.received, h.count]
  split
  · next hlt => exact .inr (.inl ⟨hnew, hlt, rfl⟩)
  next hge =>
  rw [not_lt] at hge
  obtain ⟨hlength, htotal, htag, hbody⟩ :=
    hstored.complete (by rw [received_store, count_store, h.received, h.count]; exact hge)
  rw [count_store, h.count] at hlength
  rw [hlength, htotal, htag, hbody, if_neg (not_not.mpr rfl)]
  exact .inr (.inr ⟨hnew, hge, rfl⟩)

end Accept

section Sole

variable {m m' : MediaAssembler} {id count i n : ℕ} {slot new : Slot} {target : Option ℕ}

structure Sole (m : MediaAssembler) (id i : ℕ) (slot : Slot) : Prop extends m.At i slot where
  own : slot.id = id
  only : ∀ k s, m.At k s → s.id = id → k = i

lemma Sole.seated (h : Sole m id i slot) (hs : Seated m id count target m') : target = some i ∧ m' = m := by
  cases hs with
  | has ha hid => exact ⟨congrArg some (h.only _ _ ha hid), rfl⟩
  | free hn _ _ => exact absurd h.own (hn i slot h.toAt)
  | evict hn _ _ _ => exact absurd h.own (hn i slot h.toAt)
  | refuse hn _ => exact absurd h.own (hn i slot h.toAt)

lemma sole_set (hi : i < m.mSlots.length) (ho : ∀ k s, m.At k s → s.id = id → k = i) (hu : new.used = true)
    (hid : new.id = id) (n : ℕ) : Sole { mSlots := m.mSlots.set i new, mAbandoned := n } id i new := by
  refine ⟨⟨List.getElem?_set_self hi, hu⟩, hid, fun k s hk hs => ?_⟩
  rcases at_set hk with ⟨rfl, -⟩ | ⟨-, hk⟩
  · rfl
  · exact ho k s hk hs

lemma Sole.set (h : Sole m id i slot) (hu : new.used = true) (hid : new.id = id) (n : ℕ) :
    Sole { mSlots := m.mSlots.set i new, mAbandoned := n } id i new :=
  sole_set (lt_length_of_at h.toAt) h.only hu hid n

lemma Sole.store (h : Sole m id i slot) (header : PacketHeader) (body : List UInt8) :
    Sole { m with mSlots := m.mSlots.set i (MediaAssembler.store slot header body) } id i
      (MediaAssembler.store slot header body) :=
  h.set ((used_store _ _ _).trans h.used) ((id_store _ _ _).trans h.own) _

end Sole

end NetLink.Channel.MediaAssembler
