import Mathlib.Algebra.Ring.Nat
import Mathlib.Data.List.Perm.Basic
import Mathlib.Tactic.Lemma

/-! A ring buffer keyed by a sequence number. Seqs a capacity apart share a slot; `replaced` counts the
inserts that found their slot occupied. -/

namespace NetLink.Channel

structure SequenceBuffer (α : Type) where
  mSlots : List (Option (ℕ × α))
  mSize : ℕ := 0
  replaced : ℕ := 0

namespace SequenceBuffer

variable {α : Type}

def new (capacity : ℕ) : SequenceBuffer α := { mSlots := List.replicate capacity none }

def capacity (b : SequenceBuffer α) : ℕ := b.mSlots.length

def index (b : SequenceBuffer α) (seq : ℕ) : ℕ := seq &&& (b.mSlots.length - 1)

def slot (b : SequenceBuffer α) (seq : ℕ) : Option (ℕ × α) := (b.mSlots[b.index seq]?).join

def insert (b : SequenceBuffer α) (seq : ℕ) (value : α) : SequenceBuffer α :=
  { mSlots := b.mSlots.set (b.index seq) (some (seq, value))
    mSize := if (b.slot seq).isSome then b.mSize else b.mSize + 1
    replaced := if (b.slot seq).isSome then b.replaced + 1 else b.replaced }

def find (b : SequenceBuffer α) (seq : ℕ) : Option α :=
  match b.slot seq with
  | some (s, value) => if s = seq then some value else none
  | none => none

def contains (b : SequenceBuffer α) (seq : ℕ) : Bool := (b.find seq).isSome

def erase (b : SequenceBuffer α) (seq : ℕ) : SequenceBuffer α :=
  if b.contains seq then { b with mSlots := b.mSlots.set (b.index seq) none, mSize := b.mSize - 1 } else b

def take (b : SequenceBuffer α) (seq : ℕ) : Option α × SequenceBuffer α := (b.find seq, b.erase seq)

def assign (b : SequenceBuffer α) (seq : ℕ) (value : α) : SequenceBuffer α :=
  if b.contains seq then { b with mSlots := b.mSlots.set (b.index seq) (some (seq, value)) } else b

def clear (b : SequenceBuffer α) : SequenceBuffer α :=
  { b with mSlots := b.mSlots.map fun _ => none, mSize := b.mSize - (b.mSlots.filterMap id).length }

def isEmpty (b : SequenceBuffer α) : Bool := b.mSize == 0

def entries (b : SequenceBuffer α) : List (ℕ × α) := b.mSlots.filterMap id

lemma filterMap_set {β : Type} (l : List (Option β)) (i : ℕ) (x : Option β) (hi : i < l.length) :
    ((l.set i x).filterMap id).Perm (x.toList ++ (l.set i none).filterMap id) := by
  rw [List.set_eq_take_append_cons_drop, List.set_eq_take_append_cons_drop, if_pos hi, if_pos hi]
  cases x <;> simp

structure WF (b : SequenceBuffer α) : Prop where
  pow : ∃ k, b.mSlots.length = 2 ^ k
  placed : ∀ i s v, b.mSlots[i]? = some (some (s, v)) → b.index s = i
  size : b.mSize = b.entries.length

variable {b : SequenceBuffer α} {s t : ℕ} {v : α}

lemma index_eq_mod (h : b.WF) (s : ℕ) : b.index s = s % b.capacity := by
  obtain ⟨k, hk⟩ := h.pow
  rw [index, capacity, hk, Nat.and_two_pow_sub_one_eq_mod]

lemma index_lt (h : b.WF) (s : ℕ) : b.index s < b.mSlots.length := by
  rw [index_eq_mod h]
  obtain ⟨k, hk⟩ := h.pow
  exact Nat.mod_lt _ (by rw [capacity, hk]; exact Nat.two_pow_pos k)

lemma find_eq_some_iff : b.find s = some v ↔ b.mSlots[b.index s]? = some (some (s, v)) := by
  unfold find slot
  rcases hs : b.mSlots[b.index s]? with _ | _ | ⟨t, w⟩
  · simp
  · simp
  · by_cases ht : t = s <;> simp [ht]

lemma find_of_find_set {x : Option (ℕ × α)} {n r i : ℕ}
    (h : ({ mSlots := b.mSlots.set i x, mSize := n, replaced := r } : SequenceBuffer α).find t = some v) :
    x = some (t, v) ∨ b.find t = some v := by
  rw [find_eq_some_iff] at h ⊢
  simp only [index, List.length_set, List.getElem?_set] at h ⊢
  split at h
  · split at h
    · exact .inl (Option.some.inj h)
    · cases h
  · exact .inr h

lemma find_of_find_erase (h : (b.erase s).find t = some v) : b.find t = some v := by
  rw [erase] at h
  split at h
  · exact (find_of_find_set h).resolve_left (by simp)
  · exact h

lemma find_of_find_insert {w : α} (h : (b.insert s w).find t = some v) : t = s ∧ v = w ∨ b.find t = some v := by
  refine (find_of_find_set h).imp_left fun he => ?_
  rw [Option.some.injEq, Prod.mk.injEq] at he
  exact ⟨he.1.symm, he.2.symm⟩

@[simp] lemma capacity_new (n : ℕ) : (new n : SequenceBuffer α).capacity = n := by
  simp [new, capacity]

@[simp] lemma replaced_new (n : ℕ) : (new n : SequenceBuffer α).replaced = 0 := rfl

@[simp] lemma entries_new (n : ℕ) : (new n : SequenceBuffer α).entries = [] := by
  simp [new, entries]

@[simp] lemma find_new (n : ℕ) : (new n : SequenceBuffer α).find s = none := by
  rw [Option.eq_none_iff_forall_ne_some]
  intro v hv
  rw [find_eq_some_iff, new, List.getElem?_replicate] at hv
  split at hv <;> simp at hv

lemma wf_new (k : ℕ) : (new (2 ^ k) : SequenceBuffer α).WF where
  pow := ⟨k, by simp [new]⟩
  placed i s v h := by
    rw [new, List.getElem?_replicate] at h
    split at h <;> simp at h
  size := by simp [new, entries]

lemma mem_entries_iff (h : b.WF) : (s, v) ∈ b.entries ↔ b.find s = some v := by
  rw [find_eq_some_iff, entries, List.mem_filterMap]
  constructor
  · rintro ⟨x, hx, rfl⟩
    obtain ⟨i, hi⟩ := List.mem_iff_getElem?.mp hx
    rw [h.placed i s v hi, hi]
  · intro hf
    exact ⟨some (s, v), List.mem_iff_getElem?.mpr ⟨_, hf⟩, rfl⟩

lemma find_set (h : b.WF) (x : Option (ℕ × α)) (n r : ℕ) :
    ({ mSlots := b.mSlots.set (b.index s) x, mSize := n, replaced := r } : SequenceBuffer α).find t =
      if b.index t = b.index s then x.bind fun p => if p.1 = t then some p.2 else none else b.find t := by
  have hl := index_lt h s
  simp only [find, slot, index, List.length_set, List.getElem?_set] at hl ⊢
  by_cases hi : t &&& (b.mSlots.length - 1) = s &&& (b.mSlots.length - 1)
  · cases x <;> simp [hi, hl]
  · simp [hi, Ne.symm hi]

lemma index_ne_of_window {base : ℕ} (h : b.WF) (hs : base ≤ s ∧ s < base + b.capacity)
    (ht : base ≤ t ∧ t < base + b.capacity) (hne : t ≠ s) : b.index t ≠ b.index s := by
  rw [index_eq_mod h, index_eq_mod h]
  intro hm
  have h1 := Nat.sub_mod_eq_zero_of_mod_eq hm
  have h2 := Nat.sub_mod_eq_zero_of_mod_eq hm.symm
  rw [Nat.mod_eq_of_lt (by omega)] at h1 h2
  omega

lemma find_eq_none_of_index (h : b.find s = some v) (hi : b.index t = b.index s) (hne : t ≠ s) :
    b.find t = none := by
  rw [Option.eq_none_iff_forall_ne_some]
  intro w hf
  rw [find_eq_some_iff] at h hf
  rw [hi, h] at hf
  simp only [Option.some.injEq, Prod.mk.injEq] at hf
  exact hne hf.1.symm

lemma find_erase (h : b.WF) : (b.erase s).find t = if t = s then none else b.find t := by
  unfold erase contains
  rcases hf : b.find s with _ | v
  · by_cases ht : t = s <;> simp [ht, hf]
  · simp only [Option.isSome_some, if_true, find_set h, Option.bind_none]
    by_cases ht : t = s
    · simp [ht]
    · by_cases hi : b.index t = b.index s
      · simp [hi, ht, find_eq_none_of_index hf hi ht]
      · simp [hi, ht]

lemma find_assign (h : b.WF) :
    (b.assign s v).find t = if t = s ∧ b.contains s then some v else b.find t := by
  unfold assign
  by_cases hc : b.contains s
  · obtain ⟨w, hf⟩ := Option.isSome_iff_exists.mp hc
    simp only [hc, if_true, find_set h, Option.bind_some, and_true]
    by_cases ht : t = s
    · simp [ht]
    · by_cases hi : b.index t = b.index s
      · simp [hi, ht, Ne.symm ht, find_eq_none_of_index hf hi ht]
      · simp [hi, ht]
  · simp [hc]

lemma find_insert (h : b.WF) (hfree : b.slot s = none) :
    (b.insert s v).find t = if t = s then some v else b.find t := by
  unfold insert
  rw [find_set h]
  by_cases ht : t = s
  · simp [ht]
  · by_cases hi : b.index t = b.index s
    · have hn : b.find t = none := by
        rw [find, slot, hi]
        rw [slot] at hfree
        rw [hfree]
      simp [hi, ht, Ne.symm ht, hn]
    · simp [hi, ht]

lemma contains_assign (h : b.WF) : (b.assign s v).contains t = b.contains t := by
  rw [contains, find_assign h]
  split
  · next hc =>
    simp [hc.1, hc.2]
  · rfl

lemma contains_erase (h : b.WF) : (b.erase s).contains t ↔ t ≠ s ∧ b.contains t := by
  rw [contains, find_erase h]
  by_cases ht : t = s <;> simp [ht, contains]

lemma contains_insert (h : b.WF) (hfree : b.slot s = none) :
    (b.insert s v).contains t ↔ t = s ∨ b.contains t := by
  rw [contains, find_insert h hfree]
  by_cases ht : t = s <;> simp [ht, contains]

lemma contains_iff : b.contains s ↔ ∃ v, b.find s = some v := Option.isSome_iff_exists

lemma slot_eq_none {base : ℕ} (h : b.WF) (hw : ∀ u, b.contains u → base ≤ u ∧ u < base + b.capacity)
    (hs : base ≤ s ∧ s < base + b.capacity) (hn : b.find s = none) : b.slot s = none := by
  rcases hf : b.slot s with _ | ⟨t, v⟩
  · rfl
  · have hm : b.mSlots[b.index s]? = some (some (t, v)) := by
      simpa [slot, Option.join_eq_some_iff] using hf
    have hi := h.placed _ t v hm
    have ht : b.find t = some v := find_eq_some_iff.mpr (by rw [hi, hm])
    have hne : t ≠ s := by
      rintro rfl
      simp [ht] at hn
    exact absurd hi (index_ne_of_window h hs (hw t (by simp [contains, ht])) hne)

@[simp] lemma capacity_insert : (b.insert s v).capacity = b.capacity := by simp [insert, capacity]

@[simp] lemma capacity_erase : (b.erase s).capacity = b.capacity := by
  unfold erase
  split <;> simp [capacity]

@[simp] lemma capacity_assign : (b.assign s v).capacity = b.capacity := by
  unfold assign
  split <;> simp [capacity]

@[simp] lemma replaced_erase : (b.erase s).replaced = b.replaced := by
  unfold erase
  split <;> rfl

@[simp] lemma replaced_assign : (b.assign s v).replaced = b.replaced := by
  unfold assign
  split <;> rfl

lemma replaced_insert (hfree : b.slot s = none) : (b.insert s v).replaced = b.replaced := by
  simp [insert, hfree]

lemma set_none_of_slot (h : b.WF) (hfree : b.slot s = none) :
    b.mSlots.set (b.index s) none = b.mSlots := by
  have hl := index_lt h s
  rw [slot, List.getElem?_eq_getElem hl, Option.join_some] at hfree
  conv_rhs => rw [← List.set_getElem_self hl, hfree]

lemma entries_insert (h : b.WF) (hfree : b.slot s = none) :
    (b.insert s v).entries.Perm ((s, v) :: b.entries) := by
  have hp := filterMap_set b.mSlots (b.index s) (some (s, v)) (index_lt h s)
  rw [set_none_of_slot h hfree] at hp
  exact hp

lemma entries_erase (h : b.WF) (hf : b.find s = some v) :
    b.entries.Perm ((s, v) :: (b.erase s).entries) := by
  have hl := index_lt h s
  have hp := filterMap_set b.mSlots (b.index s) (some (s, v)) hl
  have hg := find_eq_some_iff.mp hf
  rw [List.getElem?_eq_getElem hl, Option.some.injEq] at hg
  rw [← hg, List.set_getElem_self, hg] at hp
  simpa [entries, erase, contains, hf] using hp

lemma entries_assign {w : α} (h : b.WF) (hf : b.find s = some v) :
    (b.assign s w).entries.Perm ((s, w) :: (b.erase s).entries) := by
  have hp := filterMap_set b.mSlots (b.index s) (some (s, w)) (index_lt h s)
  simpa [entries, assign, erase, contains, hf] using hp

lemma placed_set (h : b.WF) {x : Option (ℕ × α)} (hx : ∀ p ∈ x, p.1 = s) (i u : ℕ) (w : α)
    (hi : (b.mSlots.set (b.index s) x)[i]? = some (some (u, w))) : b.index u = i := by
  rw [List.getElem?_set] at hi
  split at hi
  · next he =>
    split at hi
    · rw [Option.some.injEq] at hi
      rw [← he, ← hx (u, w) hi]
    · simp at hi
  · exact h.placed i u w hi

lemma wf_erase (h : b.WF) : (b.erase s).WF := by
  rcases hf : b.find s with _ | v
  · simpa [erase, contains, hf] using h
  · have hp := (entries_erase h hf).length_eq
    have he : b.erase s = { b with mSlots := b.mSlots.set (b.index s) none, mSize := b.mSize - 1 } := by
      simp [erase, contains, hf]
    refine ⟨?_, ?_, ?_⟩
    · simpa [he] using h.pow
    · intro i u w hi
      rw [he] at hi
      simpa [he, index] using placed_set h (by simp) i u w hi
    · rw [List.length_cons] at hp
      have hs := h.size
      have hm : (b.erase s).mSize = b.mSize - 1 := by rw [he]
      omega

lemma length_set_some (h : b.WF) (x : ℕ × α) {p : ℕ × α} (hp : b.slot s = some p) :
    ((b.mSlots.set (b.index s) (some x)).filterMap id).length = b.entries.length := by
  have hl := index_lt h s
  have hx := (filterMap_set b.mSlots (b.index s) (some x) hl).length_eq
  have hold := (filterMap_set b.mSlots (b.index s) (some p) hl).length_eq
  rw [slot, List.getElem?_eq_getElem hl, Option.join_some] at hp
  rw [← hp, List.set_getElem_self, hp] at hold
  simp only [Option.toList_some, List.length_append, List.length_singleton] at hx hold
  rw [entries]
  omega

lemma wf_insert (h : b.WF) : (b.insert s v).WF where
  pow := by simpa [insert] using h.pow
  placed i u w hi := by
    simpa [insert, index] using placed_set h (x := some (s, v)) (by simp) i u w hi
  size := by
    have hs := h.size
    rcases hslot : b.slot s with _ | p
    · have hp := (entries_insert (v := v) h hslot).length_eq
      have hm : (b.insert s v).mSize = b.mSize + 1 := by simp [insert, hslot]
      rw [List.length_cons] at hp
      omega
    · have hm : (b.insert s v).mSize = b.mSize := by simp [insert, hslot]
      rw [hm, hs]
      exact (length_set_some h (s, v) hslot).symm

lemma wf_assign (h : b.WF) : (b.assign s v).WF := by
  rcases hf : b.find s with _ | w
  · simpa [assign, contains, hf] using h
  · have hp := (entries_assign (w := v) h hf).length_eq
    have hq := (entries_erase h hf).length_eq
    have he : b.assign s v = { b with mSlots := b.mSlots.set (b.index s) (some (s, v)) } := by
      simp [assign, contains, hf]
    refine ⟨?_, ?_, ?_⟩
    · simpa [he] using h.pow
    · intro i u x hi
      rw [he] at hi
      simpa [he, index] using placed_set h (x := some (s, v)) (by simp) i u x hi
    · have hs := h.size
      have hm : (b.assign s v).mSize = b.mSize := by rw [he]
      simp only [List.length_cons] at hp hq
      omega

lemma isEmpty_iff (h : b.WF) : b.isEmpty = true ↔ ∀ s, b.find s = none := by
  rw [isEmpty, beq_iff_eq, h.size, List.length_eq_zero_iff]
  constructor
  · intro he s
    rw [Option.eq_none_iff_forall_ne_some]
    intro v hv
    have hm := (mem_entries_iff h).mpr hv
    simp [he] at hm
  · intro hn
    rw [List.eq_nil_iff_forall_not_mem]
    rintro ⟨s, v⟩ hm
    have hf := (mem_entries_iff h).mp hm
    simp [hn s] at hf

end SequenceBuffer

end NetLink.Channel
