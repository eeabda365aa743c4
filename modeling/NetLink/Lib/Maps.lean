import Mathlib.Data.List.Perm.Basic
import Mathlib.Tactic.Linarith

/-! Ordered maps: the keys whose entries have a property, and how many they are. -/

namespace NetLink.Lib

open Std (TreeMap TransOrd LawfulEqOrd)

variable {α β : Type} [Ord α] {s t : TreeMap α β}

lemma values_eq_map_toList (t : TreeMap α β) : t.values = t.toList.map Prod.snd := by
  have hfold : t.values = t.foldr (fun _ v l => v :: l) [] := rfl
  rw [hfold, TreeMap.foldr_eq_foldr_toList]
  induction t.toList with
  | nil => rfl
  | cons x xs ih => rw [List.foldr_cons, List.map_cons, ih]

def keysWhere (t : TreeMap α β) (P : β → Bool) : List α := (t.toList.filter fun x => P x.2).map Prod.fst

lemma length_keysWhere (P : β → Bool) : (keysWhere t P).length = t.values.countP P := by
  rw [keysWhere, List.length_map, values_eq_map_toList, List.countP_map, List.countP_eq_length_filter]
  rfl

variable [TransOrd α]

lemma nodup_keysWhere (P : β → Bool) : (keysWhere t P).Nodup := by
  have hkeys : (t.toList.map Prod.fst).Nodup := by
    rw [TreeMap.map_fst_toList_eq_keys]
    exact TreeMap.nodup_keys
  exact hkeys.sublist (List.filter_sublist.map _)

variable [LawfulEqOrd α]

lemma mem_values_iff {v : β} : v ∈ t.values ↔ ∃ k : α, t[k]? = some v := by
  rw [values_eq_map_toList, List.mem_map]
  constructor
  · rintro ⟨⟨k, w⟩, hk, rfl⟩
    exact ⟨k, TreeMap.mem_toList_iff_getElem?_eq_some.mp hk⟩
  · rintro ⟨k, hk⟩
    exact ⟨(k, v), TreeMap.mem_toList_iff_getElem?_eq_some.mpr hk, rfl⟩

lemma mem_keysWhere_iff {P : β → Bool} {k : α} : k ∈ keysWhere t P ↔ ∃ v, t[k]? = some v ∧ P v = true := by
  simp only [keysWhere, List.mem_map, List.mem_filter]
  constructor
  · rintro ⟨⟨k, v⟩, ⟨hk, hv⟩, rfl⟩
    exact ⟨v, TreeMap.mem_toList_iff_getElem?_eq_some.mp hk, hv⟩
  · rintro ⟨v, hk, hv⟩
    exact ⟨(k, v), ⟨TreeMap.mem_toList_iff_getElem?_eq_some.mpr hk, hv⟩, rfl⟩

lemma size_le_of_subset (h : ∀ k ∈ s, k ∈ t) : s.size ≤ t.size := by
  rw [← TreeMap.length_keys, ← TreeMap.length_keys]
  refine (List.subperm_of_subset TreeMap.nodup_keys fun k hk => ?_).length_le
  exact TreeMap.mem_keys.mpr (h k (TreeMap.mem_keys.mp hk))

lemma size_le_succ_of_subset {x : α} (h : ∀ k ∈ s, k ≠ x → k ∈ t) : s.size ≤ t.size + 1 := by
  rw [← TreeMap.length_keys, ← TreeMap.length_keys]
  have hsub : s.keys ⊆ x :: t.keys := by
    intro k hk
    by_cases hx : k = x
    · exact List.mem_cons.mpr (.inl hx)
    · exact List.mem_cons_of_mem x (TreeMap.mem_keys.mpr (h k (TreeMap.mem_keys.mp hk) hx))
  exact (List.subperm_of_subset TreeMap.nodup_keys hsub).length_le

lemma countP_values_le {P Q : β → Bool} (h : ∀ (k : α) (v : β), s[k]? = some v → P v = true →
    ∃ w, t[k]? = some w ∧ Q w = true) :
    s.values.countP P ≤ t.values.countP Q := by
  rw [← length_keysWhere, ← length_keysWhere]
  refine (List.subperm_of_subset (nodup_keysWhere P) fun k hk => ?_).length_le
  obtain ⟨v, hv, hp⟩ := mem_keysWhere_iff.mp hk
  exact mem_keysWhere_iff.mpr (h k v hv hp)

lemma countP_values_le_succ {P Q : β → Bool} {x : α}
    (h : ∀ (k : α) (v : β), k ≠ x → s[k]? = some v → P v = true → ∃ w, t[k]? = some w ∧ Q w = true) :
    s.values.countP P ≤ t.values.countP Q + 1 := by
  rw [← length_keysWhere, ← length_keysWhere]
  have hsub : keysWhere s P ⊆ x :: keysWhere t Q := by
    intro k hk
    by_cases hx : k = x
    · exact List.mem_cons.mpr (.inl hx)
    · obtain ⟨v, hv, hp⟩ := mem_keysWhere_iff.mp hk
      exact List.mem_cons_of_mem x (mem_keysWhere_iff.mpr (h k v hx hv hp))
  exact (List.subperm_of_subset (nodup_keysWhere P) hsub).length_le

end NetLink.Lib
