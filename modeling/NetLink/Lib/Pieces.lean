import Mathlib.Data.List.Basic

/-! A sequence of wholes that is read piece by piece: where a reader stands after `n` pieces. -/

namespace NetLink.Lib

variable {α β : Type*} {f : α → List β} {whole done rest more : List α} {a : α} {n i : ℕ}

structure PieceAt (f : α → List β) (whole : List α) (n : ℕ) (done rest : List α) (i : ℕ) : Prop where
  split : whole = done ++ rest
  count : n = (done.flatMap f).length + i
  inside : ∀ a ∈ rest.head?, i < (f a).length
  nil : rest = [] → i = 0

namespace PieceAt

lemma zero (hf : ∀ a, 0 < (f a).length) (whole : List α) : PieceAt f whole 0 [] whole 0 :=
  ⟨rfl, rfl, fun a _ => hf a, fun _ => rfl⟩

lemma lt_length (h : PieceAt f whole n done (a :: rest) i) : i < (f a).length := h.inside a rfl

lemma getElem? (h : PieceAt f whole n done (a :: rest) i) : (whole.flatMap f)[n]? = (f a)[i]? := by
  rw [h.split, h.count, List.flatMap_append, List.getElem?_append_right (Nat.le_add_right _ _),
    Nat.add_sub_cancel_left, List.flatMap_cons, List.getElem?_append_left h.lt_length]

lemma getElem?_nil (h : PieceAt f whole n done [] i) : (whole.flatMap f)[n]? = none := by
  rw [h.split, h.count, h.nil rfl, List.append_nil, Nat.add_zero, List.getElem?_eq_none (Nat.le_refl _)]

lemma length_nil (h : PieceAt f whole n done [] i) : n = (whole.flatMap f).length := by
  rw [h.split, h.count, h.nil rfl, List.append_nil, Nat.add_zero]

lemma next (h : PieceAt f whole n done (a :: rest) i) (hi : i + 1 < (f a).length) :
    PieceAt f whole (n + 1) done (a :: rest) (i + 1) where
  split := h.split
  count := by rw [h.count, Nat.add_assoc]
  inside b hb := by
    obtain rfl := Option.some.inj hb
    exact hi
  nil hr := absurd hr (List.cons_ne_nil _ _)

lemma finish (hf : ∀ a, 0 < (f a).length) (h : PieceAt f whole n done (a :: rest) i) (hi : ¬i + 1 < (f a).length) :
    PieceAt f whole (n + 1) (done ++ [a]) rest 0 where
  split := by rw [h.split, List.append_assoc, List.singleton_append]
  count := by
    have hl := h.lt_length
    have hc := h.count
    rw [List.flatMap_append, List.length_append, List.flatMap_singleton]
    omega
  inside b _ := hf b
  nil _ := rfl

lemma append_cons (h : PieceAt f whole n done (a :: rest) i) (more : List α) :
    PieceAt f (whole ++ more) n done (a :: (rest ++ more)) i where
  split := by rw [h.split, List.append_assoc, List.cons_append]
  count := h.count
  inside b hb := h.inside b hb
  nil hr := absurd hr (List.cons_ne_nil _ _)

lemma append_nil (hf : ∀ a, 0 < (f a).length) (h : PieceAt f whole n done [] i) (more : List α) :
    PieceAt f (whole ++ more) n done more 0 where
  split := by rw [h.split, List.append_nil]
  count := by rw [h.count, h.nil rfl]
  inside b _ := hf b
  nil _ := rfl

end PieceAt

lemma getElem?_flatMap_append {b : β} (h : (whole.flatMap f)[n]? = some b) :
    ((whole ++ more).flatMap f)[n]? = some b := by
  rw [List.flatMap_append, List.getElem?_append_left (List.getElem?_eq_some_iff.mp h).1, h]

end NetLink.Lib
