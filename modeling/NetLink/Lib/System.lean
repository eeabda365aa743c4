import Mathlib.Logic.Relation

/-! Transition systems: what a run can reach, and what holds along it. -/

namespace NetLink.Lib

structure System (σ : Type*) where
  init : σ → Prop
  step : σ → σ → Prop

namespace System

variable {σ τ : Type*} {S : System σ} {T : System τ} {s t : σ}

def Steps (S : System σ) : σ → σ → Prop := Relation.ReflTransGen S.step

def Reachable (S : System σ) (s : σ) : Prop := ∃ s₀, S.init s₀ ∧ S.Steps s₀ s

lemma Reachable.of_init (h : S.init s) : S.Reachable s := ⟨s, h, .refl⟩

lemma Reachable.step (h : S.Reachable s) (hs : S.step s t) : S.Reachable t := by
  obtain ⟨s₀, hi, hr⟩ := h
  exact ⟨s₀, hi, hr.tail hs⟩

lemma Reachable.steps (h : S.Reachable s) (hs : S.Steps s t) : S.Reachable t := by
  obtain ⟨s₀, hi, hr⟩ := h
  exact ⟨s₀, hi, hr.trans hs⟩

lemma Reachable.invariant {P : σ → Prop} (hinit : ∀ s, S.init s → P s)
    (hstep : ∀ s t, S.Reachable s → P s → S.step s t → P t) (h : S.Reachable s) : P s := by
  obtain ⟨s₀, hi, hr⟩ := h
  induction hr with
  | refl => exact hinit _ hi
  | tail hr ht ih => exact hstep _ _ ⟨s₀, hi, hr⟩ ih ht

lemma Reachable.persists {P : σ → Prop} (hstep : ∀ s t, S.Reachable s → P s → S.step s t → P t) (h : S.Reachable s)
    (hr : S.Steps s t) (hs : P s) : P t := by
  induction hr with
  | refl => exact hs
  | tail hr ht ih => exact hstep _ _ (h.steps hr) ih ht

end System

def Along {σ α : Type*} (P : σ → α → Prop) (f : σ → α → σ) : σ → List α → Prop
  | _, [] => True
  | s, a :: as => P s a ∧ Along P f (f s a) as

variable {σ α : Type*} {P Q : σ → α → Prop} {f : σ → α → σ} {s : σ} {as : List α}

instance Along.decidable [∀ s a, Decidable (P s a)] :
    ∀ (s : σ) (as : List α), Decidable (Along P f s as)
  | _, [] => .isTrue trivial
  | s, a :: as => @instDecidableAnd _ _ _ (Along.decidable (f s a) as)

lemma along_of_mem : ∀ (as : List α) (s : σ), (∀ s, ∀ a ∈ as, P s a) → Along P f s as
  | [], _, _ => trivial
  | a :: as, s, h =>
    ⟨h s a List.mem_cons_self, along_of_mem as (f s a) fun s b hb => h s b (List.mem_cons_of_mem a hb)⟩

lemma along_of_forall (h : ∀ s a, P s a) : ∀ (as : List α) (s : σ), Along P f s as
  | [], _ => trivial
  | a :: as, s => ⟨h s a, along_of_forall h as (f s a)⟩

lemma Along.mono (h : ∀ s a, P s a → Q s a) :
    ∀ {as : List α} {s : σ}, Along P f s as → Along Q f s as
  | [], _, _ => trivial
  | _ :: _, _, ⟨ha, has⟩ => ⟨h _ _ ha, has.mono h⟩

lemma along_append {bs : List α} :
    Along P f s (as ++ bs) ↔ Along P f s as ∧ Along P f (as.foldl f s) bs := by
  induction as generalizing s with
  | nil => simp [Along]
  | cons a as ih =>
    rw [List.cons_append, Along, ih, Along, List.foldl_cons, and_assoc]

lemma System.Reachable.along {S : System σ} (hstep : ∀ s a, P s a → S.step s (f s a)) (h : S.Reachable s)
    (has : Along P f s as) : S.Reachable (as.foldl f s) := by
  induction as generalizing s with
  | nil => exact h
  | cons a as ih => exact ih (h.step (hstep s a has.1)) has.2

lemma foldl_filter_related {R : σ → σ → Prop} {p : α → Bool}
    (hsame : ∀ s t, ∀ a ∈ as, p a = true → R s t → R (f s a) (f t a))
    (hskip : ∀ s t, ∀ a ∈ as, p a = false → R s t → R (f s a) t) {s t : σ} (h : R s t) :
    R (as.foldl f s) ((as.filter p).foldl f t) := by
  induction as generalizing s t with
  | nil => exact h
  | cons a as ih =>
    have ih := @ih (fun s t b hb => hsame s t b (List.mem_cons_of_mem a hb))
      (fun s t b hb => hskip s t b (List.mem_cons_of_mem a hb))
    rw [List.foldl_cons]
    cases hp : p a with
    | true =>
      rw [List.filter_cons_of_pos hp, List.foldl_cons]
      exact ih (hsame s t a List.mem_cons_self hp h)
    | false =>
      rw [List.filter_cons_of_neg (by rw [hp]; exact Bool.false_ne_true)]
      exact ih (hskip s t a List.mem_cons_self hp h)

end NetLink.Lib
