import Mathlib.Data.List.Basic
import Mathlib.Tactic.Common

/-! Taking turns: how often others are served between two questions to the same member. -/

namespace NetLink.Lib.Turns

inductive Event (α : Type*)
  | asked (who : α) (served : Bool)
  | joined (who : α)

variable {α : Type*} [DecidableEq α]

def note (p q : α) (n : ℕ) : Event α → ℕ
  | .asked who served => if who = p then 0 else if who = q ∧ served = true then n + 1 else n
  | .joined who => if who = p then 0 else n

def since (p q : α) (events : List (Event α)) : ℕ := events.foldl (note p q) 0

def Event.who : Event α → α
  | .asked who _ | .joined who => who

def Event.serves (q : α) : Event α → Bool
  | .asked who served => who = q ∧ served = true
  | .joined _ => false

variable {p q x : α} {events : List (Event α)} {served : Bool}

lemma since_concat (e : Event α) : since p q (events ++ [e]) = note p q (since p q events) e := by
  simp [since]

lemma since_asked_self : since x q (events ++ [.asked x served]) = 0 := by simp [since_concat, note]

lemma since_asked_le (hp : x ≠ p) : since p x (events ++ [.asked x served]) ≤ since p x events + 1 := by
  rw [since_concat, note, if_neg hp]
  split <;> omega

lemma since_asked_of_ne (hp : x ≠ p) (hq : x ≠ q) :
    since p q (events ++ [.asked x served]) = since p q events := by
  simp [since_concat, note, hp, hq]

lemma since_unserved (hp : x ≠ p) : since p q (events ++ [.asked x false]) = since p q events := by
  simp [since_concat, note, hp]

lemma since_joined_self : since x q (events ++ [.joined x]) = 0 := by simp [since_concat, note]

lemma since_joined_of_ne (hp : x ≠ p) : since p q (events ++ [.joined x]) = since p q events := by
  simp [since_concat, note, hp]

lemma note_of_who {e : Event α} (h : e.who = p) (n : ℕ) : note p q n e = 0 := by
  cases e <;> exact if_pos h

lemma foldl_note (h : ∀ e ∈ events, e.who ≠ p) (n : ℕ) :
    events.foldl (note p q) n = n + events.countP (Event.serves q) := by
  induction events generalizing n with
  | nil => rfl
  | cons e events ih =>
    obtain ⟨he, hevents⟩ := List.forall_mem_cons.mp h
    rw [List.foldl_cons, ih hevents, List.countP_cons]
    cases e with
    | asked who served =>
      have hwho : who ≠ p := he
      simp only [note, if_neg hwho, Event.serves, decide_eq_true_eq]
      split <;> omega
    | joined who =>
      have hwho : who ≠ p := he
      simp [note, hwho, Event.serves]

lemma since_eq_countP {pre : List (Event α)} {e : Event α} (he : e.who = p) (h : ∀ e ∈ events, e.who ≠ p) :
    since p q (pre ++ e :: events) = events.countP (Event.serves q) := by
  rw [since, List.foldl_append, List.foldl_cons, note_of_who he, foldl_note h, Nat.zero_add]

structure Fair (quantum : ℕ) (order : List α) (used : ℕ) (events : List (Event α)) : Prop where
  room : used < quantum
  nodup : order.Nodup
  bounded : ∀ p ∈ order, ∀ q ≠ p, since p q events ≤ quantum
  first : ∀ p ∈ order.tail, ∀ x ∈ order.head?, since p x events ≤ used
  behind : order.tail.Pairwise fun q p => since p q events = 0

namespace Fair

variable {quantum used : ℕ} {order rest todo done : List α}

lemma asked_bounded (h : Fair quantum (x :: rest) used events) :
    ∀ p ∈ x :: rest, ∀ q ≠ p, since p q (events ++ [.asked x served]) ≤ quantum := by
  intro p hp q hq
  by_cases hx : x = p
  · subst hx
    rw [since_asked_self]
    exact Nat.zero_le _
  by_cases hxq : x = q
  · subst hxq
    have hp : p ∈ rest := by simpa [Ne.symm hx] using hp
    have hfirst := h.first p hp x rfl
    have hle : since p x (events ++ [.asked x served]) ≤ since p x events + 1 := since_asked_le hx
    have hroom := h.room
    omega
  · rw [since_asked_of_ne hx hxq]
    exact h.bounded p hp q hq

lemma asked_behind (h : Fair quantum (x :: rest) used events) :
    rest.Pairwise fun q p => since p q (events ++ [.asked x served]) = 0 := by
  refine h.behind.imp_of_mem ?_
  intro q p hq hp hzero
  have hx : ∀ y ∈ rest, x ≠ y := fun y hy he => (List.nodup_cons.mp h.nodup).1 (he ▸ hy)
  rw [since_asked_of_ne (hx p hp) (hx q hq), hzero]

lemma stay (h : Fair quantum (x :: rest) used events) {used' : ℕ} (hu : used' < quantum)
    (hn : used' = used ∧ served = false ∨ used' = used + 1) :
    Fair quantum (x :: rest) used' (events ++ [.asked x served]) where
  room := hu
  nodup := h.nodup
  bounded := h.asked_bounded
  first := by
    rintro p hp _ ⟨⟩
    have hx : x ≠ p := fun he => (List.nodup_cons.mp h.nodup).1 (he ▸ hp)
    have hfirst := h.first p hp x rfl
    rcases hn with ⟨rfl, rfl⟩ | rfl
    · rwa [since_unserved hx]
    · have hle : since p x (events ++ [.asked x served]) ≤ since p x events + 1 := since_asked_le hx
      omega
  behind := h.asked_behind

lemma pass (h : Fair quantum (x :: rest) used events) :
    Fair quantum (rest ++ [x]) 0 (events ++ [.asked x served]) := by
  have hbehind : (rest ++ [x]).Pairwise fun q p => since p q (events ++ [.asked x served]) = 0 := by
    refine List.pairwise_append.mpr ⟨h.asked_behind, List.pairwise_singleton _ _, ?_⟩
    intro q hq p hp
    rw [List.mem_singleton.mp hp]
    exact since_asked_self
  refine ⟨Nat.zero_lt_of_lt h.room, ?_, ?_, ?_, ?_⟩
  · exact (List.perm_append_singleton x rest).nodup_iff.mpr h.nodup
  · intro p hp
    exact h.asked_bounded p (by simpa [or_comm] using hp)
  · cases horder : rest ++ [x] with
    | nil => simp
    | cons y order =>
      rintro p hp _ ⟨⟩
      rw [horder] at hbehind
      exact Nat.le_of_eq ((List.pairwise_cons.mp hbehind).1 p hp)
  · exact hbehind.sublist (List.tail_sublist _)

lemma leave (h : Fair quantum (x :: rest) used events) : Fair quantum rest 0 (events ++ [.asked x served]) := by
  have hbehind : rest.Pairwise fun q p => since p q (events ++ [.asked x served]) = 0 := h.asked_behind
  refine ⟨Nat.zero_lt_of_lt h.room, (List.nodup_cons.mp h.nodup).2, ?_, ?_, hbehind.sublist (List.tail_sublist _)⟩
  · exact fun p hp => h.asked_bounded p (List.mem_cons_of_mem _ hp)
  · cases rest with
    | nil => simp
    | cons y rest =>
      rintro p hp _ ⟨⟩
      exact Nat.le_of_eq ((List.pairwise_cons.mp hbehind).1 p hp)

lemma joined_behind {l : List α} (hq : q ∉ l) (hp : l.Pairwise fun q p => since p q events = 0) :
    l.Pairwise fun y p => since p y (events ++ [.joined q]) = 0 := by
  refine hp.imp_of_mem ?_
  intro y p _ hp hzero
  have hne : q ≠ p := by
    rintro rfl
    exact hq hp
  rwa [since_joined_of_ne hne]

lemma join (h : Fair quantum (todo ++ done) used events) (hq : q ∉ todo ++ done)
    (hs : ∀ p ∈ done, since p q events = 0) (hu : todo = [] → used = 0) :
    Fair quantum (todo ++ q :: done) used (events ++ [.joined q]) := by
  have hne : ∀ p ∈ todo ++ done, q ≠ p := fun p hp he => hq (he ▸ hp)
  have hnew : ∀ p ∈ done, since p q (events ++ [.joined q]) = 0 := fun p hp => by
    rw [since_joined_of_ne (hne p (List.mem_append_right _ hp)), hs p hp]
  have hperm : List.Perm (todo ++ q :: done) (q :: (todo ++ done)) := List.perm_middle
  refine ⟨h.room, hperm.nodup_iff.mpr (List.nodup_cons.mpr ⟨hq, h.nodup⟩), ?_, ?_, ?_⟩
  · intro p hp y hy
    rcases List.mem_cons.mp (hperm.mem_iff.mp hp) with rfl | hp
    · rw [since_joined_self]
      exact Nat.zero_le _
    · rw [since_joined_of_ne (hne p hp)]
      exact h.bounded p hp y hy
  · cases todo with
    | nil =>
      rintro p hp _ ⟨⟩
      rw [hnew p hp]
      exact Nat.zero_le _
    | cons x todo =>
      rintro p hp _ ⟨⟩
      have hp : p ∈ todo ++ q :: done := hp
      rcases List.mem_cons.mp (List.perm_middle.mem_iff.mp hp) with rfl | hp
      · rw [since_joined_self]
        exact Nat.zero_le _
      · rw [since_joined_of_ne (hne p (List.mem_cons_of_mem _ hp))]
        exact h.first p hp x rfl
  · cases todo with
    | nil =>
      refine joined_behind hq ?_
      cases done with
      | nil => exact .nil
      | cons x done =>
        refine List.pairwise_cons.mpr ⟨fun p hp => ?_, h.behind⟩
        have hfirst := h.first p hp x rfl
        rw [hu rfl] at hfirst
        exact Nat.le_zero.mp hfirst
    | cons x todo =>
      have hold : (todo ++ done).Pairwise fun y p => since p y (events ++ [.joined q]) = 0 :=
        joined_behind (fun hmem => hq (List.mem_cons_of_mem _ hmem)) h.behind
      obtain ⟨htodo, hdone, hcross⟩ := List.pairwise_append.mp hold
      have hafter : (q :: done).Pairwise fun y p => since p y (events ++ [.joined q]) = 0 :=
        List.pairwise_cons.mpr ⟨hnew, hdone⟩
      refine List.pairwise_append.mpr ⟨htodo, hafter, fun y hy p hp => ?_⟩
      rcases List.mem_cons.mp hp with rfl | hp
      · exact since_joined_self
      · exact hcross y hy p hp

end Fair

end NetLink.Lib.Turns
