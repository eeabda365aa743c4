import Mathlib.Algebra.Order.Ring.Rat
import Mathlib.Tactic.Linarith
import Mathlib.Tactic.Ring
import NetLink.Lib.System

/-! A token bucket: it fills at a constant rate up to its size, is asked for one token at a time, and may be
charged below zero without being asked. -/

namespace NetLink.Lib

structure Bucket where
  tokens : ℚ
  filledAt : Option ℤ := none
  deriving DecidableEq

namespace Bucket

inductive Event
  | fill (time : ℤ)
  | ask (granted : Bool)
  | charge (n : ℕ)
  deriving DecidableEq

variable (rate size : ℚ)

def fill (b : Bucket) (time : ℤ) : Bucket where
  tokens := match b.filledAt with
    | none => b.tokens
    | some t => if t < time then min size (b.tokens + rate * (time - t : ℤ)) else b.tokens
  filledAt := some time

def step (b : Bucket) : Event → Bucket
  | .fill time => b.fill rate size time
  | .ask granted => { b with tokens := b.tokens - if granted then 1 else 0 }
  | .charge n => { b with tokens := b.tokens - n }

def Admits (b : Bucket) : Event → Prop
  | .fill time => ∀ t ∈ b.filledAt, t ≤ time
  | .ask _ => 1 ≤ b.tokens
  | .charge _ => True

def granted (events : List Event) : ℕ := events.countP (· == .ask true)

variable {rate size} {b : Bucket} {events : List Event}

lemma tokens_fill_le (hb : b.tokens ≤ size) (time : ℤ) : (b.fill rate size time).tokens ≤ size := by
  rw [fill]
  split
  · exact hb
  · split
    · exact min_le_left ..
    · exact hb

lemma tokens_step_le (hb : b.tokens ≤ size) (e : Event) : (b.step rate size e).tokens ≤ size := by
  cases e with
  | fill time => exact tokens_fill_le hb time
  | ask granted => cases granted <;> simp only [step] <;> norm_num <;> linarith
  | charge n =>
    have hn : (0 : ℚ) ≤ n := Nat.cast_nonneg n
    simp only [step]
    linarith

lemma tokens_foldl_le (hb : b.tokens ≤ size) : (events.foldl (step rate size) b).tokens ≤ size := by
  induction events generalizing b with
  | nil => exact hb
  | cons e events ih => exact ih (tokens_step_le hb e)

structure Spent (rate limit : ℚ) (start : ℤ) (n : ℕ) (b : Bucket) : Prop where
  filled : ∃ time, b.filledAt = some time ∧ start ≤ time ∧ b.tokens + n ≤ limit + rate * (time - start : ℤ) ∧
    (n : ℚ) ≤ limit + rate * (time - start : ℤ)

lemma Spent.admitted {limit : ℚ} {start : ℤ} {n : ℕ} (hr : 0 ≤ rate) (h : Spent rate limit start n b) {e : Event}
    (ha : b.Admits e) : Spent rate limit start (n + granted [e]) (b.step rate size e) := by
  obtain ⟨time, ht, hle, htokens, hn⟩ := h.filled
  cases e with
  | fill now =>
    have hnow : time ≤ now := ha time ht
    have hgain : rate * (time - start : ℤ) ≤ rate * (now - start : ℤ) :=
      mul_le_mul_of_nonneg_left (by exact_mod_cast Int.sub_le_sub_right hnow start) hr
    have hsum : rate * (now - start : ℤ) = rate * (time - start : ℤ) + rate * (now - time : ℤ) := by
      rw [← mul_add]
      push_cast
      ring
    have hzero : granted [Event.fill now] = 0 := rfl
    rw [hzero, Nat.add_zero]
    refine ⟨now, rfl, hle.trans hnow, ?_, by linarith⟩
    have hfill : (b.fill rate size now).tokens ≤ b.tokens + rate * (now - time : ℤ) := by
      have hgain' : 0 ≤ rate * (now - time : ℤ) := mul_nonneg hr (by exact_mod_cast Int.sub_nonneg.mpr hnow)
      rw [fill, ht]
      dsimp only
      split
      · exact min_le_right ..
      · linarith
    rw [hsum]
    simp only [step]
    linarith
  | ask served =>
    have hone : 1 ≤ b.tokens := ha
    cases served with
    | true =>
      have hgranted : granted [Event.ask true] = 1 := rfl
      rw [hgranted]
      refine ⟨time, ht, hle, ?_, ?_⟩
      · simp only [step, if_true, Nat.cast_add, Nat.cast_one]
        linarith
      · rw [Nat.cast_add, Nat.cast_one]
        linarith
    | false =>
      have hgranted : granted [Event.ask false] = 0 := rfl
      rw [hgranted, Nat.add_zero]
      refine ⟨time, ht, hle, ?_, hn⟩
      simp only [step, Bool.false_eq_true, if_false, sub_zero]
      exact htokens
  | charge k =>
    have hk : (0 : ℚ) ≤ k := Nat.cast_nonneg k
    have hgranted : granted [Event.charge k] = 0 := rfl
    rw [hgranted, Nat.add_zero]
    refine ⟨time, ht, hle, ?_, hn⟩
    simp only [step]
    linarith

lemma Spent.foldl {limit : ℚ} {start : ℤ} {n : ℕ} (hr : 0 ≤ rate) (h : Spent rate limit start n b)
    (ha : Along Admits (step rate size) b events) :
    Spent rate limit start (n + granted events) (events.foldl (step rate size) b) := by
  induction events generalizing b n with
  | nil => exact h
  | cons e events ih =>
    have hnext := ih (h.admitted hr ha.1) ha.2
    have hcount : granted (e :: events) = granted [e] + granted events := by
      rw [granted, granted, granted, ← List.countP_append]
      rfl
    rw [hcount, ← Nat.add_assoc]
    exact hnext

lemma granted_le {start time : ℤ} (hr : 0 ≤ rate) (hb : b.tokens ≤ size) (hstart : 0 ≤ size)
    (ha : Along Admits (step rate size) (b.fill rate size start) events)
    (ht : (events.foldl (step rate size) (b.fill rate size start)).filledAt = some time) :
    (granted events : ℚ) ≤ size + rate * (time - start : ℤ) := by
  have hinit : Spent rate size start 0 (b.fill rate size start) := by
    refine ⟨start, rfl, le_rfl, ?_, ?_⟩ <;> rw [sub_self] <;> push_cast
    · have hfill : (b.fill rate size start).tokens ≤ size := tokens_fill_le hb start
      linarith
    · linarith
  obtain ⟨last, hlast, -, -, hle⟩ := (hinit.foldl hr ha).filled
  obtain rfl : last = time := Option.some.inj (hlast.symm.trans ht)
  rwa [Nat.zero_add] at hle

end Bucket

end NetLink.Lib
