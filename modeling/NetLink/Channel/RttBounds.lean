import Mathlib.Algebra.Order.Ring.Int
import Mathlib.Data.Int.ConditionallyCompleteOrder
import Mathlib.Data.List.MinMax
import Mathlib.Order.ConditionallyCompleteLattice.Basic
import Mathlib.Tactic.Ring
import NetLink.Channel.RttEstimator

/-! What the estimator can tell after any samples and resets, and that its 64-bit durations do not overflow on the
way. -/

namespace NetLink.Channel.RttEstimator

variable {r : RttEstimator} {lo hi a b : ℤ}

lemma le_clampTo (h : lo ≤ hi) (a : ℤ) : lo ≤ clampTo lo hi a := by
  rw [clampTo]
  split
  · exact le_rfl
  · split <;> omega

lemma clampTo_le (h : lo ≤ hi) (a : ℤ) : clampTo lo hi a ≤ hi := by
  rw [clampTo]
  split
  · exact h
  · split <;> omega

lemma clampTo_eq_min (h : lo ≤ a) : clampTo lo hi a = min hi a := by
  rw [clampTo, if_neg (by omega)]
  split <;> omega

lemma le_backOff (n : ℕ) (h : 0 ≤ a) : a ≤ backOff hi n a := by
  induction n generalizing a with
  | zero => exact le_rfl
  | succ n ih =>
    rw [backOff]
    split
    · have := ih (a := a * 2) (by omega)
      omega
    · exact le_rfl

lemma min_backOff (n : ℕ) (h : 0 ≤ a) : min hi (backOff hi n a) = min hi (a * 2 ^ n) := by
  induction n generalizing a with
  | zero => rw [backOff, pow_zero, mul_one]
  | succ n ih =>
    have hpow : a * 2 ^ (n + 1) = a * 2 * 2 ^ n := by ring
    rw [backOff]
    split
    · rw [ih (by omega), hpow]
    · have hle : a * 1 ≤ a * 2 ^ (n + 1) := mul_le_mul_of_nonneg_left (one_le_pow₀ one_le_two) h
      omega

lemma timeoutFor_eq (hpos : 0 ≤ r.mMinRto) (h : r.mMinRto ≤ r.mRto) (n : ℕ) :
    r.timeoutFor n = min r.mMaxRto (r.mRto * 2 ^ n) := by
  have hr : 0 ≤ r.mRto := by omega
  rw [timeoutFor, clamp, clampTo_eq_min (h.trans (le_backOff n hr)), min_backOff n hr]

lemma monotone_timeoutFor (hpos : 0 ≤ r.mMinRto) (h : r.mMinRto ≤ r.mRto) : Monotone r.timeoutFor := by
  intro m n hmn
  have hpow : (2 : ℤ) ^ m ≤ 2 ^ n := pow_le_pow_right₀ one_le_two hmn
  rw [timeoutFor_eq hpos h, timeoutFor_eq hpos h]
  exact min_le_min_left _ (mul_le_mul_of_nonneg_left hpow (by omega))

/-! Durations are signed 64-bit counts: an operation whose result does not fit has no defined value. -/

def checked (value : ℤ) : Option ℤ := if -2 ^ 63 ≤ value ∧ value < 2 ^ 63 then some value else none

def addSampleChecked (r : RttEstimator) (rtt : ℤ) : Option RttEstimator :=
  if rtt < 0 then some r
  else do
    let r ← if !r.mHasSample then
        some { r with mSrtt := rtt, mRttVar := rtt.tdiv 2, mHasSample := true }
      else do
        let delta ← checked (if r.mSrtt > rtt then r.mSrtt - rtt else rtt - r.mSrtt)
        let tripled ← checked (r.mRttVar * 3)
        let deviation ← checked (tripled + delta)
        let smoothed ← checked (r.mSrtt * 7)
        let total ← checked (smoothed + rtt)
        some { r with mRttVar := deviation.tdiv 4, mSrtt := total.tdiv 8 }
    let margin ← checked (r.mRttVar * 4)
    let rto ← checked (r.mSrtt + max 1000 margin)
    some { r with mRto := r.clamp rto }

def backOffChecked (maxRto : ℤ) : ℕ → ℤ → Option ℤ
  | 0, timeout => some timeout
  | n + 1, timeout =>
    if timeout < maxRto then do
      let doubled ← checked (timeout * 2)
      backOffChecked maxRto n doubled
    else some timeout

def timeoutForChecked (r : RttEstimator) (attempt : ℕ) : Option ℤ :=
  (backOffChecked r.mMaxRto attempt r.mRto).map r.clamp

lemma checked_eq (h : -2 ^ 63 ≤ a) (h' : a < 2 ^ 63) : checked a = some a := if_pos ⟨h, h'⟩

lemma backOffChecked_eq (n : ℕ) (hhi : hi ≤ 2 ^ 62) (h : 0 ≤ a) :
    backOffChecked hi n a = some (backOff hi n a) := by
  induction n generalizing a with
  | zero => rfl
  | succ n ih =>
    rw [backOffChecked, backOff]
    split
    · rw [checked_eq (by omega) (by omega), Option.bind_eq_bind, Option.bind_some, ih (by omega)]
    · rfl

inductive Event
  | sample (rtt : ℤ)
  | reset

def Event.apply : Event → RttEstimator → RttEstimator
  | .sample rtt, r => r.addSample rtt
  | .reset, r => r.reset

def Event.applyChecked : Event → RttEstimator → Option RttEstimator
  | .sample rtt, r => r.addSampleChecked rtt
  | .reset, r => some r.reset

def Event.collect (samples : List ℤ) : Event → List ℤ
  | .sample rtt => if rtt < 0 then samples else samples ++ [rtt]
  | .reset => []

def Event.Fits : Event → Prop
  | .sample rtt => -2 ^ 63 ≤ 8 * rtt ∧ 8 * rtt < 2 ^ 63
  | .reset => True

def samplesOf (events : List Event) : List ℤ := events.foldl Event.collect []

def run (r : RttEstimator) (events : List Event) : RttEstimator := events.foldl (fun r e => e.apply r) r

def runChecked (r : RttEstimator) (events : List Event) : Option RttEstimator :=
  events.foldlM (fun r e => e.applyChecked r) r

structure Tracks (lo hi : ℤ) (samples : List ℤ) (r : RttEstimator) : Prop where
  minRto : r.mMinRto = lo
  maxRto : r.mMaxRto = hi
  rto : lo ≤ r.mRto ∧ r.mRto ≤ hi
  hasSample : r.mHasSample = !samples.isEmpty
  accepted : ∀ s ∈ samples, 0 ≤ s ∧ 8 * s < 2 ^ 63
  rttVar : 0 ≤ r.mRttVar
  lower : samples ≠ [] → ∀ m, (∀ s ∈ samples, m ≤ s) → m ≤ r.mSrtt
  upper : samples ≠ [] → ∀ m, (∀ s ∈ samples, s ≤ m) → r.mSrtt ≤ m ∧ r.mRttVar ≤ m

variable {samples : List ℤ} {rtt : ℤ}

lemma tracks_new (initialRto : ℤ) (h : lo ≤ hi) : (new initialRto lo hi).Tracks (lo * 1000) (hi * 1000) [] where
  minRto := rfl
  maxRto := rfl
  rto := ⟨le_clampTo (by omega) _, clampTo_le (by omega) _⟩
  hasSample := rfl
  accepted := nofun
  rttVar := le_rfl
  lower := fun h => absurd rfl h
  upper := fun h => absurd rfl h

lemma Tracks.reset (h : r.Tracks lo hi samples) (hle : lo ≤ hi) : r.reset.Tracks lo hi [] where
  minRto := h.minRto
  maxRto := h.maxRto
  rto := by
    rw [← h.minRto, ← h.maxRto] at hle ⊢
    exact ⟨le_clampTo hle _, clampTo_le hle _⟩
  hasSample := rfl
  accepted := nofun
  rttVar := le_rfl
  lower := fun h => absurd rfl h
  upper := fun h => absurd rfl h

lemma addSampleChecked_first (h : r.mHasSample = false) (hpos : 0 ≤ rtt) (hfit : 8 * rtt < 2 ^ 63) :
    r.addSampleChecked rtt = some (r.addSample rtt) := by
  have htdiv := Int.tdiv_eq_ediv_of_nonneg hpos (b := 2)
  simp only [addSampleChecked, addSample, h, Bool.not_false, if_true, if_neg (not_lt.mpr hpos),
    Option.bind_eq_bind,
    Option.bind_some, htdiv]
  rw [checked_eq (by omega) (by omega), Option.bind_some, checked_eq (by omega) (by omega), Option.bind_some]

lemma addSampleChecked_next (h : r.mHasSample = true) (hpos : 0 ≤ rtt) (hfit : 8 * rtt < 2 ^ 63)
    (hsrtt : 0 ≤ r.mSrtt) (hsrtt' : 8 * r.mSrtt < 2 ^ 63) (hvar : 0 ≤ r.mRttVar) (hvar' : 8 * r.mRttVar < 2 ^ 63) :
    r.addSampleChecked rtt = some (r.addSample rtt) := by
  simp only [addSampleChecked, addSample, h, Bool.not_true, Bool.false_eq_true, if_false, if_neg (not_lt.mpr hpos),
    Option.bind_eq_bind]
  generalize hd : (if r.mSrtt > rtt then r.mSrtt - rtt else rtt - r.mSrtt) = delta
  have hdelta : 0 ≤ delta ∧ 8 * delta < 2 ^ 63 := by
    rw [← hd]
    split <;> omega
  have hvar4 := Int.tdiv_eq_ediv_of_nonneg (by omega : 0 ≤ r.mRttVar * 3 + delta) (b := 4)
  have hsrtt8 := Int.tdiv_eq_ediv_of_nonneg (by omega : 0 ≤ r.mSrtt * 7 + rtt) (b := 8)
  rw [checked_eq (a := delta) (by omega) (by omega), Option.bind_some, checked_eq (by omega) (by omega),
    Option.bind_some, checked_eq (by omega) (by omega), Option.bind_some, checked_eq (by omega) (by omega),
    Option.bind_some, checked_eq (by omega) (by omega), Option.bind_some, Option.bind_some]
  dsimp only
  rw [checked_eq (by omega) (by omega), Option.bind_some, checked_eq (by omega) (by omega), Option.bind_some]

lemma Tracks.first (h : r.Tracks lo hi []) (hle : lo ≤ hi) (hpos : 0 ≤ rtt) (hfit : 8 * rtt < 2 ^ 63) :
    (r.addSample rtt).Tracks lo hi [rtt] := by
  have htdiv := Int.tdiv_eq_ediv_of_nonneg hpos (b := 2)
  have hnew : r.addSample rtt =
      { r with mSrtt := rtt, mRttVar := rtt.tdiv 2, mHasSample := true
               mRto := r.clamp (rtt + max 1000 (rtt.tdiv 2 * 4)) } := by
    simp only [addSample, h.hasSample, List.isEmpty_nil, Bool.not_true, Bool.not_false, if_true,
      if_neg (not_lt.mpr hpos)]
    rfl
  rw [hnew]
  refine ⟨h.minRto, h.maxRto, ?_, rfl, ?_, by dsimp only; omega, fun _ m hm => ?_, fun _ m hm => ?_⟩
  · rw [clamp, h.minRto, h.maxRto]
    exact ⟨le_clampTo hle _, clampTo_le hle _⟩
  · intro s hs
    obtain rfl := List.mem_singleton.mp hs
    exact ⟨hpos, hfit⟩
  · exact hm rtt (List.mem_singleton_self rtt)
  · have := hm rtt (List.mem_singleton_self rtt)
    dsimp only
    omega

lemma Tracks.next (h : r.Tracks lo hi samples) (hne : samples ≠ []) (hle : lo ≤ hi) (hpos : 0 ≤ rtt)
    (hfit : 8 * rtt < 2 ^ 63) : (r.addSample rtt).Tracks lo hi (samples ++ [rtt]) := by
  have hseen : r.mHasSample = true := by
    rw [h.hasSample, List.isEmpty_eq_false_iff.mpr hne]
    rfl
  have hnew : ∃ rto, lo ≤ rto ∧ rto ≤ hi ∧ r.addSample rtt =
      { r with mRttVar := (r.mRttVar * 3 + (if r.mSrtt > rtt then r.mSrtt - rtt else rtt - r.mSrtt)).tdiv 4
               mSrtt := (r.mSrtt * 7 + rtt).tdiv 8
               mRto := rto } := by
    simp only [addSample, hseen, Bool.not_true, Bool.false_eq_true, if_false, if_neg (not_lt.mpr hpos)]
    refine ⟨_, ?_, ?_, rfl⟩
    · rw [clamp, h.minRto, h.maxRto]
      exact le_clampTo hle _
    · rw [clamp, h.minRto, h.maxRto]
      exact clampTo_le hle _
  obtain ⟨rto, hlo, hhi, hnew⟩ := hnew
  have hsrtt : 0 ≤ r.mSrtt := h.lower hne 0 fun s hs => (h.accepted s hs).1
  have hvar := h.rttVar
  generalize hd : (if r.mSrtt > rtt then r.mSrtt - rtt else rtt - r.mSrtt) = delta at hnew
  have hdelta : 0 ≤ delta ∧ (delta ≤ r.mSrtt ∨ delta ≤ rtt) := by
    rw [← hd]
    split <;> omega
  have hvar4 := Int.tdiv_eq_ediv_of_nonneg (by omega : 0 ≤ r.mRttVar * 3 + delta) (b := 4)
  have hsrtt8 := Int.tdiv_eq_ediv_of_nonneg (by omega : 0 ≤ r.mSrtt * 7 + rtt) (b := 8)
  rw [hnew, hvar4, hsrtt8]
  have hmem (P : ℤ → Prop) (hm : ∀ s ∈ samples ++ [rtt], P s) : (∀ s ∈ samples, P s) ∧ P rtt :=
    ⟨fun s hs => hm s (List.mem_append_left _ hs), hm rtt (List.mem_append_right _ (List.mem_singleton_self rtt))⟩
  refine ⟨h.minRto, h.maxRto, ⟨hlo, hhi⟩, by simp [hseen], ?_, by dsimp only; omega, fun _ m hm => ?_,
    fun _ m hm => ?_⟩
  · intro s hs
    rcases List.mem_append.mp hs with hs | hs
    · exact h.accepted s hs
    · obtain rfl := List.mem_singleton.mp hs
      exact ⟨hpos, hfit⟩
  · obtain ⟨hm, hr⟩ := hmem _ hm
    have := h.lower hne m hm
    dsimp only
    omega
  · obtain ⟨hm, hr⟩ := hmem _ hm
    have := h.upper hne m hm
    dsimp only
    omega

lemma Tracks.checked (h : r.Tracks lo hi samples) (hpos : 0 ≤ rtt) (hfit : 8 * rtt < 2 ^ 63) :
    r.addSampleChecked rtt = some (r.addSample rtt) := by
  by_cases hne : samples = []
  · refine addSampleChecked_first ?_ hpos hfit
    rw [h.hasSample, hne]
    rfl
  · have hseen : r.mHasSample = true := by
      rw [h.hasSample, List.isEmpty_eq_false_iff.mpr hne]
      rfl
    have hup := h.upper hne (2 ^ 60 - 1) fun s hs => by
      have := (h.accepted s hs).2
      omega
    have hlow := h.lower hne 0 fun s hs => (h.accepted s hs).1
    exact addSampleChecked_next hseen hpos hfit hlow (by omega) h.rttVar (by omega)

lemma Tracks.event (h : r.Tracks lo hi samples) (hle : lo ≤ hi) {e : Event} (he : e.Fits) :
    e.applyChecked r = some (e.apply r) ∧ (e.apply r).Tracks lo hi (e.collect samples) := by
  cases e with
  | reset => exact ⟨rfl, h.reset hle⟩
  | sample rtt =>
    by_cases hneg : rtt < 0
    · have hsame : r.addSample rtt = r := if_pos hneg
      have hskip : r.addSampleChecked rtt = some r := if_pos hneg
      rw [Event.applyChecked, Event.apply, Event.collect, hsame, hskip, if_pos hneg]
      exact ⟨rfl, h⟩
    · have hpos : 0 ≤ rtt := by omega
      rw [Event.applyChecked, Event.apply, Event.collect, if_neg hneg]
      refine ⟨h.checked hpos he.2, ?_⟩
      by_cases hne : samples = []
      · subst hne
        exact h.first hle hpos he.2
      · exact h.next hne hle hpos he.2

lemma Tracks.run (h : r.Tracks lo hi samples) (hle : lo ≤ hi) {events : List Event} (he : ∀ e ∈ events, e.Fits) :
    r.runChecked events = some (r.run events) ∧
      (r.run events).Tracks lo hi (events.foldl Event.collect samples) := by
  induction events generalizing r samples with
  | nil => exact ⟨rfl, h⟩
  | cons e events ih =>
    obtain ⟨hc, hn⟩ := h.event hle (he e (List.mem_cons_self ..))
    obtain ⟨hrun, ht⟩ := ih hn fun x hx => he x (List.mem_cons_of_mem _ hx)
    refine ⟨?_, ht⟩
    rw [runChecked, List.foldlM_cons, hc, Option.bind_eq_bind, Option.bind_some]
    exact hrun

theorem estimates_stay_within_bounds (initialRto minRto maxRto : ℤ) (events : List Event) (hmin : 0 < minRto)
    (hle : minRto ≤ maxRto) (hmax : maxRto * 1000 ≤ 2 ^ 62) (hfit : ∀ e ∈ events, e.Fits) :
    ∃ r, (new initialRto minRto maxRto).runChecked events = some r ∧
      r = (new initialRto minRto maxRto).run events ∧
      (minRto * 1000 ≤ r.rto ∧ r.rto ≤ maxRto * 1000) ∧
      (∀ smallest ∈ (samplesOf events).min?, smallest ≤ r.srtt) ∧
      (∀ largest ∈ (samplesOf events).max?, r.srtt ≤ largest ∧ r.rttVar ≤ largest) ∧ 0 ≤ r.rttVar ∧
      (∀ n, r.timeoutForChecked n = some (min (maxRto * 1000) (r.rto * 2 ^ n)) ∧
        r.timeoutFor n = min (maxRto * 1000) (r.rto * 2 ^ n)) ∧
      Monotone r.timeoutFor := by
  obtain ⟨hrun, ht⟩ := (tracks_new initialRto hle).run (by omega) hfit
  have hpos := ht.minRto.symm.le.trans' (by omega : 0 ≤ minRto * 1000)
  have hrto := ht.minRto.trans_le ht.rto.1
  refine ⟨_, hrun, rfl, ht.rto, fun m hm => ?_, fun m hm => ?_, ht.rttVar, fun n => ?_,
    monotone_timeoutFor hpos hrto⟩
  · obtain ⟨hmem, hm⟩ := List.min?_eq_some_iff.mp hm
    exact ht.lower (List.ne_nil_of_mem hmem) m hm
  · obtain ⟨hmem, hm⟩ := List.max?_eq_some_iff.mp hm
    exact ht.upper (List.ne_nil_of_mem hmem) m hm
  · have heq := timeoutFor_eq hpos hrto n
    rw [ht.maxRto] at heq
    refine ⟨?_, heq⟩
    rw [timeoutForChecked, ht.maxRto, backOffChecked_eq n hmax (by omega), Option.map_some, rto, ← heq, timeoutFor,
      ht.maxRto]

theorem estimates_stay_within_bounds_threeSamples :
    ∃ r, (new 100 20 1000).runChecked [.sample 8000, .reset, .sample 40000, .sample (-1), .sample 90000] = some r ∧
      r.srtt = 46250 ∧ r.rttVar = 27500 ∧ r.rto = 156250 ∧
      (∀ largest ∈ [40000, 90000].max?, r.srtt ≤ largest ∧ r.rttVar ≤ largest) := by
  obtain ⟨r, hrun, hr, -, -, hlargest, -⟩ := estimates_stay_within_bounds 100 20 1000
    [.sample 8000, .reset, .sample 40000, .sample (-1), .sample 90000] (by decide) (by decide) (by decide)
    (by simp [Event.Fits])
  exact ⟨r, hrun, by subst hr; decide, by subst hr; decide, by subst hr; decide, hlargest⟩

/-- Both durations fit, and still the doubled one does not: a cap above half the range comes too late. -/
theorem doubling_overflows_below_the_cap :
    (0 : ℤ) < 1 ∧ (1 : ℤ) ≤ 9223372036854775 ∧ (9223372036854775 * 1000 : ℤ) < 2 ^ 63 ∧
      (new 4611686018427388 1 9223372036854775).rto = 4611686018427388000 ∧
      (new 4611686018427388 1 9223372036854775).timeoutForChecked 1 = none := by
  decide

end NetLink.Channel.RttEstimator
