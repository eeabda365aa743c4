import NetLink.Engine.Step
import NetLink.Lib.System

/-! The backlog of payload that waits for the application, and how the engine that asked its senders to hold back
is told that there is room again. The I/O thread and the threads that destroy a share of the backlog meet at two
atomics; each access to one of them is a step of its own. -/

namespace NetLink

open Channel (BacklogPauseBytes BacklogResumeBytes)

def staysPaused (mPaused : Bool) (waiting : ℕ) : Bool :=
  if mPaused then decide (waiting ≥ BacklogResumeBytes) else decide (waiting ≤ BacklogPauseBytes)

lemma NetworkEngine.mPaused_pausePeer (e : NetworkEngine) (id : PeerId) :
    (e.pausePeer id).mPaused = e.mPaused := by
  rw [pausePeer, onLink]
  split <;> rfl

lemma NetworkEngine.mPaused_updatePause (e : NetworkEngine) :
    e.updatePause.mPaused = if staysPaused e.mPaused e.world.backlog then e.mPaused else !e.mPaused := by
  have hfold : ∀ (ids : List PeerId) (e : NetworkEngine), (ids.foldl pausePeer e).mPaused = e.mPaused := by
    intro ids
    induction ids with
    | nil => exact fun _ => rfl
    | cons id ids ih =>
      intro e
      rw [List.foldl_cons, ih]
      exact e.mPaused_pausePeer id
  change (if staysPaused e.mPaused e.world.backlog then e
    else e.mPeers.keys.foldl pausePeer { e with mPaused := !e.mPaused }).mPaused = _
  split
  · rfl
  · exact hfold _ _

def drains (before bytes : ℕ) : Bool :=
  decide (before ≥ BacklogResumeBytes) && decide (before - bytes < BacklogResumeBytes)

inductive Share
  | held (bytes : ℕ)
  | subtracted (before bytes : ℕ)
  | posting
  | gone
  deriving DecidableEq, Repr

inductive PauseCheck
  | idle
  | loaded (waiting : ℕ)
  deriving DecidableEq, Repr

/-- `resumed` records whether ResumeReceiving was posted since `paused` was set. -/
structure DeliveryBacklog where
  bytes : ℕ := 0
  paused : Bool := false
  mPaused : Bool := false
  check : PauseCheck := .idle
  shares : List Share := []
  resumed : Bool := false
  deriving DecidableEq, Repr

namespace Share

def bytes : Share → ℕ
  | held bytes => bytes
  | _ => 0

def drained : Share → Bool
  | subtracted before bytes => drains before bytes
  | _ => false

def willPost (share : Share) : Bool := share.drained || decide (share = posting)

end Share

namespace DeliveryBacklog

variable {s t : DeliveryBacklog} {i : ℕ}

def set (s : DeliveryBacklog) (i : ℕ) (share : Share) : DeliveryBacklog :=
  { s with shares := s.shares.set i share }

def takeBatch (s : DeliveryBacklog) (bytes : ℕ) : DeliveryBacklog :=
  { s with bytes := s.bytes + bytes, shares := s.shares ++ [.held bytes] }

def load (s : DeliveryBacklog) : DeliveryBacklog := { s with check := .loaded s.bytes }

def store (s : DeliveryBacklog) : DeliveryBacklog :=
  { s with mPaused := !s.mPaused, paused := !s.mPaused, resumed := s.resumed && s.mPaused, check := .idle }

def fetchSub (s : DeliveryBacklog) (i bytes : ℕ) : DeliveryBacklog :=
  { s with bytes := s.bytes - bytes }.set i (.subtracted s.bytes bytes)

def loadPaused (s : DeliveryBacklog) (i before bytes : ℕ) : DeliveryBacklog :=
  s.set i (if s.paused && drains before bytes then .posting else .gone)

def post (s : DeliveryBacklog) (i : ℕ) : DeliveryBacklog := { s with resumed := true }.set i .gone

inductive Step (s : DeliveryBacklog) : DeliveryBacklog → Prop
  | takeBatch (bytes : ℕ) (hc : s.check = .idle) (hb : 0 < bytes) : Step s (s.takeBatch bytes)
  | load (hc : s.check = .idle) : Step s s.load
  | keep (waiting : ℕ) (hc : s.check = .loaded waiting) (hk : staysPaused s.mPaused waiting = true) :
      Step s { s with check := .idle }
  | store (waiting : ℕ) (hc : s.check = .loaded waiting) (hk : staysPaused s.mPaused waiting = false) :
    Step s s.store
  | fetchSub (i bytes : ℕ) (h : s.shares[i]? = some (.held bytes)) : Step s (s.fetchSub i bytes)
  | loadPaused (i before bytes : ℕ) (h : s.shares[i]? = some (.subtracted before bytes)) :
      Step s (s.loadPaused i before bytes)
  | post (i : ℕ) (h : s.shares[i]? = some .posting) : Step s (s.post i)

def AboutToPause (s : DeliveryBacklog) : Prop :=
  s.mPaused = false ∧ ∃ waiting, s.check = .loaded waiting ∧ BacklogPauseBytes < waiting

/-- A destructor drained the backlog and looks at the flag before `updatePause` sets it. -/
def Misses (s t : DeliveryBacklog) : Prop :=
  s.AboutToPause ∧ s.bytes < BacklogResumeBytes ∧
    ∃ i before bytes, s.shares[i]? = some (.subtracted before bytes) ∧ drains before bytes = true ∧
      t = s.loadPaused i before bytes

def system (fair : DeliveryBacklog → DeliveryBacklog → Prop) : Lib.System DeliveryBacklog where
  init s := s = {}
  step s t := Step s t ∧ fair s t

def Told (s : DeliveryBacklog) : Prop := s.resumed = true ∨ ∃ share ∈ s.shares, share.willPost = true

structure Inv (s : DeliveryBacklog) : Prop where
  flag : s.paused = s.mPaused
  counted : s.bytes = (s.shares.map Share.bytes).sum
  pausing : s.AboutToPause → s.bytes < BacklogResumeBytes → ∃ share ∈ s.shares, share.drained = true
  told : s.paused = true → s.bytes < BacklogResumeBytes → s.Told

section Shares

variable {shares : List Share} {x y : Share} {p : Share → Bool}

lemma sum_set (h : shares[i]? = some x) (y : Share) :
    ((shares.set i y).map Share.bytes).sum + x.bytes = (shares.map Share.bytes).sum + y.bytes := by
  induction shares generalizing i with
  | nil => simp at h
  | cons share shares ih =>
    cases i with
    | zero =>
      obtain rfl : share = x := by simpa using h
      simp only [List.set_cons_zero, List.map_cons, List.sum_cons]
      omega
    | succ i =>
      have htail := ih (by simpa using h)
      simp only [List.set_cons_succ, List.map_cons, List.sum_cons]
      omega

lemma exists_set (h : shares[i]? = some x) (hx : p x = false) (hp : ∃ share ∈ shares, p share = true) :
    ∃ share ∈ shares.set i y, p share = true := by
  obtain ⟨share, hmem, hshare⟩ := hp
  obtain ⟨j, hj⟩ := List.mem_iff_getElem?.mp hmem
  have hij : i ≠ j := by
    rintro rfl
    obtain rfl := Option.some.inj (h.symm.trans hj)
    rw [hx] at hshare
    cases hshare
  exact ⟨share, List.mem_iff_getElem?.mpr ⟨j, by rw [List.getElem?_set_ne hij, hj]⟩, hshare⟩

lemma exists_set_self (h : shares[i]? = some x) (hy : p y = true) : ∃ share ∈ shares.set i y, p share = true :=
  ⟨y, List.mem_set (List.getElem?_eq_some_iff.mp h).1 y, hy⟩

lemma exists_willPost (h : ∃ share ∈ shares, share.drained = true) : ∃ share ∈ shares, share.willPost = true := by
  obtain ⟨share, hmem, hshare⟩ := h
  exact ⟨share, hmem, by rw [Share.willPost, hshare, Bool.true_or]⟩

end Shares

namespace Inv

lemma initial : Inv {} where
  flag := rfl
  counted := rfl
  pausing h := by
    obtain ⟨-, waiting, h, -⟩ := h
    cases h
  told h := by cases h

lemma takeBatch (h : s.Inv) (hc : s.check = .idle) (bytes : ℕ) : (s.takeBatch bytes).Inv where
  flag := h.flag
  counted := by
    rw [DeliveryBacklog.takeBatch, List.map_append, List.sum_append, h.counted]
    rfl
  pausing hp := by
    obtain ⟨-, waiting, hw, -⟩ := hp
    rw [show (s.takeBatch bytes).check = s.check from rfl, hc] at hw
    cases hw
  told hp hlow := by
    rcases h.told hp (lt_of_le_of_lt (Nat.le_add_right _ _) hlow) with ht | ⟨share, hmem, hshare⟩
    · exact .inl ht
    · exact .inr ⟨share, List.mem_append_left _ hmem, hshare⟩

lemma load (h : s.Inv) : s.load.Inv where
  flag := h.flag
  counted := h.counted
  pausing hp hlow := by
    obtain ⟨-, waiting, hw, hmany⟩ := hp
    obtain rfl : s.bytes = waiting := PauseCheck.loaded.inj hw
    exact absurd (hmany.trans hlow) (by decide)
  told := h.told

lemma keep (h : s.Inv) : Inv { s with check := .idle } where
  flag := h.flag
  counted := h.counted
  pausing hp := by
    obtain ⟨-, waiting, hw, -⟩ := hp
    cases hw
  told := h.told

lemma store (h : s.Inv) {waiting : ℕ} (hc : s.check = .loaded waiting)
    (hk : staysPaused s.mPaused waiting = false) :
    s.store.Inv where
  flag := rfl
  counted := h.counted
  pausing hp := by
    obtain ⟨-, waiting, hw, -⟩ := hp
    cases hw
  told hp hlow := by
    have hm : s.mPaused = false := by simpa [DeliveryBacklog.store] using hp
    rw [hm, staysPaused, if_neg Bool.false_ne_true, decide_eq_false_iff_not, not_le] at hk
    exact .inr (exists_willPost (h.pausing ⟨hm, waiting, hc, hk⟩ hlow))

lemma fetchSub (h : s.Inv) {bytes : ℕ} (hi : s.shares[i]? = some (.held bytes)) : (s.fetchSub i bytes).Inv := by
  have hdrains : s.bytes - bytes < BacklogResumeBytes → ¬s.bytes < BacklogResumeBytes →
      (Share.subtracted s.bytes bytes).drained = true := by
    intro hlow hhigh
    simp [Share.drained, drains, hlow, not_lt.mp hhigh]
  refine ⟨h.flag, ?_, fun hp hlow => ?_, fun hp hlow => ?_⟩
  · have hsum := sum_set hi (.subtracted s.bytes bytes)
    have hcounted := h.counted
    simp only [Share.bytes, Nat.add_zero] at hsum
    simp only [DeliveryBacklog.fetchSub, set]
    omega
  · by_cases hs : s.bytes < BacklogResumeBytes
    · exact exists_set hi rfl (h.pausing hp hs)
    · exact exists_set_self hi (hdrains hlow hs)
  · by_cases hs : s.bytes < BacklogResumeBytes
    · rcases h.told hp hs with ht | ht
      · exact .inl ht
      · exact .inr (exists_set hi rfl ht)
    · exact .inr (exists_willPost (exists_set_self hi (hdrains hlow hs)))

lemma loadPaused (h : s.Inv) {before bytes : ℕ} (hi : s.shares[i]? = some (.subtracted before bytes))
    (hfair : ¬Misses s (s.loadPaused i before bytes)) : (s.loadPaused i before bytes).Inv := by
  refine ⟨h.flag, ?_, fun hp hlow => ?_, fun hp hlow => ?_⟩
  · have hsum := sum_set hi (if s.paused && drains before bytes then .posting else .gone)
    have hshare : (if s.paused && drains before bytes then Share.posting else .gone).bytes = 0 := by split <;> rfl
    rw [hshare] at hsum
    exact h.counted.trans hsum.symm
  · have hnot : drains before bytes = false := by
      rw [← Bool.not_eq_true]
      exact fun hd => hfair ⟨hp, hlow, i, before, bytes, hi, hd, rfl⟩
    exact exists_set hi hnot (h.pausing hp hlow)
  · have hpaused : s.paused = true := hp
    rcases h.told hp hlow with ht | ht
    · exact .inl ht
    · refine .inr ?_
      rw [DeliveryBacklog.loadPaused, set, hpaused, Bool.true_and]
      cases hd : drains before bytes with
      | true => exact exists_set_self hi rfl
      | false => exact exists_set hi (by simp [Share.willPost, Share.drained, hd]) ht

lemma post (h : s.Inv) (hi : s.shares[i]? = some .posting) : (s.post i).Inv where
  flag := h.flag
  counted := h.counted.trans (sum_set hi .gone).symm
  pausing hp hlow := exists_set hi rfl (h.pausing hp hlow)
  told _ _ := .inl rfl

end Inv

lemma inv (hr : (system fun s t => ¬Misses s t).Reachable s) : s.Inv := by
  refine hr.invariant (P := Inv) ?_ ?_
  · rintro s rfl
    exact .initial
  · rintro s t - h ⟨hs, hfair⟩
    cases hs with
    | takeBatch bytes hc _ => exact h.takeBatch hc bytes
    | load _ => exact h.load
    | keep waiting _ _ => exact h.keep
    | store waiting hc hk => exact h.store hc hk
    | fetchSub i bytes hi => exact h.fetchSub hi
    | loadPaused i before bytes hi => exact h.loadPaused hi hfair
    | post i hi => exact h.post hi

theorem paused_engine_is_told (s : DeliveryBacklog) (hr : (system fun s t => ¬Misses s t).Reachable s) :
    s.bytes = (s.shares.map Share.bytes).sum ∧
    (s.check = .idle → s.paused = true → s.bytes < BacklogResumeBytes → s.Told) ∧
    ∀ e : NetworkEngine, e.updatePause.mPaused =
      if staysPaused e.mPaused e.world.backlog then e.mPaused else !e.mPaused :=
  ⟨(inv hr).counted, fun _ => (inv hr).told, NetworkEngine.mPaused_updatePause⟩

theorem paused_engine_is_told_draining :
    let s := ((({} : DeliveryBacklog).takeBatch (BacklogPauseBytes + 1)).load.store).fetchSub 0
      (BacklogPauseBytes + 1)
    s.paused = true ∧ s.bytes < BacklogResumeBytes ∧ s.Told := by
  intro s
  have h₀ : (system fun s t => ¬Misses s t).Reachable {} := .of_init rfl
  have h₁ := h₀.step ⟨.takeBatch (BacklogPauseBytes + 1) rfl (by decide), fun h => absurd h.1.2 (by simp)⟩
  have h₂ := h₁.step ⟨.load rfl, fun h => absurd h.1.2 (by simp [DeliveryBacklog.takeBatch])⟩
  have h₃ := h₂.step ⟨.store _ rfl (by decide), fun h => absurd h.2.1 (by decide)⟩
  have h₄ := h₃.step ⟨.fetchSub 0 (BacklogPauseBytes + 1) rfl, fun h => absurd h.2.1 (by decide)⟩
  exact ⟨rfl, by decide, (paused_engine_is_told s h₄).2.1 rfl rfl (by decide)⟩

/-- The destructor runs between the load and the store: the engine is paused, nothing waits, and nobody tells it.
-/
theorem paused_engine_is_forgotten :
    ∃ s : DeliveryBacklog, (system fun _ _ => True).Reachable s ∧
      s.check = .idle ∧ s.paused = true ∧ s.bytes < BacklogResumeBytes ∧ ¬s.Told := by
  have h₀ : (system fun _ _ => True).Reachable {} := .of_init rfl
  have h₁ := h₀.step ⟨.takeBatch (BacklogPauseBytes + 1) rfl (by decide), trivial⟩
  have h₂ := h₁.step ⟨.load rfl, trivial⟩
  have h₃ := h₂.step ⟨.fetchSub 0 (BacklogPauseBytes + 1) rfl, trivial⟩
  have h₄ := h₃.step ⟨.loadPaused 0 (BacklogPauseBytes + 1) (BacklogPauseBytes + 1) rfl, trivial⟩
  have h₅ := h₄.step ⟨.store (BacklogPauseBytes + 1) rfl (by decide), trivial⟩
  refine ⟨_, h₅, rfl, rfl, by decide, ?_⟩
  rintro (h | ⟨share, hmem, hshare⟩)
  · cases h
  · obtain rfl : share = .gone := List.mem_singleton.mp hmem
    cases hshare

end DeliveryBacklog

end NetLink
