import Mathlib.Algebra.Order.BigOperators.Group.List
import Mathlib.Algebra.Order.Floor.Semiring
import Mathlib.Data.List.GetD
import Mathlib.Data.Rat.Floor
import NetLink.Channel.SendScheduler

/-! A run of the scheduler comes to its end: how often it asks before that, and that it asks nobody behind the end
of a ring. -/

namespace NetLink.Channel.SendScheduler

structure Ask where
  lane : Lane
  peer : PeerId
  result : Result
  deriving DecidableEq, Repr

inductive Outcome
  | ended | blocked
  | unfinished
  | fault
  deriving DecidableEq, Repr

structure Trace (σ : Type) where
  asks : List Ask := []
  outcome : Outcome
  allowance : ℚ
  scheduler : SendScheduler
  owner : σ

variable {σ : Type} (send : σ → Lane → PeerId → Result × σ)

def Trace.prepend (asks : List Ask) (t : Trace σ) : Trace σ := { t with asks := asks ++ t.asks }

/-- One look at the condition of the `while` loop and what it leads to, with the index checked; `next` is the rest
of the loop. -/
def lookLane (lane : Lane) (capped : Bool) (next : ℚ → SendScheduler → σ → Trace σ) (allowance : ℚ)
    (s : SendScheduler) (owner : σ) : Trace σ :=
  if (s.mRings lane).peers.isEmpty || !s.hasTokens || (capped && allowance < 1) then
    { outcome := .ended, allowance := allowance, scheduler := s, owner := owner }
  else
    let ring := (s.mRings lane).wrapped
    match ring.peers[ring.cursor]? with
    | none => { outcome := .fault, allowance := allowance, scheduler := s, owner := owner }
    | some peer =>
      let (result, owner) := send owner lane peer
      let rest : Trace σ :=
        if result = .blocked then
          { outcome := .blocked, allowance := allowance, scheduler := s.setRing lane ring, owner := owner }
        else if result.serves then
          next (allowance - (if capped then 1 else 0)) (s.spend.setRing lane (ring.answered result)) owner
        else next allowance (s.setRing lane (ring.answered result)) owner
      rest.prepend [⟨lane, peer, result⟩]

def traceLane (lane : Lane) (capped : Bool) : ℕ → ℚ → SendScheduler → σ → Trace σ
  | 0 => fun allowance s owner =>
    { outcome := .unfinished, allowance := allowance, scheduler := s, owner := owner }
  | fuel + 1 => lookLane send lane capped (traceLane lane capped fuel)

def traceLanes (fuel : ℕ) : List Lane → ℚ → SendScheduler → σ → Trace σ
  | [], allowance, s, owner => { outcome := .ended, allowance := allowance, scheduler := s, owner := owner }
  | lane :: lanes, allowance, s, owner =>
    let t := traceLane send lane (lane == .media && !s.isUnlimited) fuel allowance s owner
    if t.outcome = .ended then (traceLanes fuel lanes t.allowance t.scheduler t.owner).prepend t.asks else t

def trace (fuel : ℕ) (s : SendScheduler) (owner : σ) : Trace σ :=
  let acknowledgedWaits := !(s.mRings .reliable).peers.isEmpty || !(s.mRings .bulk).peers.isEmpty
  traceLanes send fuel Order (if acknowledgedWaits then s.mTokens * 3 / 4 else s.mTokens) s owner

variable {send} {lane : Lane} {capped : Bool} {fuel : ℕ} {allowance : ℚ} {s : SendScheduler} {owner : σ}

lemma cursor_wrapped {r : Ring} (h : r.peers ≠ []) : r.wrapped.cursor < r.wrapped.peers.length := by
  rw [Ring.wrapped]
  split
  · exact List.length_pos_iff.mpr h
  · next hc =>
    exact not_le.mp hc

variable {next : ℚ → SendScheduler → σ → Trace σ} {lanes : List Lane} {peer : PeerId} {asks : List Ask}

inductive Look (send : σ → Lane → PeerId → Result × σ) (lane : Lane) (capped : Bool)
    (next : ℚ → SendScheduler → σ → Trace σ) (allowance : ℚ) (s : SendScheduler) (owner : σ) : Trace σ → Prop
  | ended (h : ((s.mRings lane).peers.isEmpty || !s.hasTokens || (capped && allowance < 1)) = true) :
    Look send lane capped next allowance s owner
      { outcome := .ended, allowance := allowance, scheduler := s, owner := owner }
  | blocked {peer : PeerId} {owner' : σ}
    (hpeer : (s.mRings lane).wrapped.peers[(s.mRings lane).wrapped.cursor]? = some peer)
    (hsend : send owner lane peer = (.blocked, owner')) : Look send lane capped next allowance s owner
      { asks := [⟨lane, peer, .blocked⟩], outcome := .blocked, allowance := allowance
        scheduler := s.setRing lane (s.mRings lane).wrapped, owner := owner' }
  | served {peer : PeerId} {result : Result} {owner' : σ} (htokens : s.hasTokens = true)
    (hpeer : (s.mRings lane).wrapped.peers[(s.mRings lane).wrapped.cursor]? = some peer)
    (hsend : send owner lane peer = (result, owner')) (hserves : result.serves = true) :
    Look send lane capped next allowance s owner
      ((next (allowance - (if capped then 1 else 0))
        (s.spend.setRing lane ((s.mRings lane).wrapped.answered result)) owner').prepend [⟨lane, peer, result⟩])
  | emptied {peer : PeerId} {owner' : σ}
    (hpeer : (s.mRings lane).wrapped.peers[(s.mRings lane).wrapped.cursor]? = some peer)
    (hsend : send owner lane peer = (.empty, owner')) : Look send lane capped next allowance s owner
      ((next allowance (s.setRing lane ((s.mRings lane).wrapped.answered .empty)) owner').prepend
        [⟨lane, peer, .empty⟩])

lemma look (send : σ → Lane → PeerId → Result × σ) (lane : Lane) (capped : Bool)
    (next : ℚ → SendScheduler → σ → Trace σ) (allowance : ℚ) (s : SendScheduler) (owner : σ) :
    Look send lane capped next allowance s owner (lookLane send lane capped next allowance s owner) := by
  rw [lookLane]
  split
  · next hend =>
    exact .ended hend
  next hgo =>
  simp only [Bool.or_eq_true, Bool.not_eq_true', not_or, Bool.not_eq_false] at hgo
  have hpeers : (s.mRings lane).peers ≠ [] := List.isEmpty_eq_false_iff.mp (Bool.not_eq_true _ ▸ hgo.1.1)
  have hlt := cursor_wrapped hpeers
  have hpeer := List.getElem?_eq_getElem hlt
  dsimp only
  rw [hpeer]
  dsimp only
  rcases hsend : send owner lane (s.mRings lane).wrapped.peers[(s.mRings lane).wrapped.cursor]
    with ⟨result, owner'⟩
  cases result with
  | sent => exact .served hgo.1.2 hpeer hsend rfl
  | lost => exact .served hgo.1.2 hpeer hsend rfl
  | empty => exact .emptied hpeer hsend
  | blocked => exact .blocked hpeer hsend

def served (asks : List Ask) : ℕ := asks.countP fun a => a.result.serves

def leavers (lane : Lane) (asks : List Ask) : List PeerId :=
  (asks.filter fun a => a.lane = lane ∧ a.result = .empty).map Ask.peer

structure Progress (s : SendScheduler) (asks : List Ask) (s' : SendScheduler) : Prop where
  rate : s'.mRate = s.mRate
  tokens : s.mRate ≠ 0 → s'.mTokens = s.mTokens - served asks ∧ (served asks = 0 ∨ 0 ≤ s'.mTokens)
  peers : ∀ lane, (leavers lane asks ++ (s'.mRings lane).peers).Perm (s.mRings lane).peers

lemma Progress.refl (s : SendScheduler) : Progress s [] s where
  rate := rfl
  tokens _ := ⟨by simp [served], .inl rfl⟩
  peers _ := .refl _

lemma leavers_append (lane : Lane) (as bs : List Ask) :
    leavers lane (as ++ bs) = leavers lane as ++ leavers lane bs := by
  rw [leavers, List.filter_append, List.map_append, leavers, leavers]

lemma Progress.trans {s s' s'' : SendScheduler} {as bs : List Ask} (h : Progress s as s')
    (h' : Progress s' bs s'') :
    Progress s (as ++ bs) s'' where
  rate := h'.rate.trans h.rate
  tokens hr := by
    obtain ⟨htokens, hleft⟩ := h.tokens hr
    obtain ⟨htokens', hleft'⟩ := h'.tokens (h.rate ▸ hr)
    have hcount : served (as ++ bs) = served as + served bs := List.countP_append ..
    rw [hcount]
    refine ⟨by rw [htokens', htokens]; push_cast; ring, ?_⟩
    rcases hleft' with hnone | hleft'
    · rw [htokens', hnone, Nat.cast_zero, sub_zero, add_zero]
      exact hleft
    · exact .inr hleft'
  peers lane := by
    rw [leavers_append, List.append_assoc]
    exact ((h'.peers lane).append_left _).trans (h.peers lane)

lemma peers_wrapped (r : Ring) : r.wrapped.peers = r.peers := by
  rw [Ring.wrapped]
  split <;> rfl

lemma ring_setRing (s : SendScheduler) (lane : Lane) (ring : Ring) : (s.setRing lane ring).mRings lane = ring :=
  Function.update_self ..

lemma ring_setRing_of_ne {other : Lane} (h : other ≠ lane) (ring : Ring) :
    (s.setRing lane ring).mRings other = s.mRings other :=
  Function.update_of_ne h ..

lemma peers_setRing {ring : Ring} (h : ring.peers = (s.mRings lane).peers) (other : Lane) :
    ((s.setRing lane ring).mRings other).peers = (s.mRings other).peers := by
  by_cases hl : other = lane
  · rw [hl, ring_setRing, h]
  · rw [ring_setRing_of_ne hl]

lemma leavers_single {a : Ask} (h : a.result ≠ .empty) (lane : Lane) : leavers lane [a] = [] := by
  simp [leavers, h]

lemma Progress.stay {a : Ask} {ring : Ring} {s' : SendScheduler} (hempty : a.result ≠ .empty)
    (hring : ring.peers = (s.mRings lane).peers) (hrings : s'.mRings = s.mRings) (hrate : s'.mRate = s.mRate)
    (htokens : s.mRate ≠ 0 → s'.mTokens = s.mTokens - served [a] ∧ (served [a] = 0 ∨ 0 ≤ s'.mTokens)) :
    Progress s [a] (s'.setRing lane ring) where
  rate := hrate
  tokens := htokens
  peers other := by
    rw [leavers_single hempty, List.nil_append, peers_setRing (by rw [hring, hrings]), hrings]

lemma Progress.served {result : Result} (htokens : s.hasTokens = true)
    (hserves : result.serves = true) :
    Progress s [⟨lane, peer, result⟩] (s.spend.setRing lane ((s.mRings lane).wrapped.answered result)) := by
  have hone : SendScheduler.served [⟨lane, peer, result⟩] = 1 := by
    rw [SendScheduler.served, List.countP_singleton]
    exact if_pos hserves
  have hring : ((s.mRings lane).wrapped.answered result).peers = (s.mRings lane).peers := by
    rw [← peers_wrapped (s.mRings lane)]
    cases result with
    | sent =>
      rw [Ring.answered]
      split <;> rfl
    | lost => rfl
    | empty => cases hserves
    | blocked => cases hserves
  refine .stay (fun he => by simp only at he; rw [he] at hserves; cases hserves) hring (mRings_spend s)
    ?_ fun hr => ?_
  · rw [spend]
    split <;> rfl
  · have hlimited : s.isUnlimited = false := beq_false_of_ne hr
    rw [hasTokens, hlimited, Bool.false_or, decide_eq_true_eq] at htokens
    rw [spend, hlimited, hone]
    refine ⟨by simp, .inr ?_⟩
    simp only [Bool.false_eq_true, if_false]
    linarith

lemma Progress.blocked (s : SendScheduler) (lane : Lane) (peer : PeerId) :
    Progress s [⟨lane, peer, .blocked⟩] (s.setRing lane (s.mRings lane).wrapped) :=
  .stay (by simp) (peers_wrapped _) rfl rfl fun _ => ⟨by simp [SendScheduler.served, Result.serves], .inl rfl⟩

lemma Progress.emptied (hpeer : (s.mRings lane).wrapped.peers[(s.mRings lane).wrapped.cursor]? = some peer) :
    Progress s [⟨lane, peer, .empty⟩] (s.setRing lane ((s.mRings lane).wrapped.answered .empty)) where
  rate := rfl
  tokens _ := ⟨by simp [SendScheduler.served, Result.serves, setRing], .inl rfl⟩
  peers other := by
    by_cases hl : other = lane
    · subst hl
      obtain ⟨hlt, rfl⟩ := List.getElem?_eq_some_iff.mp hpeer
      have hperm := List.getElem_cons_eraseIdx_perm hlt
      rw [ring_setRing, ← peers_wrapped (s.mRings other)]
      simpa [leavers, Ring.answered] using hperm
    · rw [ring_setRing_of_ne hl]
      simp [leavers, Ne.symm hl]

structure Accounts (s : SendScheduler) (t : Trace σ) : Prop where
  progress : Progress s t.asks t.scheduler
  sound : t.outcome ≠ .fault
  blocked : t.asks.countP (fun a => a.result = .blocked) = if t.outcome = .blocked then 1 else 0

lemma Accounts.prepend {t : Trace σ} {s' : SendScheduler} (h : Accounts s' t)
    (hp : Progress s asks s') (hb : asks.countP (fun a => a.result = .blocked) = 0) :
      Accounts s (t.prepend asks) where
  progress := hp.trans h.progress
  sound := h.sound
  blocked := by
    rw [Trace.prepend, List.countP_append, hb, Nat.zero_add]
    exact h.blocked

lemma accounts_traceLane (send : σ → Lane → PeerId → Result × σ) (lane : Lane) (capped : Bool) (fuel : ℕ)
    (allowance : ℚ) (s : SendScheduler) (owner : σ) :
      Accounts s (traceLane send lane capped fuel allowance s owner) := by
  induction fuel generalizing allowance s owner with
  | zero => exact ⟨.refl s, nofun, rfl⟩
  | succ fuel ih =>
    have hlook := look send lane capped (traceLane send lane capped fuel) allowance s owner
    rw [traceLane]
    generalize lookLane send lane capped (traceLane send lane capped fuel) allowance s owner = t at hlook ⊢
    cases hlook with
    | ended => exact ⟨.refl s, nofun, rfl⟩
    | blocked => exact ⟨.blocked s lane _, nofun, rfl⟩
    | served htokens _ _ hserves =>
      refine (ih ..).prepend (.served htokens hserves) ?_
      rw [List.countP_singleton, if_neg]
      intro he
      obtain rfl := of_decide_eq_true he
      cases hserves
    | emptied hpeer _ => exact (ih ..).prepend (.emptied hpeer) rfl

lemma accounts_traceLanes (send : σ → Lane → PeerId → Result × σ) (fuel : ℕ) (lanes : List Lane) (allowance : ℚ)
    (s : SendScheduler) (owner : σ) : Accounts s (traceLanes send fuel lanes allowance s owner) := by
  induction lanes generalizing allowance s owner with
  | nil => exact ⟨.refl s, nofun, rfl⟩
  | cons lane lanes ih =>
    have hlane := accounts_traceLane send lane (lane == .media && !s.isUnlimited) fuel allowance s owner
    rw [traceLanes]
    generalize traceLane send lane (lane == .media && !s.isUnlimited) fuel allowance s owner = t at hlane ⊢
    split
    · next hended =>
      refine (ih ..).prepend hlane.progress ?_
      rw [hlane.blocked, hended]
      rfl
    · exact hlane

lemma length_of_unfinished {fuel : ℕ} {allowance : ℚ} {s : SendScheduler} {owner : σ}
    (h : (traceLane send lane capped fuel allowance s owner).outcome = .unfinished) :
    (traceLane send lane capped fuel allowance s owner).asks.length = fuel := by
  induction fuel generalizing allowance s owner with
  | zero => rfl
  | succ fuel ih =>
    have hlook := look send lane capped (traceLane send lane capped fuel) allowance s owner
    rw [traceLane] at h ⊢
    generalize lookLane send lane capped (traceLane send lane capped fuel) allowance s owner = t at hlook h ⊢
    cases hlook with
    | ended => cases h
    | blocked => cases h
    | served => exact congrArg (· + 1) (ih h)
    | emptied => exact congrArg (· + 1) (ih h)

lemma le_length_of_unfinished {allowance : ℚ} {s : SendScheduler} {owner : σ}
    (h : (traceLanes send fuel lanes allowance s owner).outcome = .unfinished) :
    fuel ≤ (traceLanes send fuel lanes allowance s owner).asks.length := by
  induction lanes generalizing allowance s owner with
  | nil => cases h
  | cons lane lanes ih =>
    rw [traceLanes] at h ⊢
    split at h
    · next hended =>
      rw [if_pos hended, Trace.prepend, List.length_append]
      exact (ih h).trans (Nat.le_add_left ..)
    · next hended =>
      rw [if_neg hended, length_of_unfinished h]

lemma lookLane_congr {next' : ℚ → SendScheduler → σ → Trace σ}
    (hnext : ∀ allowance s owner, (next allowance s owner).outcome ≠ .unfinished →
      next' allowance s owner = next allowance s owner)
    (h : (lookLane send lane capped next allowance s owner).outcome ≠ .unfinished) :
    lookLane send lane capped next' allowance s owner = lookLane send lane capped next allowance s owner := by
  simp only [lookLane] at h ⊢
  split
  · rfl
  next hgo =>
  rw [if_neg hgo] at h
  rcases hpeer : (s.mRings lane).wrapped.peers[(s.mRings lane).wrapped.cursor]? with _ | peer
  · rfl
  rw [hpeer] at h
  dsimp only at h ⊢
  split
  · rfl
  next hblocked =>
  rw [if_neg hblocked] at h
  split
  · next hserves =>
    rw [if_pos hserves] at h
    rw [hnext _ _ _ h]
  · next hserves =>
    rw [if_neg hserves] at h
    rw [hnext _ _ _ h]

lemma traceLane_stable {fuel : ℕ} {allowance : ℚ} {s : SendScheduler} {owner : σ}
    (h : (traceLane send lane capped fuel allowance s owner).outcome ≠ .unfinished) :
    traceLane send lane capped (fuel + 1) allowance s owner = traceLane send lane capped fuel
      allowance s owner := by
  induction fuel generalizing allowance s owner with
  | zero => exact absurd rfl h
  | succ fuel ih => exact lookLane_congr (fun _ _ _ => ih) h

lemma traceLanes_stable {allowance : ℚ} {s : SendScheduler} {owner : σ}
    (h : (traceLanes send fuel lanes allowance s owner).outcome ≠ .unfinished) :
    traceLanes send (fuel + 1) lanes allowance s owner = traceLanes send fuel lanes allowance s owner := by
  induction lanes generalizing allowance s owner with
  | nil => rfl
  | cons lane lanes ih =>
    rw [traceLanes, traceLanes]
    rw [traceLanes] at h
    split at h
    · next hended =>
      rw [traceLane_stable (by rw [hended]; nofun), if_pos hended, if_pos hended, ih h]
    · next hended =>
      rw [traceLane_stable h]
      rw [if_neg hended, if_neg hended]

lemma trace_stable {fuel : ℕ} (h : (trace send fuel s owner).outcome ≠ .unfinished) {more : ℕ}
    (hle : fuel ≤ more) :
    trace send more s owner = trace send fuel s owner := by
  induction more, hle using Nat.le_induction with
  | base => rfl
  | succ more _ ih =>
    have hmore : (trace send more s owner).outcome ≠ .unfinished := ih.symm ▸ h
    exact (traceLanes_stable hmore).trans ih

lemma getD_of_getElem? {l : List PeerId} {i : ℕ} (h : l[i]? = some peer) : l.getD i 0 = peer := by
  rw [List.getD_eq_getElem?_getD, h, Option.getD_some]

lemma runLane_eq (send : σ → Lane → PeerId → Result × σ) (lane : Lane) (capped : Bool) (fuel : ℕ) (allowance : ℚ)
    (s : SendScheduler) (owner : σ) : runLane send lane capped fuel allowance s owner =
      ((traceLane send lane capped fuel allowance s owner).outcome == .blocked,
        (traceLane send lane capped fuel allowance s owner).allowance,
        (traceLane send lane capped fuel allowance s owner).scheduler,
        (traceLane send lane capped fuel allowance s owner).owner) := by
  induction fuel generalizing allowance s owner with
  | zero => rfl
  | succ fuel ih =>
    rw [runLane, traceLane, lookLane]
    dsimp only
    split
    · rfl
    next hgo =>
    simp only [Bool.or_eq_true, Bool.not_eq_true', not_or, Bool.not_eq_false] at hgo
    have hpeers : (s.mRings lane).peers ≠ [] := List.isEmpty_eq_false_iff.mp (Bool.not_eq_true _ ▸ hgo.1.1)
    obtain ⟨peer, hpeer⟩ : ∃ peer, (s.mRings lane).wrapped.peers[(s.mRings lane).wrapped.cursor]? = some peer :=
      ⟨_, List.getElem?_eq_getElem (cursor_wrapped hpeers)⟩
    rw [← Ring.wrapped, getD_of_getElem? hpeer, hpeer]
    dsimp only
    rcases send owner lane peer with ⟨result, owner'⟩
    cases result with
    | sent => exact ih ..
    | lost => exact ih ..
    | empty => exact ih ..
    | blocked => rfl

lemma runLanes_eq {allowance : ℚ} {s : SendScheduler} {owner : σ}
    (h : (traceLanes send fuel lanes allowance s owner).outcome ≠ .unfinished) :
    runLanes send fuel lanes allowance s owner = ((traceLanes send fuel lanes allowance s owner).scheduler,
      (traceLanes send fuel lanes allowance s owner).owner) := by
  induction lanes generalizing allowance s owner with
  | nil => rfl
  | cons lane lanes ih =>
    have haccounts := accounts_traceLane send lane (lane == .media && !s.isUnlimited) fuel allowance s owner
    rw [traceLanes] at h ⊢
    rw [runLanes, runLane_eq]
    generalize traceLane send lane (lane == .media && !s.isUnlimited) fuel allowance s owner = t at haccounts h ⊢
    split at h
    · next hended =>
      rw [if_pos hended, hended]
      exact ih h
    · next hended =>
      have hblocked : t.outcome = .blocked := by
        have hsound := haccounts.sound
        cases ht : t.outcome with
        | ended => exact absurd ht hended
        | blocked => rfl
        | unfinished => exact absurd ht h
        | fault => exact absurd ht hsound
      rw [if_neg hended, hblocked]
      rfl

lemma length_eq_counts (asks : List Ask) : asks.length = served asks +
    asks.countP (fun a => a.result = .empty) + asks.countP (fun a => a.result = .blocked) := by
  induction asks with
  | nil => rfl
  | cons a asks ih =>
    rw [served] at ih ⊢
    rw [List.length_cons, List.countP_cons, List.countP_cons, List.countP_cons, ih]
    cases ha : a.result <;> simp [Result.serves] <;> omega

lemma sum_leavers (asks : List Ask) : (Order.map fun lane => (leavers lane asks).length).sum =
    asks.countP fun a => a.result = .empty := by
  induction asks with
  | nil => rfl
  | cons a asks ih =>
    rw [List.countP_cons, ← ih]
    by_cases ha : a.result = .empty
    · cases hl : a.lane <;> simp [Order, leavers, ha, hl] <;> omega
    · simp [Order, leavers, ha]

lemma Progress.emptied_le {s s' : SendScheduler} (h : Progress s asks s') :
    asks.countP (fun a => a.result = .empty) ≤ s.waiting := by
  rw [← sum_leavers, waiting]
  refine List.sum_le_sum fun lane _ => ?_
  have hlength := (h.peers lane).length_eq
  rw [List.length_append] at hlength
  omega

lemma count_leavers (lane : Lane) (peer : PeerId) (asks : List Ask) :
    asks.count ⟨lane, peer, .empty⟩ = (leavers lane asks).count peer := by
  induction asks with
  | nil => rfl
  | cons a asks ih =>
    obtain ⟨lane', peer', result⟩ := a
    by_cases hl : lane' = lane ∧ result = .empty
    · obtain ⟨rfl, rfl⟩ := hl
      have hcons : leavers lane' (⟨lane', peer', .empty⟩ :: asks) = peer' :: leavers lane' asks := by
        simp [leavers]
      rw [hcons, List.count_cons, List.count_cons, ih]
      simp
    · have hcons : leavers lane (⟨lane', peer', result⟩ :: asks) = leavers lane asks := by
        simp only [leavers, List.filter_cons, hl, decide_false, Bool.false_eq_true, if_false]
      rw [hcons, List.count_cons_of_ne, ih]
      rintro he
      rw [Ask.mk.injEq] at he
      exact hl ⟨he.1, he.2.2⟩

lemma Progress.served_le {s s' : SendScheduler} (h : Progress s asks s') (hr : s.mRate ≠ 0) :
    SendScheduler.served asks ≤ ⌊max s.mTokens 0⌋₊ := by
  obtain ⟨htokens, hleft⟩ := h.tokens hr
  rw [Nat.le_floor_iff (le_max_right _ _)]
  rcases hleft with hnone | hleft
  · rw [hnone, Nat.cast_zero]
    exact le_max_right _ _
  · refine le_max_of_le_left ?_
    linarith

structure Ends (send : σ → Lane → PeerId → Result × σ) (s : SendScheduler) (owner : σ) (n : ℕ)
    (t : Trace σ) : Prop where
  outcome : t.outcome = .ended ∨ t.outcome = .blocked
  stable : ∀ fuel, n + s.waiting + 1 ≤ fuel → trace send fuel s owner = t
  run : ∀ fuel, n + s.waiting + 1 ≤ fuel → run send fuel s owner = (t.scheduler, t.owner)
  served : served t.asks ≤ n
  emptied : ∀ lane peer, t.asks.count ⟨lane, peer, .empty⟩ ≤ (s.mRings lane).peers.count peer
  blocked : t.asks.countP (fun a => a.result = .blocked) ≤ 1

lemma accounts_trace (send : σ → Lane → PeerId → Result × σ) (fuel : ℕ) (s : SendScheduler) (owner : σ) :
    Accounts s (trace send fuel s owner) :=
  accounts_traceLanes ..

lemma ends_of_served_le {n : ℕ} (hserved : ∀ fuel, served (trace send fuel s owner).asks ≤ n) :
    ∃ t, Ends send s owner n t := by
  have haccounts := accounts_trace send (n + s.waiting + 1) s owner
  have hserved' := hserved (n + s.waiting + 1)
  have hfinished : (trace send (n + s.waiting + 1) s owner).outcome ≠ .unfinished := by
    intro hun
    have hfuel := le_length_of_unfinished hun
    have hempty := haccounts.progress.emptied_le
    have hblocked := haccounts.blocked
    rw [hun, if_neg nofun] at hblocked
    rw [← trace, length_eq_counts, hblocked] at hfuel
    omega
  refine ⟨trace send (n + s.waiting + 1) s owner, ?_, fun fuel hle => trace_stable hfinished hle,
    fun fuel hle => ?_,
    hserved', fun lane peer => ?_, ?_⟩
  · cases ht : (trace send (n + s.waiting + 1) s owner).outcome with
    | ended => exact .inl rfl
    | blocked => exact .inr rfl
    | unfinished => exact absurd ht hfinished
    | fault => exact absurd ht haccounts.sound
  · rw [← trace_stable hfinished hle]
    exact runLanes_eq ((congrArg Trace.outcome (trace_stable hfinished hle)).trans_ne hfinished)
  · rw [count_leavers, ← (haccounts.progress.peers lane).count_eq, List.count_append]
    exact Nat.le_add_right ..
  · rw [haccounts.blocked]
    split <;> omega

theorem run_ends (send : σ → Lane → PeerId → Result × σ) (s : SendScheduler) (owner : σ) :
    (s.mRate ≠ 0 → ∃ t, Ends send s owner ⌊max s.mTokens 0⌋₊ t) ∧
      (s.mRate = 0 → ∀ n, (∀ fuel, served (trace send fuel s owner).asks ≤ n) → ∃ t, Ends send s owner n t) ∧
      ∀ fuel, (trace send fuel s owner).outcome ≠ .fault := by
  refine ⟨fun hr => ?_, fun _ n hn => ends_of_served_le hn, fun fuel => (accounts_trace send fuel s owner).sound⟩
  exact ends_of_served_le fun fuel => (accounts_trace send fuel s owner).progress.served_le hr

def countDown (left : ℕ) (_ : Lane) (_ : PeerId) : Result × ℕ :=
  if left = 0 then (.empty, 0) else (.sent, left - 1)

def unlimited : SendScheduler := ((new 0).add .reliable 5).add .bulk 6

theorem run_ends_unlimited : ∃ t, Ends countDown unlimited 2 2 t ∧ served t.asks = 2 := by
  have hserved : ∀ fuel, served (trace countDown fuel unlimited 2).asks ≤ 2 := by
    intro fuel
    by_cases hle : 5 ≤ fuel
    · have hfinished : (trace countDown 5 unlimited 2).outcome ≠ .unfinished := by decide +kernel
      rw [trace_stable hfinished hle]
      decide +kernel
    · have hall : ∀ fuel ∈ List.range 5, served (trace countDown fuel unlimited 2).asks ≤ 2 := by decide +kernel
      exact hall fuel (List.mem_range.mpr (by omega))
  obtain ⟨t, ht⟩ := (run_ends countDown unlimited 2).2.1 rfl 2 hserved
  refine ⟨t, ht, ?_⟩
  rw [← ht.stable 5 (by decide)]
  decide +kernel

end NetLink.Channel.SendScheduler
