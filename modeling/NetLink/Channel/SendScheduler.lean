import Mathlib.Data.Rat.Defs
import Mathlib.Logic.Function.Basic
import Mathlib.Tactic.NormNum
import NetLink.Channel.Packet
import NetLink.Types

/-! The send budget of one socket: a token bucket counted in datagrams, shared by lane and, within a lane, by
the peers in turn. The tokens are exact. -/

namespace NetLink.Channel

namespace SendScheduler

def Quantum : ℕ := 4
def Tick : ℤ := fromMillis 1
def Order : List Lane := [.control, .media, .reliable, .bulk]

inductive Result
  | sent | lost | empty | blocked
  deriving DecidableEq, Repr

def Result.serves : Result → Bool
  | .sent | .lost => true
  | .empty | .blocked => false

structure Ring where
  peers : List PeerId := []
  cursor : ℕ := 0
  used : ℕ := 0
  deriving DecidableEq, Repr

def Ring.next (r : Ring) : Ring := { r with cursor := r.cursor + 1, used := 0 }

def burstOf (ratePerSecond : ℕ) : ℕ := max 16 (ratePerSecond / 500)

end SendScheduler

open SendScheduler in
structure SendScheduler where
  mRate : ℕ := 0
  mBurst : ℕ := 0
  mTokens : ℚ := 0
  mRefilledAt : Option TimePoint := none
  mRings : Lane → Ring := fun _ => {}

namespace SendScheduler

def setRate (s : SendScheduler) (ratePerSecond : ℕ) : SendScheduler :=
  { s with
    mRate := ratePerSecond
    mBurst := burstOf ratePerSecond
    mTokens := burstOf ratePerSecond
    mRefilledAt := none }

def new (ratePerSecond : ℕ) : SendScheduler := ({} : SendScheduler).setRate ratePerSecond

def isUnlimited (s : SendScheduler) : Bool := s.mRate == 0

def hasTokens (s : SendScheduler) : Bool := s.isUnlimited || 1 ≤ s.mTokens

def seconds (d : ℤ) : ℚ := d / 1000000000

def refill (s : SendScheduler) (now : TimePoint) : SendScheduler :=
  let tokens := match s.mRefilledAt with
    | none => s.mTokens
    | some t => if t < now then min s.mBurst (s.mTokens + s.mRate * seconds (now - t)) else s.mTokens
  { s with mTokens := tokens, mRefilledAt := some now }

def spend (s : SendScheduler) : SendScheduler :=
  if s.isUnlimited then s else { s with mTokens := s.mTokens - 1 }

def spendMany (s : SendScheduler) (datagrams : ℕ) : SendScheduler :=
  if s.isUnlimited then s else { s with mTokens := s.mTokens - datagrams }

def setRing (s : SendScheduler) (lane : Lane) (ring : Ring) : SendScheduler :=
  { s with mRings := Function.update s.mRings lane ring }

def add (s : SendScheduler) (lane : Lane) (peer : PeerId) : SendScheduler :=
  s.setRing lane { s.mRings lane with peers := (s.mRings lane).peers ++ [peer] }

def Ring.remove (r : Ring) (peer : PeerId) : Ring :=
  match r.peers.findIdx? (· == peer) with
  | none => r
  | some i =>
    { r with peers := r.peers.eraseIdx i, cursor := if i < r.cursor then r.cursor - 1 else r.cursor }

def remove (s : SendScheduler) (peer : PeerId) : SendScheduler :=
  { s with mRings := fun lane => (s.mRings lane).remove peer }

def clear (s : SendScheduler) : SendScheduler := { s with mRings := fun _ => {} }

def hasBacklog (s : SendScheduler) : Bool := Order.any fun lane => !(s.mRings lane).peers.isEmpty

def waiting (s : SendScheduler) : ℕ := (Order.map fun lane => (s.mRings lane).peers.length).sum

/-! `run` asks its callback for one datagram at a time. What the callback works on is `σ`; the scheduler is
not part of it. -/

variable {σ : Type} (send : σ → Lane → PeerId → Result × σ)

/-- The `while` loop of one lane: it stops by itself as soon as `fuel` covers the answers of the callback. The
first component says that the socket blocked, the second one is the allowance Media has left. -/
def runLane (lane : Lane) (capped : Bool) : ℕ → ℚ → SendScheduler → σ → Bool × ℚ × SendScheduler × σ
  | 0, allowance, s, owner => (false, allowance, s, owner)
  | fuel + 1, allowance, s, owner =>
    let ring := s.mRings lane
    if ring.peers.isEmpty || !s.hasTokens || (capped && allowance < 1) then (false, allowance, s, owner)
    else
      let ring := if ring.cursor ≥ ring.peers.length then { ring with cursor := 0 } else ring
      let left := allowance - (if capped then 1 else 0)
      match send owner lane (ring.peers.getD ring.cursor 0) with
      | (.sent, owner) =>
        let ring := { ring with used := ring.used + 1 }
        let ring := if ring.used ≥ Quantum then ring.next else ring
        runLane lane capped fuel left (s.spend.setRing lane ring) owner
      | (.lost, owner) => runLane lane capped fuel left (s.spend.setRing lane ring.next) owner
      | (.empty, owner) =>
        let ring := { ring with peers := ring.peers.eraseIdx ring.cursor, used := 0 }
        runLane lane capped fuel allowance (s.setRing lane ring) owner
      | (.blocked, owner) => (true, allowance, s.setRing lane ring, owner)

def runLanes (fuel : ℕ) : List Lane → ℚ → SendScheduler → σ → SendScheduler × σ
  | [], _, s, owner => (s, owner)
  | lane :: lanes, allowance, s, owner =>
    match runLane send lane (lane == .media && !s.isUnlimited) fuel allowance s owner with
    | (true, _, s, owner) => (s, owner)
    | (false, allowance, s, owner) => runLanes fuel lanes allowance s owner

def run (fuel : ℕ) (s : SendScheduler) (owner : σ) : SendScheduler × σ :=
  let acknowledgedWaits := !(s.mRings .reliable).peers.isEmpty || !(s.mRings .bulk).peers.isEmpty
  runLanes send fuel Order (if acknowledgedWaits then s.mTokens * 3 / 4 else s.mTokens) s owner

def Ring.wrapped (r : Ring) : Ring := if r.cursor ≥ r.peers.length then { r with cursor := 0 } else r

def Ring.answered (r : Ring) : Result → Ring
  | .sent => if r.used + 1 ≥ Quantum then r.next else { r with used := r.used + 1 }
  | .lost => r.next
  | .empty => { r with peers := r.peers.eraseIdx r.cursor, used := 0 }
  | .blocked => r

@[simp] lemma mRings_spend (s : SendScheduler) : s.spend.mRings = s.mRings := by
  rw [spend]
  split <;> rfl

variable {send} {P : (Lane → Ring) → σ → Prop}

def Answers (send : σ → Lane → PeerId → Result × σ) (P : (Lane → Ring) → σ → Prop) : Prop :=
  ∀ rings owner lane ring, P rings owner → (rings lane).peers ≠ [] → ring = (rings lane).wrapped →
    P (Function.update rings lane (ring.answered (send owner lane (ring.peers.getD ring.cursor 0)).1))
      (send owner lane (ring.peers.getD ring.cursor 0)).2

lemma runLane_invariant (h : Answers send P) (lane : Lane) (capped : Bool) (fuel : ℕ) (allowance : ℚ)
    (s : SendScheduler) (owner : σ) (hp : P s.mRings owner) :
    P (runLane send lane capped fuel allowance s owner).2.2.1.mRings
      (runLane send lane capped fuel allowance s owner).2.2.2 := by
  induction fuel generalizing allowance s owner with
  | zero => exact hp
  | succ fuel ih =>
    rw [runLane]
    dsimp only
    split
    · exact hp
    · next hgo =>
      have hpeers : (s.mRings lane).peers ≠ [] := fun he => hgo (by simp [he])
      have hs := h _ _ lane _ hp hpeers rfl
      rw [Ring.wrapped] at hs
      generalize (if (s.mRings lane).cursor ≥ (s.mRings lane).peers.length then
        { s.mRings lane with cursor := 0 } else s.mRings lane) = ring at hs ⊢
      split
      · next he =>
        rw [he] at hs
        exact ih _ _ _ (by simpa [setRing, Ring.answered, Ring.next] using hs)
      · next he =>
        rw [he] at hs
        exact ih _ _ _ (by simpa [setRing, Ring.answered] using hs)
      · next he =>
        rw [he] at hs
        exact ih _ _ _ hs
      · next he =>
        rw [he] at hs
        exact hs

lemma runLanes_invariant (h : Answers send P) (fuel : ℕ) (lanes : List Lane) (allowance : ℚ) (s : SendScheduler)
    (owner : σ) (hp : P s.mRings owner) :
    P (runLanes send fuel lanes allowance s owner).1.mRings (runLanes send fuel lanes allowance s owner).2 := by
  induction lanes generalizing allowance s owner with
  | nil => exact hp
  | cons lane lanes ih =>
    have hl := runLane_invariant h lane (lane == .media && !s.isUnlimited) fuel allowance s owner hp
    rw [runLanes]
    split
    · next he =>
      rw [he] at hl
      exact hl
    · next he =>
      rw [he] at hl
      exact ih _ _ _ hl

lemma run_invariant (h : Answers send P) (fuel : ℕ) (s : SendScheduler) (owner : σ) (hp : P s.mRings owner) :
    P (run send fuel s owner).1.mRings (run send fuel s owner).2 :=
  runLanes_invariant h fuel Order _ s owner hp

variable (send) in
lemma run_keeps {P : σ → Prop} (h : ∀ owner lane id, P owner → P (send owner lane id).2) (fuel : ℕ)
    (s : SendScheduler) (owner : σ) (hp : P owner) : P (run send fuel s owner).2 :=
  run_invariant (P := fun _ => P) (fun _ owner lane _ hp _ _ => h owner lane _ hp) fuel s owner hp

end SendScheduler

end NetLink.Channel
