import Mathlib.Data.List.GetD
import NetLink.Channel.SendScheduler
import NetLink.Lib.System

/-! A turn in a lane is over when the peer has sent its quantum, cannot go on, or is gone. -/

namespace NetLink.Channel.SendScheduler

inductive Happened
  | asked (lane : Lane) (peer : PeerId) (result : Result)
  | removed (peer : PeerId)
  deriving DecidableEq, Repr

inductive Turn
  | idle
  | running (peer : PeerId) (got : ℕ)
  deriving DecidableEq, Repr

namespace Turn

def proceed (peer : PeerId) (got : ℕ) : Result → Turn
  | .sent => if got + 1 ≥ Quantum then .idle else .running peer (got + 1)
  | .lost | .empty => .idle
  | .blocked => .running peer got

def answer (peer : PeerId) (result : Result) : Turn → Option Turn
  | .idle => some (proceed peer 0 result)
  | .running q got => if peer = q then some (proceed q got result) else none

def leave (peer : PeerId) : Turn → Turn
  | .idle => .idle
  | .running q got => if peer = q then .idle else .running q got

def watch (lane : Lane) (turn : Option Turn) : Happened → Option Turn
  | .asked other peer result => if other = lane then turn.bind (answer peer result) else turn
  | .removed peer => turn.map (leave peer)

def after (lane : Lane) (log : List Happened) : Option Turn := log.foldl (watch lane) (some .idle)

end Turn

structure Supervised where
  scheduler : SendScheduler
  log : List Happened := []

namespace Supervised

def answering (answer : List Happened → Lane → PeerId → Result) (log : List Happened) (lane : Lane)
    (peer : PeerId) :
    Result × List Happened :=
  (answer log lane peer, log ++ [.asked lane peer (answer log lane peer)])

inductive Call
  | add (lane : Lane) (peer : PeerId)
  | remove (peer : PeerId)
  | refill (now : TimePoint)
  | spend (datagrams : ℕ)
  | run (answer : List Happened → Lane → PeerId → Result) (fuel : ℕ)

def call (w : Supervised) : Call → Supervised
  | .add lane peer => { w with scheduler := w.scheduler.add lane peer }
  | .remove peer => ⟨w.scheduler.remove peer, w.log ++ [.removed peer]⟩
  | .refill now => { w with scheduler := w.scheduler.refill now }
  | .spend datagrams => { w with scheduler := w.scheduler.spendMany datagrams }
  | .run answer fuel =>
    ⟨(w.scheduler.run (answering answer) fuel w.log).1, (w.scheduler.run (answering answer) fuel w.log).2⟩

def MidTurn (s : SendScheduler) (peer : PeerId) : Prop :=
  ∃ lane ∈ Order, (s.mRings lane).peers[(s.mRings lane).cursor]? = some peer ∧ 0 < (s.mRings lane).used

instance (s : SendScheduler) (peer : PeerId) : Decidable (MidTurn s peer) :=
  inferInstanceAs (Decidable (∃ lane ∈ Order, _ ∧ _))

def Allows (spares : SendScheduler → PeerId → Prop) (w : Supervised) : Call → Prop
  | .add lane peer => peer ∉ (w.scheduler.mRings lane).peers
  | .remove peer => spares w.scheduler peer
  | .refill _ | .spend _ | .run _ _ => True

def system (spares : SendScheduler → PeerId → Prop) : Lib.System Supervised where
  init w := ∃ rate, w = { scheduler := .new rate }
  step w w' := ∃ c, w.Allows spares c ∧ w' = w.call c

end Supervised

namespace Ring

def Counts (r : Ring) : Option Turn → Prop
  | none => False
  | some .idle => r.used = 0
  | some (.running peer got) => r.peers[r.cursor]? = some peer ∧ r.used = got

variable {r : Ring} {turn : Option Turn} {peer : PeerId}

lemma Counts.wrapped (h : r.Counts turn) (hp : r.peers ≠ []) :
    r.wrapped.Counts turn ∧ r.wrapped.cursor < r.wrapped.peers.length := by
  rw [Ring.wrapped]
  split
  · next hc =>
    refine ⟨?_, List.length_pos_iff.mpr hp⟩
    rcases turn with _ | _ | ⟨q, got⟩
    · exact h
    · exact h
    · have := h.1
      rw [List.getElem?_eq_none hc] at this
      cases this
  · next hc =>
    exact ⟨h, not_le.mp hc⟩

lemma counts_proceed (hc : r.cursor < r.peers.length) (result : Result) :
    (r.answered result).Counts (some (Turn.proceed (r.peers.getD r.cursor 0) r.used result)) := by
  have hget : r.peers[r.cursor]? = some (r.peers.getD r.cursor 0) := by
    rw [List.getD_eq_getElem _ _ hc, List.getElem?_eq_getElem hc]
  cases result with
  | sent =>
    rw [Ring.answered, Turn.proceed]
    split
    · rfl
    · exact ⟨hget, rfl⟩
  | lost => rfl
  | empty => rfl
  | blocked => exact ⟨hget, rfl⟩

lemma Counts.answered (h : r.Counts turn) (hc : r.cursor < r.peers.length) (result : Result) :
    (r.answered result).Counts (turn.bind (Turn.answer (r.peers.getD r.cursor 0) result)) := by
  have hnext := counts_proceed hc result
  rcases turn with _ | _ | ⟨q, got⟩
  · exact h.elim
  · have hused : r.used = 0 := h
    rw [hused] at hnext
    exact hnext
  · obtain ⟨hq, rfl⟩ := h
    obtain rfl : r.peers.getD r.cursor 0 = q := by
      rw [List.getElem?_eq_getElem hc, Option.some.injEq] at hq
      rw [List.getD_eq_getElem _ _ hc, hq]
    rw [Option.bind_some, Turn.answer, if_pos rfl]
    exact hnext

lemma Counts.add (h : r.Counts turn) : ({ r with peers := r.peers ++ [peer] } : Ring).Counts turn := by
  rcases turn with _ | _ | ⟨q, got⟩
  · exact h
  · exact h
  · obtain ⟨hq, hused⟩ := h
    obtain ⟨hc, -⟩ := List.getElem?_eq_some_iff.mp hq
    refine ⟨?_, hused⟩
    dsimp only
    rw [List.getElem?_append_left hc]
    exact hq

lemma remove_used : (r.remove peer).used = r.used := by
  rw [Ring.remove]
  split <;> rfl

lemma getElem?_remove {q : PeerId} (hq : r.peers[r.cursor]? = some q) (hne : peer ≠ q) :
    (r.remove peer).peers[(r.remove peer).cursor]? = some q := by
  rw [Ring.remove]
  split
  · exact hq
  · next i hi =>
    obtain ⟨hlt, heq, -⟩ := List.findIdx?_eq_some_iff_getElem.mp hi
    have hi : i ≠ r.cursor := by
      rintro rfl
      rw [List.getElem?_eq_getElem hlt, Option.some.injEq] at hq
      exact hne ((beq_iff_eq.mp heq).symm.trans hq)
    dsimp only
    split
    · next hbefore =>
      rw [List.getElem?_eraseIdx_of_ge (by omega), Nat.sub_add_cancel (by omega)]
      exact hq
    · rw [List.getElem?_eraseIdx_of_lt (by omega)]
      exact hq

lemma Counts.remove (h : r.Counts turn) (hspared : ¬(r.peers[r.cursor]? = some peer ∧ 0 < r.used)) :
    (r.remove peer).Counts (turn.map (Turn.leave peer)) := by
  rcases turn with _ | _ | ⟨q, got⟩
  · exact h
  · exact remove_used.trans h
  · obtain ⟨hq, rfl⟩ := h
    rw [Option.map_some, Turn.leave]
    split
    · next he =>
      subst he
      have hzero : r.used = 0 := by
        by_contra hpos
        exact hspared ⟨hq, Nat.pos_of_ne_zero hpos⟩
      exact remove_used.trans hzero
    · next hne =>
      exact ⟨getElem?_remove hq hne, remove_used⟩

end Ring

namespace Supervised

lemma after_concat (lane : Lane) (log : List Happened) (e : Happened) :
    Turn.after lane (log ++ [e]) = Turn.watch lane (Turn.after lane log) e := by
  rw [Turn.after, List.foldl_append, List.foldl_cons, List.foldl_nil, Turn.after]

def Counted (rings : Lane → Ring) (log : List Happened) : Prop :=
  ∀ lane, (rings lane).Counts (Turn.after lane log)

lemma counted_answers (answer : List Happened → Lane → PeerId → Result) : Answers (answering answer) Counted := by
  rintro rings log lane ring h hpeers rfl other
  obtain ⟨hring, hc⟩ := (h lane).wrapped hpeers
  rw [answering, after_concat, Turn.watch]
  by_cases hl : lane = other
  · subst hl
    rw [if_pos rfl, Function.update_self]
    exact hring.answered hc _
  · rw [if_neg hl, Function.update_of_ne (Ne.symm hl)]
    exact h other

lemma Counted.add {rings : Lane → Ring} {log : List Happened} (h : Counted rings log) (lane : Lane)
    (peer : PeerId) :
    Counted (Function.update rings lane { rings lane with peers := (rings lane).peers ++ [peer] }) log := by
  intro other
  by_cases hl : other = lane
  · subst hl
    rw [Function.update_self]
    exact (h other).add
  · rw [Function.update_of_ne hl]
    exact h other

lemma mem_order (lane : Lane) : lane ∈ Order := by
  cases lane <;> decide

lemma Counted.remove {s : SendScheduler} {log : List Happened} (h : Counted s.mRings log) {peer : PeerId}
    (hspared : ¬MidTurn s peer) : Counted (s.remove peer).mRings (log ++ [.removed peer]) := by
  intro lane
  rw [after_concat]
  exact (h lane).remove fun hmid => hspared ⟨lane, mem_order lane, hmid⟩

lemma counted {w : Supervised} (h : (system fun s peer => ¬MidTurn s peer).Reachable w) :
    Counted w.scheduler.mRings w.log := by
  refine h.invariant (P := fun w => Counted w.scheduler.mRings w.log) ?_ ?_
  · rintro _ ⟨rate, rfl⟩ lane
    rfl
  · rintro w _ _ hk ⟨c, hc, rfl⟩
    cases c with
    | add lane peer => exact hk.add lane peer
    | remove peer => exact hk.remove hc
    | refill now => exact hk
    | spend datagrams =>
      rw [call, spendMany]
      split <;> exact hk
    | run answer fuel => exact run_invariant (counted_answers answer) fuel w.scheduler w.log hk

theorem turns_are_full {w : Supervised} (h : (system fun s peer => ¬MidTurn s peer).Reachable w) (lane : Lane) :
    Turn.after lane w.log ≠ none := by
  intro hnone
  have hc := counted h lane
  rw [hnone] at hc
  exact hc

instance {spares : SendScheduler → PeerId → Prop} [∀ s peer, Decidable (spares s peer)] (w : Supervised) :
    ∀ c, Decidable (w.Allows spares c)
  | .add lane peer => inferInstanceAs (Decidable (peer ∉ (w.scheduler.mRings lane).peers))
  | .remove peer => inferInstanceAs (Decidable (spares w.scheduler peer))
  | .refill _ | .spend _ | .run _ _ => .isTrue trivial

def script (results : List Result) (log : List Happened) (_ : Lane) (_ : PeerId) : Result :=
  results.getD (log.countP fun e => e matches .asked ..) .blocked

def sample (calls : List Call) : Supervised := calls.foldl call { scheduler := .new 0 }

lemma reachable_sample {spares : SendScheduler → PeerId → Prop} (calls : List Call)
    (h : Lib.Along (Allows spares) call { scheduler := .new 0 } calls) :
      (system spares).Reachable (sample calls) :=
  .along (fun _ c hc => ⟨c, hc, rfl⟩) (.of_init ⟨0, rfl⟩) h

def othersLeave : List Call :=
  [.add .bulk 1, .add .bulk 2, .add .bulk 3, .run (script [.sent, .sent]) 9, .remove 2,
    .run (script [.sent, .sent, .blocked, .sent, .sent, .sent]) 9]

theorem turns_are_full_othersLeave :
    (sample othersLeave).log =
        [.asked .bulk 1 .sent, .asked .bulk 1 .sent, .asked .bulk 1 .blocked, .removed 2, .asked .bulk 1 .sent,
          .asked .bulk 1 .sent, .asked .bulk 3 .sent, .asked .bulk 3 .blocked] ∧
      Turn.after .bulk (sample othersLeave).log ≠ none :=
  ⟨by decide +kernel, turns_are_full (reachable_sample _ (by decide +kernel)) .bulk⟩

/-- The first peer leaves after two datagrams: the second one is charged for them, and the third one is asked after
two datagrams of the second. -/
theorem removal_charges_the_next : ∃ w, (system fun _ _ => True).Reachable w ∧
    w.log = [.asked .bulk 1 .sent, .asked .bulk 1 .sent, .asked .bulk 1 .blocked, .removed 1, .asked .bulk 2 .sent,
      .asked .bulk 2 .sent, .asked .bulk 3 .blocked] ∧
    Turn.after .bulk w.log = none := by
  refine ⟨sample [.add .bulk 1, .add .bulk 2, .add .bulk 3, .run (script [.sent, .sent]) 9, .remove 1,
    .run (script [.sent, .sent, .blocked, .sent, .sent]) 9], reachable_sample _ ?_, ?_, ?_⟩ <;> decide +kernel

end Supervised

end NetLink.Channel.SendScheduler
