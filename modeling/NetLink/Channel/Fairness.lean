import Mathlib.Data.List.GetD
import NetLink.Channel.SendScheduler
import NetLink.Lib.System
import NetLink.Lib.Turns

/-! Peers of a lane take turns: how much the others send while one of them waits. -/

namespace NetLink.Channel.SendScheduler

open Lib (Turns.since Turns.Event)

inductive Entry
  | asked (lane : Lane) (peer : PeerId) (result : Result)
  | added (lane : Lane) (peer : PeerId)
  deriving DecidableEq, Repr

def Entry.turn (lane : Lane) : Entry → Option (Turns.Event PeerId)
  | .asked other peer result => if other = lane then some (.asked peer result.serves) else none
  | .added other peer => if other = lane then some (.joined peer) else none

def Entry.concerns (lane : Lane) (p : PeerId) : Entry → Bool
  | .asked other peer _ | .added other peer => other = lane ∧ peer = p

def Entry.serves (lane : Lane) (q : PeerId) : Entry → Bool
  | .asked other peer result => other = lane ∧ peer = q ∧ (result = .sent ∨ result = .lost)
  | .added _ _ => false

def turnsOf (lane : Lane) (log : List Entry) : List (Turns.Event PeerId) := log.filterMap (Entry.turn lane)

structure Watched where
  scheduler : SendScheduler
  log : List Entry := []

def answering (answer : List Entry → Lane → PeerId → Result) (log : List Entry) (lane : Lane) (peer : PeerId) :
    Result × List Entry :=
  (answer log lane peer, log ++ [.asked lane peer (answer log lane peer)])

inductive Call
  | add (lane : Lane) (peer : PeerId)
  | refill (now : TimePoint)
  | spend
  | run (answer : List Entry → Lane → PeerId → Result) (fuel : ℕ)

namespace Watched

def call (w : Watched) : Call → Watched
  | .add lane peer => ⟨w.scheduler.add lane peer, w.log ++ [.added lane peer]⟩
  | .refill now => { w with scheduler := w.scheduler.refill now }
  | .spend => { w with scheduler := w.scheduler.spend }
  | .run answer fuel =>
    ⟨(w.scheduler.run (answering answer) fuel w.log).1, (w.scheduler.run (answering answer) fuel w.log).2⟩

def Allows (fair : Watched → Lane → PeerId → Prop) (w : Watched) : Call → Prop
  | .add lane peer => peer ∉ (w.scheduler.mRings lane).peers ∧ fair w lane peer
  | .refill _ | .spend | .run _ _ => True

instance {fair : Watched → Lane → PeerId → Prop} [∀ w lane peer, Decidable (fair w lane peer)] (w : Watched) :
    ∀ c, Decidable (w.Allows fair c)
  | .add lane peer => inferInstanceAs (Decidable (peer ∉ (w.scheduler.mRings lane).peers ∧ fair w lane peer))
  | .refill _ | .spend | .run _ _ => .isTrue trivial

def system (fair : Watched → Lane → PeerId → Prop) : Lib.System Watched where
  init w := ∃ rate, w = { scheduler := .new rate }
  step w w' := ∃ c, w.Allows fair c ∧ w' = w.call c

/-- Nobody the cursor has passed has seen the peer served while it waited. -/
def Unserved (w : Watched) (lane : Lane) (peer : PeerId) : Prop :=
  ∀ p ∈ (w.scheduler.mRings lane).peers.take (w.scheduler.mRings lane).cursor,
    Turns.since p peer (turnsOf lane w.log) = 0

instance (w : Watched) (lane : Lane) (peer : PeerId) : Decidable (w.Unserved lane peer) :=
  List.decidableBAll (fun p => Turns.since p peer (turnsOf lane w.log) = 0) _

end Watched

namespace Ring

def order (r : Ring) : List PeerId := r.peers.drop r.cursor ++ r.peers.take r.cursor

structure Fair (r : Ring) (events : List (Turns.Event PeerId)) : Prop where
  cursor : r.cursor ≤ r.peers.length
  fresh : r.cursor = r.peers.length → r.used = 0
  turns : Lib.Turns.Fair Quantum r.order r.used events

variable {r : Ring} {events : List (Turns.Event PeerId)} {x : PeerId} {served : Bool}

lemma mem_order {p : PeerId} : p ∈ r.order ↔ p ∈ r.peers := by
  rw [order, List.mem_append, or_comm, ← List.mem_append, List.take_append_drop]

lemma Fair.wrapped (h : r.Fair events) (hp : r.peers ≠ []) : r.wrapped.Fair events ∧
    r.wrapped.cursor < r.wrapped.peers.length := by
  have hlength : 0 < r.peers.length := List.length_pos_iff.mpr hp
  rw [Ring.wrapped]
  split
  · next hc =>
    have hc : r.cursor = r.peers.length := le_antisymm h.cursor hc
    have horder : ({ r with cursor := 0 } : Ring).order = r.order := by simp [order, hc]
    refine ⟨⟨Nat.zero_le _, fun _ => h.fresh hc, ?_⟩, hlength⟩
    rw [horder]
    exact h.turns
  · next hc => exact ⟨h, not_le.mp hc⟩

lemma order_of_lt (hc : r.cursor < r.peers.length) :
    r.order = r.peers.getD r.cursor 0 :: (r.peers.drop (r.cursor + 1) ++ r.peers.take r.cursor) := by
  rw [order, List.drop_eq_getElem_cons hc, List.getD_eq_getElem _ _ hc, List.cons_append]

lemma order_next (hc : r.cursor < r.peers.length) :
    r.next.order = (r.peers.drop (r.cursor + 1) ++ r.peers.take r.cursor) ++ [r.peers.getD r.cursor 0] := by
  rw [List.append_assoc, List.getD_eq_getElem _ _ hc, ← List.take_succ_eq_append_getElem hc]
  rfl

lemma order_leave (hc : r.cursor < r.peers.length) :
    ({ r with peers := r.peers.eraseIdx r.cursor, used := 0 } : Ring).order =
      r.peers.drop (r.cursor + 1) ++ r.peers.take r.cursor := by
  have hlength : (r.peers.take r.cursor).length = r.cursor := List.length_take_of_le hc.le
  have hdrop : (r.peers.eraseIdx r.cursor).drop r.cursor = r.peers.drop (r.cursor + 1) := by
    rw [List.eraseIdx_eq_take_drop_succ]
    exact List.drop_left' hlength
  have htake : (r.peers.eraseIdx r.cursor).take r.cursor = r.peers.take r.cursor := by
    rw [List.eraseIdx_eq_take_drop_succ]
    exact List.take_left' hlength
  rw [order, hdrop, htake]

lemma Fair.next (h : r.Fair events) (hc : r.cursor < r.peers.length) :
    r.next.Fair (events ++ [.asked (r.peers.getD r.cursor 0) served]) := by
  refine ⟨hc, fun _ => rfl, ?_⟩
  rw [order_next hc]
  exact (order_of_lt hc ▸ h.turns).pass

lemma Fair.answered (h : r.Fair events) (hc : r.cursor < r.peers.length) (result : Result) :
    (r.answered result).Fair (events ++ [.asked (r.peers.getD r.cursor 0) result.serves]) := by
  have hturns := h.turns
  rw [order_of_lt hc] at hturns
  cases result with
  | sent =>
    rw [Ring.answered]
    split
    · exact h.next hc
    · next hq =>
      refine ⟨hc.le, fun he => absurd he hc.ne, ?_⟩
      have horder : ({ r with used := r.used + 1 } : Ring).order = r.order := rfl
      rw [horder, order_of_lt hc]
      exact hturns.stay (not_le.mp hq) (.inr rfl)
  | lost => exact h.next hc
  | empty =>
    refine ⟨?_, fun _ => rfl, ?_⟩
    · have hlength : (r.peers.eraseIdx r.cursor).length = r.peers.length - 1 := List.length_eraseIdx_of_lt hc
      have : r.cursor ≤ (r.peers.eraseIdx r.cursor).length := by omega
      exact this
    · exact order_leave hc ▸ hturns.leave
  | blocked =>
    refine ⟨hc.le, fun he => absurd he hc.ne, ?_⟩
    rw [Ring.answered, order_of_lt hc]
    exact hturns.stay hturns.room (.inl ⟨rfl, rfl⟩)

lemma Fair.add (h : r.Fair events) (hx : x ∉ r.peers)
    (hs : ∀ p ∈ r.peers.take r.cursor, Turns.since p x events = 0) :
    ({ r with peers := r.peers ++ [x] } : Ring).Fair (events ++ [.joined x]) := by
  refine ⟨?_, fun he => ?_, ?_⟩
  · have hc := h.cursor
    simp only [List.length_append, List.length_singleton]
    omega
  · have hc := h.cursor
    simp only [List.length_append, List.length_singleton] at he
    omega
  · have horder : ({ r with peers := r.peers ++ [x] } : Ring).order =
        r.peers.drop r.cursor ++ x :: r.peers.take r.cursor := by
      simp [order, List.drop_append_of_le_length h.cursor, List.take_append_of_le_length h.cursor]
    rw [horder]
    refine h.turns.join (fun hm => hx (mem_order.mp hm)) hs fun hd => ?_
    have hle : r.peers.length ≤ r.cursor := List.drop_eq_nil_iff.mp hd
    exact h.fresh (le_antisymm h.cursor hle)

end Ring

lemma turnsOf_concat (lane : Lane) (log : List Entry) (e : Entry) :
    turnsOf lane (log ++ [e]) = turnsOf lane log ++ (e.turn lane).toList := by
  rw [turnsOf, List.filterMap_append, List.filterMap_cons]
  cases e.turn lane <;> rfl

variable {lane : Lane} {e : Entry}

lemma turn_eq_none : e.turn lane = none ↔ ∀ p, e.concerns lane p = false := by
  cases e <;> simp [Entry.turn, Entry.concerns]

lemma who_of_turn {p : PeerId} {t : Turns.Event PeerId} (h : e.turn lane = some t) :
    e.concerns lane p = true ↔ t.who = p := by
  cases e <;> (simp only [Entry.turn, Option.ite_none_right_eq_some, Option.some.injEq] at h
               obtain ⟨rfl, rfl⟩ := h
               simp [Entry.concerns, Turns.Event.who])

lemma serves_turn (lane : Lane) (q : PeerId) (e : Entry) :
    ((e.turn lane).map (Turns.Event.serves q)).getD false = e.serves lane q := by
  cases e with
  | asked other peer result =>
    by_cases hl : other = lane
    · cases result <;> simp [Entry.turn, Entry.serves, Turns.Event.serves, Result.serves, hl]
    · simp [Entry.turn, Entry.serves, hl]
  | added other peer => by_cases hl : other = lane <;> simp [Entry.turn, Entry.serves, Turns.Event.serves, hl]

lemma since_turnsOf {p q : PeerId} (pre : List Entry) {mid : List Entry}
    (he : e.concerns lane p) (hmid : ∀ e ∈ mid, e.concerns lane p = false) :
    Turns.since p q (turnsOf lane (pre ++ e :: mid)) = mid.countP (Entry.serves lane q) := by
  obtain ⟨t, ht⟩ : ∃ t, e.turn lane = some t := by
    refine Option.ne_none_iff_exists'.mp fun hnone => ?_
    simp [turn_eq_none.mp hnone p] at he
  have hturns : turnsOf lane (pre ++ e :: mid) = turnsOf lane pre ++ t :: turnsOf lane mid := by
    simp [turnsOf, ht]
  rw [hturns, Lib.Turns.since_eq_countP ((who_of_turn ht).mp he), turnsOf, List.countP_filterMap]
  · simp only [serves_turn]
  · intro t' ht'
    obtain ⟨e', he', hturn⟩ := List.mem_filterMap.mp ht'
    rw [Ne, ← who_of_turn hturn, hmid e' he']
    exact Bool.false_ne_true

namespace Watched

structure Kept (rings : Lane → Ring) (log : List Entry) : Prop where
  fair : ∀ lane, (rings lane).Fair (turnsOf lane log)
  asks : ∀ pre lane p result, pre ++ [.asked lane p result] <+: log →
    ∀ q ≠ p, Turns.since p q (turnsOf lane pre) ≤ Quantum

lemma Kept.asked {rings : Lane → Ring} {log : List Entry} (h : Kept rings log) {ring : Ring}
    (hring : ring.Fair (turnsOf lane log)) (hc : ring.cursor < ring.peers.length) (result : Result) :
    Kept (Function.update rings lane (ring.answered result))
      (log ++ [.asked lane (ring.peers.getD ring.cursor 0) result]) := by
  refine ⟨fun other => ?_, fun pre other p result' hpre q hq => ?_⟩
  · rw [turnsOf_concat]
    by_cases hl : lane = other
    · subst hl
      rw [Function.update_self]
      simpa [Entry.turn] using hring.answered hc result
    · rw [Function.update_of_ne (Ne.symm hl)]
      simpa [Entry.turn, hl] using h.fair other
  · rcases List.prefix_concat_iff.mp hpre with heq | hpre
    · obtain ⟨rfl, he⟩ := List.append_inj' heq rfl
      simp only [List.cons.injEq, Entry.asked.injEq, and_true] at he
      obtain ⟨rfl, rfl, rfl⟩ := he
      refine hring.turns.bounded _ (Ring.mem_order.mpr ?_) q hq
      rw [List.getD_eq_getElem _ _ hc]
      exact List.getElem_mem hc
    · exact h.asks pre other p result' hpre q hq

lemma kept_answers (answer : List Entry → Lane → PeerId → Result) : Answers (answering answer) Kept := by
  rintro rings log lane ring h hpeers rfl
  obtain ⟨hring, hc⟩ := (h.fair lane).wrapped hpeers
  exact h.asked hring hc _

lemma Kept.added {rings : Lane → Ring} {log : List Entry} (h : Kept rings log) {peer : PeerId}
    (hn : peer ∉ (rings lane).peers)
    (hs : ∀ p ∈ (rings lane).peers.take (rings lane).cursor, Turns.since p peer (turnsOf lane log) = 0) :
    Kept (Function.update rings lane { rings lane with peers := (rings lane).peers ++ [peer] })
      (log ++ [.added lane peer]) := by
  refine ⟨fun other => ?_, fun pre other p result hpre q hq => ?_⟩
  · rw [turnsOf_concat]
    by_cases hl : lane = other
    · subst hl
      rw [Function.update_self]
      simpa [Entry.turn] using (h.fair lane).add hn hs
    · rw [Function.update_of_ne (Ne.symm hl)]
      simpa [Entry.turn, hl] using h.fair other
  · rcases List.prefix_concat_iff.mp hpre with heq | hpre
    · simp at heq
    · exact h.asks pre other p result hpre q hq

lemma kept_new (rate : ℕ) : Kept (SendScheduler.new rate).mRings [] := by
  refine ⟨fun lane => ⟨le_rfl, fun _ => rfl, ?_⟩, fun pre lane p result hpre => ?_⟩
  · exact ⟨Nat.succ_pos 3, .nil, by simp [Ring.order, new, setRate], by simp [Ring.order, new, setRate], .nil⟩
  · simp at hpre

lemma kept {w : Watched} (h : (system Unserved).Reachable w) : Kept w.scheduler.mRings w.log := by
  refine h.invariant (P := fun w => Kept w.scheduler.mRings w.log) ?_ ?_
  · rintro _ ⟨rate, rfl⟩
    exact kept_new rate
  · rintro w _ _ hk ⟨c, hc, rfl⟩
    cases c with
    | add lane peer => exact hk.added hc.1 hc.2
    | refill now => exact hk
    | spend => simpa [call] using hk
    | run answer fuel => exact run_invariant (kept_answers answer) fuel w.scheduler w.log hk

theorem others_served_at_most_quantum {w : Watched} (h : (system Unserved).Reachable w) (lane : Lane)
    {p q : PeerId} (hq : q ≠ p) (pre mid : List Entry) (e : Entry) (he : e.concerns lane p)
    (hmid : ∀ e ∈ mid, e.concerns lane p = false) :
    (∀ result post, w.log = pre ++ e :: (mid ++ .asked lane p result :: post) →
        mid.countP (Entry.serves lane q) ≤ Quantum) ∧
      (w.log = pre ++ e :: mid → p ∈ (w.scheduler.mRings lane).peers →
        mid.countP (Entry.serves lane q) ≤ Quantum) := by
  have hk := kept h
  rw [← since_turnsOf pre he hmid]
  refine ⟨fun result post hlog => hk.asks _ lane p result ⟨post, ?_⟩ q hq, fun hlog hp => ?_⟩
  · simp [hlog]
  · rw [← hlog]
    exact (hk.fair lane).turns.bounded p (Ring.mem_order.mpr hp) q hq

def script (results : List Result) (log : List Entry) (_ : Lane) (_ : PeerId) : Result :=
  results.getD (log.countP fun e => e matches .asked ..) .blocked

def sample (calls : List Call) : Watched := calls.foldl call { scheduler := .new 0 }

lemma reachable_sample {fair : Watched → Lane → PeerId → Prop} (calls : List Call)
    (h : Lib.Along (Allows fair) call { scheduler := .new 0 } calls) : (system fair).Reachable (sample calls) :=
  .along (fun _ c hc => ⟨c, hc, rfl⟩) (.of_init ⟨0, rfl⟩) h

theorem others_served_at_most_quantum_inTurn :
    (sample [.add .reliable 1, .add .reliable 2, .run (script [.lost, .sent, .sent, .sent, .sent]) 9]).log =
        [.added .reliable 1, .added .reliable 2] ++ .asked .reliable 1 .lost ::
          (List.replicate 4 (.asked .reliable 2 .sent) ++ .asked .reliable 1 .blocked :: []) ∧
      (List.replicate 4 (Entry.asked .reliable 2 .sent)).countP (Entry.serves .reliable 2) ≤ Quantum := by
  have hlog : (sample [.add .reliable 1, .add .reliable 2,
    .run (script [.lost, .sent, .sent, .sent, .sent]) 9]).log =
      [.added .reliable 1, .added .reliable 2] ++ .asked .reliable 1 .lost ::
        (List.replicate 4 (.asked .reliable 2 .sent) ++ .asked .reliable 1 .blocked :: []) := by decide +kernel
  refine ⟨hlog, (others_served_at_most_quantum (reachable_sample _ ?_) .reliable (p := 1) (q := 2) ?_
    _ _ _ ?_ ?_).1
    _ _ hlog⟩ <;> decide +kernel

/-- The second peer leaves after three datagrams and comes back while the third one is at its turn: it is put
behind the cursor, and served a whole quantum more before the first one is asked again. -/
theorem newcomer_overtakes : ∃ w pre mid, (system fun _ _ _ => True).Reachable w ∧
    w.log = pre ++ .asked .reliable 1 .lost :: (mid ++ .asked .reliable 1 .blocked :: []) ∧
    (∀ e ∈ mid, e.concerns .reliable 1 = false) ∧ Quantum < mid.countP (Entry.serves .reliable 2) := by
  refine ⟨sample [.add .reliable 1, .add .reliable 2, .add .reliable 3,
    .run (script [.lost, .sent, .sent, .sent, .empty]) 9, .add .reliable 2,
    .run (script [.lost, .sent, .sent, .sent, .empty, .blocked, .lost, .sent, .sent, .sent, .sent]) 9],
    [.added .reliable 1, .added .reliable 2, .added .reliable 3],
    List.replicate 3 (.asked .reliable 2 .sent) ++ [.asked .reliable 2 .empty, .asked .reliable 3 .blocked,
      .added .reliable 2, .asked .reliable 3 .lost] ++ List.replicate 4 (.asked .reliable 2 .sent),
    reachable_sample _ ?_, ?_, ?_, ?_⟩ <;> decide +kernel

end Watched

end NetLink.Channel.SendScheduler
