import NetLink.Channel.Broadcast
import NetLink.Lib.System

/-! How application threads wake the I/O thread. Every step is one critical section of the source, or a call
outside of them: `notify_all`, `interrupt`, the return of a wait. -/

namespace NetLink

open Channel (Mailbox Mail)

namespace Channel.Mailbox

def rings (m : Mailbox) : Call → Bool
  | .post command peer => (m.post command peer).1
  | .push peer lane mail => (m.push peer (wireLane lane) mail).2.1
  | .pushToAll lane mail => (m.pushToAll (wireLane lane) mail).2.1
  | .sealPeer _ => false

inductive Own
  | take (peer : PeerId) (lane : Lane)
  | settle (peer : PeerId)
  | openPeer (peer : PeerId)
  | close (peer : PeerId)
  | publishSession (peer : PeerId) (session : Session)
  | publishDiscovered (peers : List PeerInfo)
  | publishStats (peer : PeerId) (stats : PeerStats)
  | setRunning (running : Bool)

def own (m : Mailbox) : Own → Mailbox
  | .take peer lane => (m.take peer lane).2
  | .settle peer => (m.settle peer).2
  | .openPeer peer => m.openPeer peer
  | .close peer => m.close peer
  | .publishSession peer session => m.publishSession peer session
  | .publishDiscovered peers => m.publishDiscovered peers
  | .publishStats peer stats => m.publishStats peer stats
  | .setRunning running => m.setRunning running

def HasWork (m : Mailbox) : Prop := m.mCommands ≠ [] ∨ m.mReady ≠ []

def Signalled (m : Mailbox) : Prop := m.HasWork → m.mSignalled = true

variable {m : Mailbox}

lemma signalled_of_mSignalled (h : m.mSignalled = true) : m.Signalled := fun _ => h

structure Rung (m : Mailbox) (ring : Bool) (m' : Mailbox) : Prop where
  mSignalled : m'.mSignalled = (m.mSignalled || ring)
  keeps : m.Signalled → m'.Signalled

lemma rung_refl (m : Mailbox) : Rung m false m := ⟨(Bool.or_false _).symm, id⟩

lemma rung_enqueue (m : Mailbox) (id : PeerId) (peer : Peer) (lane : Lane) (mail : Mail) :
    Rung m (m.enqueue id peer lane mail).1 (m.enqueue id peer lane mail).2 := by
  refine ⟨?_, fun _ => signalled_of_mSignalled rfl⟩
  rw [enqueue, Bool.or_not_self]

lemma rung_push (m : Mailbox) (id : PeerId) (lane : Lane) (mail : Mail) :
    Rung m (m.push id lane mail).2.1 (m.push id lane mail).2.2 := by
  rcases push_cases m id lane mail with ⟨he, -⟩ | ⟨peer, -, -, -, he⟩
  · rw [he]
    exact rung_refl m
  · rw [he]
    exact rung_enqueue m id peer lane mail

lemma Rung.trans {m' m'' : Mailbox} {ring ring' : Bool} (h : Rung m ring m') (h' : Rung m' ring' m'') :
    Rung m (ring || ring') m'' := by
  refine ⟨?_, fun hm => h'.keeps (h.keeps hm)⟩
  rw [h'.mSignalled, h.mSignalled, Bool.or_assoc]

lemma rung_pushEach (lane : Lane) (mail : Mail) (ids : List PeerId) (m : Mailbox) :
    Rung m ((pushEach lane mail ids m).1.any (·.2)) (pushEach lane mail ids m).2 := by
  induction ids generalizing m with
  | nil => exact rung_refl m
  | cons id ids ih => exact (rung_push m id lane mail).trans (ih _)

lemma rung_pushToAll (m : Mailbox) (lane : Lane) (mail : Mail) :
    Rung m (m.pushToAll lane mail).2.1 (m.pushToAll lane mail).2.2 := by
  rw [pushToAll_eq]
  exact rung_pushEach lane mail m.mPeers.keys m

lemma rung_call (m : Mailbox) (c : Call) : Rung m (m.rings c) (m.call c) := by
  cases c with
  | post command peer =>
    refine ⟨?_, fun _ => signalled_of_mSignalled rfl⟩
    rw [rings, post, Bool.or_not_self]
    rfl
  | push peer lane mail => exact rung_push m peer (wireLane lane) mail
  | pushToAll lane mail => exact rung_pushToAll m (wireLane lane) mail
  | sealPeer peer =>
    rw [call, sealPeer]
    split
    · exact rung_refl m
    · exact ⟨(Bool.or_false _).symm, id⟩

lemma mSignalled_own (m : Mailbox) (o : Own) : (m.own o).mSignalled = m.mSignalled := by
  cases o with
  | take peer lane =>
    rw [own, take]
    split
    · rfl
    · dsimp only
      split <;> rfl
  | settle peer =>
    rw [own, settle]
    split
    · rfl
    · split <;> rfl
  | _ => rfl

lemma hasWork_own {o : Own} (h : (m.own o).HasWork) : m.HasWork := by
  cases o with
  | take peer lane =>
    rw [own, take] at h
    split at h
    · exact h
    · dsimp only at h
      split at h <;> exact h
  | settle peer =>
    rw [own, settle] at h
    split at h
    · exact h
    · split at h <;> exact h
  | close peer =>
    refine h.imp_right fun hr hn => hr ?_
    have hnil : m.mReady.filter (· != peer) = [] := by rw [hn]; rfl
    exact hnil
  | _ => exact h

end Channel.Mailbox

inductive Producer
  | idle
  | ringing
  /-- It left the section of `wake` with the socket it found. -/
  | notifying (socket : Option ℕ)
  | interrupting (socket : ℕ)
  deriving DecidableEq, Repr

inductive IoLoop
  | idle
  | started
  | working
  | onWakeUp (notified : Bool)
  | onSocket (socket : ℕ)
  deriving DecidableEq, Repr

/-- The threads `some i` use the mailbox, `none` is the stop callback, which only wakes. -/
structure WakeUp (ι : Type) where
  mailbox : Mailbox := {}
  mWoken : Bool := false
  mSocket : Option ℕ := none
  interrupted : ℕ → Bool := fun _ => false
  producers : Option ι → Producer := fun _ => .idle
  loop : IoLoop := .idle

namespace WakeUp

variable {ι : Type} [DecidableEq ι]

def setProducer (s : WakeUp ι) (i : Option ι) (p : Producer) : WakeUp ι :=
  { s with producers := Function.update s.producers i p }

def IoLoop.notified : IoLoop → IoLoop
  | .onWakeUp _ => .onWakeUp true
  | loop => loop

def waitForWork (s : WakeUp ι) : WakeUp ι :=
  { s with loop :=
      if s.mWoken then .idle
      else match s.mSocket with
        | none => .onWakeUp false
        | some socket => .onSocket socket }

inductive Step : WakeUp ι → WakeUp ι → Prop
  | enter (s : WakeUp ι) (i : ι) (c : Mailbox.Call) (hi : s.producers (some i) = .idle) :
      Step s ({ s with mailbox := s.mailbox.call c }.setProducer (some i)
        (if s.mailbox.rings c then .ringing else .idle))
  | stop (s : WakeUp ι) (hi : s.producers none = .idle) : Step s (s.setProducer none .ringing)
  | wake (s : WakeUp ι) (i : Option ι) (hi : s.producers i = .ringing) :
      Step s ({ s with mWoken := true }.setProducer i (.notifying s.mSocket))
  | notify (s : WakeUp ι) (i : Option ι) (socket : Option ℕ) (hi : s.producers i = .notifying socket) :
      Step s ({ s with loop := IoLoop.notified s.loop }.setProducer i (socket.elim .idle .interrupting))
  | interrupt (s : WakeUp ι) (i : Option ι) (socket : ℕ) (hi : s.producers i = .interrupting socket) :
      Step s ({ s with interrupted := Function.update s.interrupted socket true }.setProducer i .idle)
  | start (s : WakeUp ι) (hl : s.loop = .idle) : Step s { s with mWoken := false, loop := .started }
  | drain (s : WakeUp ι) (hl : s.loop = .started) :
      Step s { s with mailbox := s.mailbox.drain.2, loop := .working }
  | own (s : WakeUp ι) (o : Mailbox.Own) (hl : s.loop = .working) : Step s { s with mailbox := s.mailbox.own o }
  | replace (s : WakeUp ι) (socket : Option ℕ) (hl : s.loop = .working) : Step s { s with mSocket := socket }
  | wait (s : WakeUp ι) (hl : s.loop = .working) : Step s s.waitForWork
  | wakeUp (s : WakeUp ι) (notified : Bool) (hl : s.loop = .onWakeUp notified) : Step s { s with loop := .idle }
  | readable (s : WakeUp ι) (socket : ℕ) (left : Bool) (hl : s.loop = .onSocket socket) :
      Step s { s with loop := .idle, interrupted := Function.update s.interrupted socket left }

def system : Lib.System (WakeUp ι) where
  init s := s = {}
  step := Step

def Blocked (s : WakeUp ι) : Prop := (∃ notified, s.loop = .onWakeUp notified) ∨
    ∃ socket, s.loop = .onSocket socket

def Released (s : WakeUp ι) : Prop :=
  s.loop = .onWakeUp true ∨ ∃ socket, s.loop = .onSocket socket ∧ s.interrupted socket = true

def Reaches (s : WakeUp ι) (p : Producer) : Prop :=
  p = .ringing ∨ p = .notifying s.mSocket ∨ ∃ socket, p = .interrupting socket ∧ s.mSocket = some socket

structure Inv (s : WakeUp ι) : Prop where
  signalled : s.mailbox.Signalled
  working : s.loop = .working → s.mailbox.mSignalled = true →
    s.mWoken = true ∨ ∃ i, s.producers (some i) = .ringing
  blocked : s.Blocked → s.mailbox.mSignalled = true → s.Released ∨ ∃ i, s.Reaches (s.producers (some i))
  onWakeUp : ∀ notified, s.loop = .onWakeUp notified → s.mSocket = none
  onSocket : ∀ socket, s.loop = .onSocket socket → s.mSocket = some socket

variable {s t : WakeUp ι}

lemma producers_of_ne {i : Option ι} {p q : Producer} (hi : s.producers i = p) {j : ι}
    (hj : s.producers (some j) ≠ p) : (s.setProducer i q).producers (some j) = s.producers (some j) := by
  refine Function.update_of_ne ?_ _ _
  rintro rfl
  exact hj hi

omit [DecidableEq ι] in
lemma not_reaches_idle (s : WakeUp ι) : ¬s.Reaches .idle := by
  rintro (h | h | ⟨_, h, -⟩) <;> cases h

namespace Inv

omit [DecidableEq ι] in
lemma initial : Inv ({} : WakeUp ι) where
  signalled h := by rcases h with h | h <;> exact absurd rfl h
  working h := by cases h
  blocked h := by rcases h with ⟨_, h⟩ | ⟨_, h⟩ <;> cases h
  onWakeUp _ h := by cases h
  onSocket _ h := by cases h

omit [DecidableEq ι] in
lemma of_idle (hs : s.mailbox.Signalled) (hl : s.loop = .idle ∨ s.loop = .started) : Inv s := by
  refine ⟨hs, fun h => ?_, fun hb => ?_, fun _ h => ?_, fun _ h => ?_⟩
  · rw [h] at hl
    rcases hl with hl | hl <;> cases hl
  · rcases hb with ⟨_, h⟩ | ⟨_, h⟩ <;> rw [h] at hl <;> rcases hl with hl | hl <;> cases hl
  · rw [h] at hl
    rcases hl with hl | hl <;> cases hl
  · rw [h] at hl
    rcases hl with hl | hl <;> cases hl

omit [DecidableEq ι] in
lemma of_working (hl : s.loop = .working) (hs : s.mailbox.Signalled) (hw : s.mailbox.mSignalled = true →
    s.mWoken = true ∨ ∃ i, s.producers (some i) = .ringing) : Inv s := by
  refine ⟨hs, fun _ => hw, fun hb => ?_, fun _ h => ?_, fun _ h => ?_⟩
  · rcases hb with ⟨_, hb⟩ | ⟨_, hb⟩ <;> cases hl.symm.trans hb
  · cases hl.symm.trans h
  · cases hl.symm.trans h

lemma enter (h : Inv s) (i : ι) (c : Mailbox.Call) (hi : s.producers (some i) = .idle) :
    Inv ({ s with mailbox := s.mailbox.call c }.setProducer (some i)
      (if s.mailbox.rings c then .ringing else .idle)) := by
  have hr := Mailbox.rung_call s.mailbox c
  refine ⟨hr.keeps h.signalled, fun hl hs => ?_, fun hb hs => ?_, h.onWakeUp, h.onSocket⟩ <;>
    have hs := hr.mSignalled.symm.trans hs <;> cases hring : s.mailbox.rings c
  · rw [hring, Bool.or_false] at hs
    refine (h.working hl hs).imp_right fun ⟨j, hj⟩ => ⟨j, ?_⟩
    exact (producers_of_ne (s := { s with mailbox := _ }) hi (by simp [hj])).trans hj
  · exact .inr ⟨i, Function.update_self ..⟩
  · rw [hring, Bool.or_false] at hs
    refine (h.blocked hb hs).imp_right fun ⟨j, hj⟩ => ⟨j, ?_⟩
    have hne : s.producers (some j) ≠ .idle := fun he => s.not_reaches_idle (he ▸ hj)
    have he := producers_of_ne (s := { s with mailbox := s.mailbox.call c })
      (q := if false = true then Producer.ringing else .idle) hi hne
    exact he ▸ hj
  · exact .inr ⟨i, .inl (Function.update_self ..)⟩

lemma stop (h : Inv s) : Inv (s.setProducer none .ringing) where
  signalled := h.signalled
  working := h.working
  blocked := h.blocked
  onWakeUp := h.onWakeUp
  onSocket := h.onSocket

lemma wake (h : Inv s) (i : Option ι) (hi : s.producers i = .ringing) :
    Inv ({ s with mWoken := true }.setProducer i (.notifying s.mSocket)) where
  signalled := h.signalled
  working _ _ := .inl rfl
  blocked hb hs := by
    refine (h.blocked hb hs).imp_right fun ⟨j, hj⟩ => ⟨j, ?_⟩
    by_cases hji : some j = i
    · subst hji
      exact .inr (.inl (Function.update_self ..))
    · have he : ({ s with mWoken := true }.setProducer i (.notifying s.mSocket)).producers (some j) =
          s.producers (some j) := Function.update_of_ne hji _ _
      exact he ▸ hj
  onWakeUp := h.onWakeUp
  onSocket := h.onSocket

lemma notify (h : Inv s) (i : Option ι) (socket : Option ℕ) (hi : s.producers i = .notifying socket) :
    Inv ({ s with loop := IoLoop.notified s.loop }.setProducer i (socket.elim .idle .interrupting)) := by
  have hkeep : ∀ {j}, some j ≠ i → ({ s with loop := IoLoop.notified s.loop }.setProducer i
      (socket.elim .idle .interrupting)).producers (some j) = s.producers (some j) := fun hji =>
    Function.update_of_ne hji _ _
  cases hl : s.loop with
  | onWakeUp notified =>
    -- whoever notifies, this wait is over
    exact ⟨h.signalled, fun h => (by cases h), fun _ _ => .inl (.inl rfl), fun _ _ => h.onWakeUp notified hl,
      fun _ h => (by cases h)⟩
  | onSocket waited =>
    rw [hl] at hkeep
    refine ⟨h.signalled, fun h => (by cases h), fun _ hs => ?_, fun _ h => (by cases h), fun other ho => ?_⟩
    · refine (h.blocked (.inr ⟨waited, hl⟩) hs).imp (fun hr => ?_) fun ⟨j, hj⟩ => ⟨j, ?_⟩
      · rw [Released, hl] at hr
        exact hr
      · by_cases hji : some j = i
        · subst hji
          rw [hi] at hj
          rcases hj with hj | hj | ⟨_, hj, -⟩
          · cases hj
          · obtain rfl : socket = s.mSocket := by simpa using hj
            have hw := h.onSocket waited hl
            rw [hw]
            exact .inr (.inr ⟨waited, Function.update_self .., rfl⟩)
          · cases hj
        · exact (hkeep hji) ▸ hj
    · exact h.onSocket other (hl.trans ho)
  | working =>
    rw [hl] at hkeep
    refine of_working rfl h.signalled fun hs => ?_
    refine (h.working hl hs).imp_right fun ⟨j, hj⟩ => ⟨j, (hkeep ?_).trans hj⟩
    rintro rfl
    cases hj.symm.trans hi
  | idle => exact of_idle h.signalled (.inl rfl)
  | started => exact of_idle h.signalled (.inr rfl)

lemma interrupt (h : Inv s) (i : Option ι) (socket : ℕ) (hi : s.producers i = .interrupting socket) :
    Inv ({ s with interrupted := Function.update s.interrupted socket true }.setProducer i .idle) where
  signalled := h.signalled
  working hl hs := by
    refine (h.working hl hs).imp_right fun ⟨j, hj⟩ => ⟨j, ?_⟩
    exact (producers_of_ne (s := { s with interrupted := _ }) hi (by simp [hj])).trans hj
  blocked hb hs := by
    rcases h.blocked hb hs with hr | ⟨j, hj⟩
    · refine .inl (hr.imp_right fun ⟨waited, hw, hint⟩ => ⟨waited, hw, ?_⟩)
      by_cases he : waited = socket
      · exact he ▸ Function.update_self ..
      · exact (Function.update_of_ne he _ _).trans hint
    · by_cases hji : some j = i
      · subst hji
        rw [hi] at hj
        rcases hj with hj | hj | ⟨other, hj, hsock⟩
        · cases hj
        · cases hj
        · obtain rfl : socket = other := by simpa using hj
          rcases hb with ⟨notified, hl⟩ | ⟨waited, hl⟩
          · have hnone := h.onWakeUp notified hl
            rw [hsock] at hnone
            cases hnone
          · obtain rfl : socket = waited := Option.some.inj (hsock.symm.trans (h.onSocket waited hl))
            exact .inl (.inr ⟨socket, hl, Function.update_self ..⟩)
      · have he : ({ s with interrupted := Function.update s.interrupted socket true }.setProducer i
            .idle).producers (some j) = s.producers (some j) := Function.update_of_ne hji _ _
        exact .inr ⟨j, he ▸ hj⟩
  onWakeUp := h.onWakeUp
  onSocket := h.onSocket

omit [DecidableEq ι] in
lemma wait (h : Inv s) (hl : s.loop = .working) : Inv s.waitForWork := by
  rw [waitForWork]
  cases hw : s.mWoken with
  | true => exact of_idle h.signalled (.inl rfl)
  | false =>
    -- what was signalled since the drain is still to be rung
    have hring : s.mailbox.mSignalled = true → ∃ i, s.producers (some i) = .ringing := fun hs =>
      (h.working hl hs).resolve_left (by simp [hw])
    cases hs : s.mSocket with
    | none =>
      refine ⟨h.signalled, fun h => (by cases h), fun _ hsig => ?_, fun _ _ => rfl, fun _ h => (by cases h)⟩
      obtain ⟨i, hi⟩ := hring hsig
      exact .inr ⟨i, .inl hi⟩
    | some socket =>
      refine ⟨h.signalled, fun h => (by cases h), fun _ hsig => ?_, fun _ h => (by cases h), fun other ho => ?_⟩
      · obtain ⟨i, hi⟩ := hring hsig
        exact .inr ⟨i, .inl hi⟩
      · obtain rfl : socket = other := by simpa using ho
        rfl

lemma step (h : Inv s) (hs : Step s t) : Inv t := by
  cases hs with
  | enter i c hi => exact h.enter i c hi
  | stop hi => exact h.stop
  | wake i hi => exact h.wake i hi
  | notify i socket hi => exact h.notify i socket hi
  | interrupt i socket hi => exact h.interrupt i socket hi
  | start hl => exact of_idle h.signalled (.inr rfl)
  | drain hl =>
    refine of_working rfl (fun hw => ?_) fun hsig => (by cases hsig)
    rcases hw with hw | hw <;> exact absurd rfl hw
  | own o hl =>
    have hm := Mailbox.mSignalled_own s.mailbox o
    refine of_working hl (fun hw => hm.trans (h.signalled (Mailbox.hasWork_own hw))) fun hsig => ?_
    exact h.working hl (hm.symm.trans hsig)
  | replace socket hl => exact of_working hl h.signalled (h.working hl)
  | wait hl => exact h.wait hl
  | wakeUp notified hl => exact of_idle h.signalled (.inl rfl)
  | readable socket left hl => exact of_idle h.signalled (.inl rfl)

end Inv

lemma inv_of_reachable (hr : system.Reachable s) : Inv s := by
  refine hr.invariant (fun s hi => ?_) fun _ _ _ h hs => h.step hs
  obtain rfl : s = {} := hi
  exact .initial

theorem wake_up_not_lost (hr : system.Reachable s) (hb : s.Blocked) (hw : s.mailbox.HasWork) :
    (∃ i, s.producers (some i) ≠ .idle) ∨ s.Released := by
  have h := inv_of_reachable hr
  rcases h.blocked hb (h.signalled hw) with hr | ⟨i, hi⟩
  · exact .inr hr
  · exact .inl ⟨i, fun he => s.not_reaches_idle (he ▸ hi)⟩

def posted : WakeUp Unit where
  mailbox := ({} : Mailbox).drain.2.call (.post .announce 0)
  producers := Function.update (fun _ => .idle) (some ()) .ringing
  loop := .onWakeUp false

lemma posted_reachable : system.Reachable posted := by
  have h₀ : system.Reachable ({} : WakeUp Unit) := .of_init rfl
  have h₁ := h₀.step (Step.start _ rfl)
  have h₂ := h₁.step (Step.drain _ rfl)
  have h₃ := h₂.step (Step.wait _ rfl)
  exact h₃.step (Step.enter _ () (.post .announce 0) rfl)

theorem wake_up_not_lost_posted : posted.mailbox.mCommands = [⟨.announce, 0⟩] ∧
    ((∃ i, posted.producers (some i) ≠ .idle) ∨ posted.Released) :=
  ⟨rfl, wake_up_not_lost posted_reachable (.inl ⟨false, rfl⟩) (.inl (List.cons_ne_nil _ _))⟩

end WakeUp

end NetLink
