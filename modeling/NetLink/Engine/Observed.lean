import NetLink.Engine.Runs.Step

/-! An engine that steps for as long as its application likes, with whatever the world answers. -/

namespace NetLink.NetworkEngine

open Net (SocketAddress)
open Channel (TimePoint)

structure Observed where
  engine : NetworkEngine
  delivered : List EngineEvent := []

namespace Observed

def step (o : Observed) (world : World) (now : TimePoint) : Observed where
  engine := (o.engine.step world now).2
  delivered := o.delivered ++ (o.engine.step world now).1.events

def system (fair : NetworkEngine → World → TimePoint → Prop) : Lib.System Observed where
  init o := ∃ config drawn, o = { engine := .new config drawn }
  step o o' := ∃ world now, fair o.engine world now ∧ o' = o.step world now

def anything (_ : NetworkEngine) (_ : World) (_ : TimePoint) : Prop := True

variable {fair : NetworkEngine → World → TimePoint → Prop} {Γ : Rules} {o : Observed}

lemma sound_new (config : EngineConfig) (drawn : UInt64) : Sound (NetworkEngine.new config drawn).view where
  routed x id h := by simp [view, NetworkEngine.new] at h
  bound _ id := by simp [view, NetworkEngine.new, find]
  served id s h := by simp [view, NetworkEngine.new, find] at h
  routes id s h := by simp [view, NetworkEngine.new, find] at h

lemma invariant {P : View → Prop} (hfair : ∀ e world now, fair e world now → Lawful Γ e world now)
    (hnew : ∀ config drawn, P (NetworkEngine.new config drawn).view)
    (hmove : ∀ v w, Sound v → P v → Move Γ v w → P w) (hover : ∀ v, P v → P { v with pending := [] })
    (hr : (system fair).Reachable o) : Sound o.engine.view ∧ P o.engine.view := by
  refine hr.invariant (P := fun o => Sound o.engine.view ∧ P o.engine.view) ?_ ?_
  · rintro o ⟨config, drawn, rfl⟩
    exact ⟨sound_new config drawn, hnew config drawn⟩
  · rintro o o' - ⟨hs, hp⟩ ⟨world, now, hf, rfl⟩
    have hrun := reaches_round o.engine world now (hfair _ _ _ hf) hs
    rw [step, view_step]
    exact ⟨(hs.run hrun).handedOver, hover _ (hrun.invariant hmove hs hp)⟩

def eventsOf (history : List Mark) : List EngineEvent := history.filterMap Mark.event

lemma delivered_of_run {v w : View} (hr : Run Γ v w) (base : List EngineEvent)
    (hv : eventsOf v.history = base ++ v.pending) : eventsOf w.history = base ++ w.pending := by
  induction hr with
  | refl => exact hv
  | tail _ hm ih =>
    obtain ⟨ms, hs⟩ := hm.said
    simp only [View.said, View.log, Prod.mk.injEq] at hs
    rw [hs.1, hs.2, eventsOf, List.filterMap_append, ← List.append_assoc, ← ih, eventsOf]

lemma delivered_eq (hfair : ∀ e world now, fair e world now → Lawful Γ e world now)
    (hr : (system fair).Reachable o) : o.delivered = eventsOf o.engine.history := by
  have hall := hr.invariant (P := fun o => Sound o.engine.view ∧
    eventsOf o.engine.history = o.delivered ∧ o.engine.mEvents = []) ?_ ?_
  · exact hall.2.1.symm
  · rintro o ⟨config, drawn, rfl⟩
    exact ⟨sound_new config drawn, rfl, rfl⟩
  · rintro o o' - ⟨hs, hd, he⟩ ⟨world, now, hf, rfl⟩
    have hrun := reaches_round o.engine world now (hfair _ _ _ hf) hs
    have hrecorded := delivered_of_run hrun o.delivered (by rw [view, he, List.append_nil]; exact hd)
    refine ⟨?_, hrecorded, rfl⟩
    rw [step, view_step]
    exact (hs.run hrun).handedOver

lemma reachable_new (config : EngineConfig) (drawn : UInt64) :
    (system fair).Reachable { engine := .new config drawn } :=
  .of_init ⟨config, drawn, rfl⟩

lemma reachable_step (h : (system fair).Reachable o) {world : World} {now : TimePoint}
    (hf : fair o.engine world now) : (system fair).Reachable (o.step world now) :=
  h.step ⟨world, now, hf, rfl⟩

lemma reachable_foldl {α : Type*} (h : (system anything).Reachable o) (world : α → World) (now : α → TimePoint)
    (as : List α) : (system anything).Reachable (as.foldl (fun o a => o.step (world a) (now a)) o) :=
  .along (P := fun _ _ => True) (fun _ _ _ => ⟨_, _, trivial, rfl⟩) h
    (Lib.along_of_forall (fun _ _ => trivial) _ _)

end Observed

/-! What concrete runs are made of. -/

namespace Sample

def here : SocketAddress := ⟨⟨10⟩, 5000⟩

def there : SocketAddress := ⟨⟨11⟩, 5000⟩

def bound : World := { localInterface := some {}, sockets := [some here, some here] }

def calling (calls : List Channel.Mailbox.Call) : World := { localInterface := some {}, calls := [calls] }

def beaconOf (sender : PeerId) : List UInt8 :=
  (NetworkEngine.new { instanceId := sender } 0).mDiscovery.beacon false

def helloOf (sender receiver : PeerId) : Session.Hello where
  fromInstance := sender
  toInstance := receiver
  appIdHash := Discovery.hashAppId []
  verMajor := 0
  verMinor := 6

def firstPacket (sender receiver : PeerId) (src : UInt32) : Channel.Packet :=
  Channel.makeDatagram
    { flags := .data .control, srcStreamID := src, seq := 1, tag := Session.ControlType.hello.tag }
    (helloOf sender receiver).encode

end Sample

end NetLink.NetworkEngine
