import NetLink.Engine.Observed
import NetLink.EnginePair.Openings

/-! Two engines over a network that drops, repeats, delays and reorders their datagrams, but forges none. -/

namespace NetLink

open Net (SocketAddress)
open Channel (TimePoint Packet Mailbox decodePacket)
open NetworkEngine (World Peer View Rules Lawful Move Run Sound Ledger Uncrossed openings handleDatagram)

structure EnginePair where
  a : NetworkEngine
  b : NetworkEngine

namespace EnginePair

def Hears (receiver sender : NetworkEngine) (world : World) (now : TimePoint) : Prop :=
  ∀ d ∈ receiver.arriving world now, Discovery.isBeacon d.2 = true ∨
    ∃ u ∈ sender.outbox, u.origin = d.1 ∧ u.bytes = d.2

instance (receiver sender : NetworkEngine) (world : World) (now : TimePoint) :
    Decidable (Hears receiver sender world now) :=
  inferInstanceAs (Decidable (∀ d ∈ receiver.arriving world now, _))

def Distinct (e : NetworkEngine) : Prop := ((openings e.history).map Prod.snd).Nodup

instance (e : NetworkEngine) : Decidable (Distinct e) := inferInstanceAs (Decidable (List.Nodup _))

/-- The application starts its engine anew under the same ID. What was sent stays in the network. -/
def restart (e : NetworkEngine) (config : EngineConfig) (drawn : UInt64) : NetworkEngine :=
  { NetworkEngine.new config drawn with history := e.history, outbox := e.outbox }

inductive Turn (e other : NetworkEngine) : NetworkEngine → Prop
  | step (world : World) (now : TimePoint) (hh : Hears e other world now) (hd : Distinct (e.step world now).2) :
      Turn e other (e.step world now).2
  | restart (config : EngineConfig) (drawn : UInt64) (hid : (NetworkEngine.new config drawn).mId = e.mId) :
      Turn e other (restart e config drawn)

def system : Lib.System EnginePair where
  init p := p.a.mId ≠ p.b.mId ∧ ∃ config drawn config' drawn', p = ⟨.new config drawn, .new config' drawn'⟩
  step p q := Turn p.a p.b q.a ∧ q.b = p.b ∨ Turn p.b p.a q.b ∧ q.a = p.a

def rules (sender : NetworkEngine) : Rules where
  incoming _ p := sender.view.Wrote p
  swallows := True
  refusesCrossing := True
  crossesEnded := True

variable {receiver sender : NetworkEngine} {world : World} {now : TimePoint} {p q : EnginePair}

lemma obeys (h : Hears receiver sender world now) (e : NetworkEngine) :
    ∀ d ∈ receiver.arriving world now, NetworkEngine.Obeys (rules sender) e d := by
  intro d hd
  refine ⟨fun hn packet hp => ?_, fun _ => trivial, fun _ => trivial⟩
  rcases h d hd with hb | ⟨u, hu, -, hbytes⟩
  · rw [hn] at hb
    cases hb
  · exact ⟨u, hu, by rwa [hbytes], by rwa [hbytes]⟩

lemma lawful (h : Hears receiver sender world now) : Lawful (rules sender) receiver world now where
  commands := Lib.along_of_forall (fun _ _ _ => trivial) _ _
  datagrams := Lib.along_of_mem _ _ fun e d hd => obeys h e d hd

structure Fits (v w : View) : Prop where
  soundA : Sound v
  soundB : Sound w
  distinctA : v.Distinct
  distinctB : w.Distinct
  ledgerA : Ledger v w
  ledgerB : Ledger w v
  uncrossed : Uncrossed v w

variable {v v' w : View} {Γ : Rules}

lemma Fits.swap (h : Fits v w) : Fits w v :=
  ⟨h.soundB, h.soundA, h.distinctB, h.distinctA, h.ledgerB, h.ledgerA, h.uncrossed.symm⟩

lemma Fits.move (h : Fits v w) (hΓ : ∀ origin p, Γ.incoming origin p → w.Wrote p) (hd : v'.Distinct)
    (hs : Sound v') (hm : Move Γ v v') : Fits v' w where
  soundA := hs
  soundB := h.soundB
  distinctA := hd
  distinctB := h.distinctB
  ledgerA := h.ledgerA.move h.ledgerB h.soundA hΓ h.distinctA hd hm
  ledgerB := h.ledgerB.grows hm.grows.toRemembers
  uncrossed := h.uncrossed.move h.ledgerA h.ledgerB hd hm

lemma Fits.run (h : Fits v w) (hΓ : ∀ origin p, Γ.incoming origin p → w.Wrote p) (hr : Run Γ v v')
    (hd : v'.Distinct) : Fits v' w := by
  have hall := hr.invariant (P := fun u => Sound u → u.Distinct → Fits u w) ?_ h.soundA fun _ _ => h
  · exact hall (h.soundA.run hr) hd
  · intro u u' hs ih hm hs' hd'
    exact (ih hs (hm.distinct hd')).move hΓ hd' hs' hm

lemma id_of_run (hr : Run Γ v v') : v'.id = v.id := by
  induction hr with
  | refl => rfl
  | tail _ hm ih => exact hm.grows.id.trans ih

lemma Fits.handedOver (h : Fits v w) : Fits { v with pending := [] } w := by
  have hgrows : v.Grows { v with pending := [] } := ⟨⟨rfl, fun _ hp => hp, fun _ _ hx => hx⟩, rfl⟩
  refine ⟨h.soundA.handedOver, h.soundB, h.distinctA, h.distinctB, ?_,
    h.ledgerB.grows hgrows.toRemembers, h.uncrossed⟩
  exact h.ledgerA.rearrange hgrows (fun _ hp => hp) rfl fun id s hs => ⟨s, hs, rfl, h.ledgerA.backed id s hs⟩

lemma ledger_of_idle (hv : ∀ id, v.sessions id = none) (hp : ∀ p, v.Wrote p → NetworkEngine.Posted v w p) :
    Ledger v w where
  posted := hp
  backed id s hs := by simp [hv id] at hs
  latest id s hs := by simp [hv id] at hs

lemma idle_restart (e : NetworkEngine) (config : EngineConfig) (drawn : UInt64) (id : PeerId) :
    (restart e config drawn).view.sessions id = none := by
  simp [restart, NetworkEngine.view, NetworkEngine.new, NetworkEngine.find]

lemma Fits.restart {config : EngineConfig} {drawn : UInt64} (h : Fits receiver.view w)
    (hid : (NetworkEngine.new config drawn).mId = receiver.mId) :
    Fits (EnginePair.restart receiver config drawn).view w := by
  have hgrows : receiver.view.Remembers (EnginePair.restart receiver config drawn).view :=
    ⟨hid, fun _ hp => hp, fun _ _ hx => hx⟩
  have hidle := idle_restart receiver config drawn
  refine ⟨⟨?_, fun _ => hidle, ?_, ?_⟩, h.soundB, h.distinctA, h.distinctB, ?_, h.ledgerB.grows hgrows, ?_⟩
  · intro x id hx
    simp [EnginePair.restart, NetworkEngine.view, NetworkEngine.new] at hx
  · intro id s hs
    simp [hidle id] at hs
  · intro id s hs
    simp [hidle id] at hs
  · exact ledger_of_idle hidle fun p hp => h.ledgerA.posted_grows hgrows hp
  · intro a' a b b' ha hb hv hw
    rw [hgrows.id] at hw
    exact h.uncrossed a' a b b' ha hb hv hw

lemma Fits.turn {e' : NetworkEngine} (h : Fits receiver.view sender.view) (ht : Turn receiver sender e') :
    Fits e'.view sender.view := by
  cases ht with
  | step world now hh hd =>
    have hrun := NetworkEngine.reaches_round receiver world now (lawful hh) h.soundA
    rw [Distinct] at hd
    rw [NetworkEngine.view_step]
    exact (h.run (fun _ _ hp => hp) hrun hd).handedOver
  | restart config drawn hid => exact h.restart hid

lemma fits_of_reachable (hr : system.Reachable p) : Fits p.a.view p.b.view := by
  refine hr.invariant (P := fun p => Fits p.a.view p.b.view) ?_ fun p q _ h hs => ?_
  · rintro p ⟨-, config, drawn, config', drawn', rfl⟩
    have hidle : ∀ config drawn id, (NetworkEngine.new config drawn).view.sessions id = none := by
      simp [NetworkEngine.view, NetworkEngine.new, NetworkEngine.find]
    have hsilent : ∀ config drawn packet, ¬(NetworkEngine.new config drawn).view.Wrote packet := by
      rintro config drawn packet ⟨u, hu, -⟩
      cases hu
    refine ⟨NetworkEngine.Observed.sound_new _ _, NetworkEngine.Observed.sound_new _ _, List.nodup_nil,
      List.nodup_nil,
      ledger_of_idle (hidle _ _) fun _ hp => absurd hp (hsilent _ _ _),
      ledger_of_idle (hidle _ _) fun _ hp => absurd hp (hsilent _ _ _), ?_⟩
    rintro a' a b b' - - - - ⟨packet, hp, -⟩
    exact absurd hp (hsilent _ _ _)
  · rcases hs with ⟨ht, hb⟩ | ⟨ht, ha⟩
    · rw [hb]
      exact h.turn ht
    · rw [ha]
      exact (h.swap.turn ht).swap

theorem session_agreement {s t : Peer} (hr : system.Reachable p) (hs : p.a.find p.b.mId = some s)
    (ht : p.b.find p.a.mId = some t) (hse : s.ended = false ∧ s.state = .connected)
    (hte : t.ended = false ∧ t.state = .connected) :
    s.link.mRemoteStreamID = some t.link.mLocalStreamID ∧ t.link.mRemoteStreamID = some s.link.mLocalStreamID := by
  have hfits := fits_of_reachable hr
  exact NetworkEngine.paired hfits.ledgerA hfits.ledgerB hfits.uncrossed (NetworkEngine.sessions_view p.a hs)
    (NetworkEngine.sessions_view p.b ht) hse.2 hte.2

def left (p : EnginePair) (world : World) (now : TimePoint) : EnginePair := ⟨(p.a.step world now).2, p.b⟩

def right (p : EnginePair) (world : World) (now : TimePoint) : EnginePair := ⟨p.a, (p.b.step world now).2⟩

lemma reachable_left (h : system.Reachable p) (hh : Hears p.a p.b world now) (hd : Distinct (p.left world now).a) :
    system.Reachable (p.left world now) :=
  h.step (.inl ⟨.step world now hh hd, rfl⟩)

lemma reachable_right (h : system.Reachable p) (hh : Hears p.b p.a world now)
    (hd : Distinct (p.right world now).b) :
    system.Reachable (p.right world now) :=
  h.step (.inr ⟨.step world now hh hd, rfl⟩)

namespace Sample

def meeting (here there : SocketAddress) (other : PeerId) : World where
  localInterface := some {}
  sockets := [some here, some here]
  channel := [.datagram there (NetworkEngine.Sample.beaconOf other)]

def hearing (sent : List NetworkEngine.Sent) (calls : List Mailbox.Call) (streamID : UInt32) : World where
  calls := [calls]
  localInterface := some {}
  channel := sent.map fun u => .datagram u.origin u.bytes
  sends := List.replicate 4 none
  streamIDs := [streamID]

def apart : EnginePair := ⟨.new { instanceId := 2 } 0, .new { instanceId := 1 } 0⟩

def met : EnginePair :=
  (apart.left (meeting NetworkEngine.Sample.here NetworkEngine.Sample.there 1) 0).right
    (meeting NetworkEngine.Sample.there NetworkEngine.Sample.here 2) 0

def asking : EnginePair :=
  (met.left (hearing [] [.post .connect 1] 7) 1).right (hearing [] [.post .connect 2] 8) 1

def answering : EnginePair := asking.right (hearing asking.a.outbox [] 9) 2

def accepted : EnginePair := answering.left (hearing (answering.b.outbox.drop 1) [] 0) 3

def crossed : EnginePair := accepted.right (hearing accepted.a.outbox [] 0) 4

lemma reachable_asking : system.Reachable asking := by
  have hapart : system.Reachable apart := .of_init ⟨by decide +kernel, _, _, _, _, rfl⟩
  have hmet : system.Reachable met :=
    reachable_right (reachable_left hapart (by decide +kernel) (by decide +kernel)) (by decide +kernel)
      (by decide +kernel)
  exact reachable_right (reachable_left hmet (by decide +kernel) (by decide +kernel)) (by decide +kernel)
    (by decide +kernel)

lemma reachable_crossed : system.Reachable crossed := by
  have hanswering : system.Reachable answering :=
    reachable_right reachable_asking (by decide +kernel) (by decide +kernel)
  have haccepted : system.Reachable accepted := reachable_left hanswering (by decide +kernel) (by decide +kernel)
  exact reachable_right haccepted (by decide +kernel) (by decide +kernel)

end Sample

theorem session_agreement_crossed : ∃ s t, Sample.crossed.a.find 1 = some s ∧ Sample.crossed.b.find 2 = some t ∧
    s.link.mRemoteStreamID = some t.link.mLocalStreamID ∧ t.link.mRemoteStreamID = some s.link.mLocalStreamID := by
  have hs : ((Sample.crossed.a.find 1).map fun s => (s.ended, s.state)) = some (false, .connected) := by
    decide +kernel
  have ht : ((Sample.crossed.b.find 2).map fun t => (t.ended, t.state)) = some (false, .connected) := by
    decide +kernel
  have ha : Sample.crossed.a.mId = 2 := by decide +kernel
  have hb : Sample.crossed.b.mId = 1 := by decide +kernel
  obtain ⟨s, hs, hse⟩ := Option.map_eq_some_iff.mp hs
  obtain ⟨t, ht, hte⟩ := Option.map_eq_some_iff.mp ht
  exact ⟨s, t, hs, ht, session_agreement Sample.reachable_crossed (hb ▸ hs) (ha ▸ ht) (by simpa using hse)
    (by simpa using hte)⟩

end EnginePair

end NetLink
