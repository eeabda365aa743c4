import NetLink.Engine.Runs.Sending

/-! A whole step, as a run of moves. -/

namespace NetLink.NetworkEngine

open Net (SocketAddress)
open Channel (TimePoint Mailbox)

variable {Γ : Rules} (e : NetworkEngine) {id : PeerId} {p : Peer}

lemma reaches_serve (now : TimePoint) (id : PeerId) : Reaches Γ e (serve now e id) := by
  have hserved := (reaches_advance (Γ := Γ) e id now).trans (reaches_sendAcks _ id)
  rw [serve]
  exact .ite (.refl e) (.ite (hserved.trans (reaches_schedule _ id)) hserved)

lemma settlePeer_keeps {R : NetworkEngine → NetworkEngine → Prop} (hrefl : ∀ e, R e e)
    (htrans : ∀ {a b c}, R a b → R b c → R a c)
    (htimed : ∀ e, R e (e.modifyPeer id fun peer => { peer with deadline := peer.link.nextDeadline }))
    (hsettled : ∀ e settled, R e ((e.settle id).2.modifyPeer id fun peer => { peer with unsettled := settled }))
    (hnoted : ∀ e, R e (e.modifyPeer id Peer.noteMedia))
    (hpublished : ∀ e stats, R e (e.withMailbox (·.publishStats id stats))) : R e (e.settlePeer id) := by
  have hstats : ∀ e, R e (e.publishStats id) := by
    intro e
    rw [publishStats]
    split
    · exact hnoted e
    · exact htrans (hnoted e) (hpublished _ _)
  have hsettle : ∀ e (c : Bool), R e (if c = true then
      (e.settle id).2.modifyPeer id fun peer => { peer with unsettled := !(e.settle id).1 } else e) := by
    intro e c
    split
    · exact hsettled e _
    · exact hrefl e
  rw [settlePeer]
  split
  · exact hrefl e
  split
  · exact hrefl e
  next p _ _ =>
  have hdone := htrans (htimed e) (hsettle _ (p.unsettled && !p.link.hasPendingReliable))
  dsimp only
  split
  · exact htrans hdone (hstats _)
  · exact hdone

lemma view_settlePeer (id : PeerId) : (e.settlePeer id).view = e.view :=
  settlePeer_keeps e (R := fun e e' => e'.view = e.view) (fun _ => rfl) (fun h h' => h'.trans h)
    (fun e => view_modifyPeer_same e id _ fun _ => rfl) (fun e _ => view_modifyPeer_same _ id _ fun _ => rfl)
    (fun e => view_modifyPeer_same e id _ fun p => by rw [Peer.noteMedia]; dsimp only; split <;> rfl)
    fun _ _ => rfl

lemma reaches_eraseEnded (id : PeerId) : Reaches Γ e (e.eraseEnded id) := by
  rw [eraseEnded]
  split
  · next he =>
    obtain ⟨p, h, he⟩ := (Option.any_eq_true _ _).mp he
    apply Reaches.of_move
    rw [view_erase]
    exact .dropEnded id p.view (sessions_view e h) he
  · exact .refl e

lemma view_markReady (id : PeerId) : (e.markReady id).view = e.view := by
  rw [markReady]
  split
  · rfl
  · exact view_modifyPeer_same e id _ fun _ => rfl

def beforeReceiving (e : NetworkEngine) (world : World) (now : TimePoint) : NetworkEngine :=
  let e := (e.beginStep world).applyCommands now
  (e.lookAtInterface (e.tickDue now)).updatePause

def arriving (e : NetworkEngine) (world : World) (now : TimePoint) : List (SocketAddress × List UInt8) :=
  (e.beforeReceiving world now).incoming

structure Lawful (Γ : Rules) (e : NetworkEngine) (world : World) (now : TimePoint) : Prop where
  commands : Lib.Along (fun e c => e.Swallows c → Γ.swallows) (apply now) (e.beginStep world)
    (e.beginStep world).mWork.commands
  datagrams : Lib.Along (Obeys Γ) (handleDatagram now) (e.beforeReceiving world now) (e.arriving world now)

def Rules.any : Rules where
  incoming _ _ := True
  swallows := True
  refusesCrossing := True
  crossesEnded := True

lemma lawful_any (world : World) (now : TimePoint) : Lawful .any e world now where
  commands := Lib.along_of_forall (fun _ _ _ => trivial) _ _
  datagrams := Lib.along_of_forall (fun _ _ => ⟨fun _ _ _ => trivial, fun _ => trivial, fun _ => trivial⟩) _ _

lemma reaches_applyCommands (now : TimePoint)
    (hc : Lib.Along (fun e c => e.Swallows c → Γ.swallows) (apply now) e e.mWork.commands) :
    Reaches Γ e (e.applyCommands now) :=
  (Reaches.along (fun e c => reaches_apply e now c) _ e hc).then_view (view_foldl view_markReady _ _)

lemma reaches_lookAtInterface (due : Bool) : Reaches Γ e (e.lookAtInterface due) := by
  rw [lookAtInterface]
  exact .ite (.trans (.of_view rfl) (reaches_updateInterface { e with mSocketFailed := false } e.mSocketFailed))
    (.refl e)

lemma reaches_beforeReceiving (world : World) (now : TimePoint) (h : Lawful Γ e world now) :
    Reaches Γ e (e.beforeReceiving world now) := by
  have hbegin : Reaches Γ e (e.beginStep world) := .of_view rfl
  exact hbegin.trans ((reaches_applyCommands _ now h.commands).trans
    ((reaches_lookAtInterface _ _).trans (reaches_updatePause _)))

lemma view_arranged (touched : List PeerId) (scheduler : Channel.SendScheduler) (blocked : Bool) :
    view { e with mTouched := touched, mScheduler := scheduler, mSocketBlocked := blocked } = e.view := rfl

lemma reaches_collect (world : World) (now : TimePoint) (h : Lawful Γ e world now) :
    Reaches Γ e (e.collect world now) := by
  have hreceived := (reaches_beforeReceiving e world now h).trans (reaches_receivePending _ now h.datagrams)
  have htimers := hreceived.trans (reaches_serviceTimers _ now)
  have hticked := fun due : Bool => htimers.trans (.ite (c := due = true) (reaches_tick _ now) (.refl _))
  have hannounced := (hticked (((e.beginStep world).applyCommands now).tickDue now)).trans (reaches_announce _)
  rw [collect]
  exact hannounced.then_view (view_arranged _ _ _ _)

lemma reaches_serveTouched (now : TimePoint) : Reaches Γ e (e.serveTouched now) := by
  have hserved := Reaches.foldl (Γ := Γ) (fun e id => reaches_serve e now id) e.mTouched e
  rw [serveTouched]
  exact .ite hserved (hserved.trans (reaches_sendData _ now))

lemma reaches_settleTouched : Reaches Γ e e.settleTouched := by
  have hsettled : Reaches Γ e { e.mTouched.foldl settlePeer e with mEnded := [] } :=
    .of_view (view_foldl view_settlePeer e.mTouched e)
  exact hsettled.trans (.foldl (fun e id => reaches_eraseEnded e id) _ _)

lemma view_finishStep (now : TimePoint) : (e.finishStep now).view = e.view := by
  rw [finishStep]
  split <;> rfl

lemma reaches_round (world : World) (now : TimePoint) (h : Lawful Γ e world now) :
    Reaches Γ e (e.round world now) :=
  (((reaches_collect e world now h).trans (reaches_serveTouched _ now)).trans (reaches_settleTouched _)).then_view
    (view_finishStep _ now)

lemma view_takeBatch : e.takeBatch.2.view = { e.view with pending := [] } := rfl

lemma view_step (world : World) (now : TimePoint) :
    (e.step world now).2.view = { (e.round world now).view with pending := [] } :=
  view_takeBatch _

end NetLink.NetworkEngine
