import NetLink.Engine.Sound

/-! What an engine does with its sessions, as runs of moves. -/

namespace NetLink.NetworkEngine

open Net (Text SocketAddress)
open Channel (TimePoint ReliableLink OutboundMessage DeliveredMessage Mailbox Packet)
open Session (ControlType)

def Reaches (Γ : Rules) (e e' : NetworkEngine) : Prop := Sound e.view → Run Γ e.view e'.view

namespace Reaches

variable {Γ : Rules} {e e' e'' : NetworkEngine}

lemma of_view (h : e'.view = e.view) : Reaches Γ e e' := by
  intro _
  rw [h]
  exact .refl

lemma refl (e : NetworkEngine) : Reaches Γ e e := of_view rfl

lemma trans (h : Reaches Γ e e') (h' : Reaches Γ e' e'') : Reaches Γ e e'' := by
  intro hs
  exact (h hs).trans (h' (hs.run (h hs)))

lemma of_move (h : Move Γ e.view e'.view) : Reaches Γ e e' := fun _ => .single h

lemma then_view (h : Reaches Γ e e') (hv : e''.view = e'.view) : Reaches Γ e e'' := h.trans (of_view hv)

lemma ite {c : Prop} [Decidable c] (h : Reaches Γ e e') (h' : Reaches Γ e e'') :
    Reaches Γ e (if c then e' else e'') := by
  split
  · exact h
  · exact h'

lemma foldl {α : Type} {f : NetworkEngine → α → NetworkEngine} (hf : ∀ e x, Reaches Γ e (f e x)) (xs : List α)
    (e : NetworkEngine) : Reaches Γ e (xs.foldl f e) := by
  induction xs generalizing e with
  | nil => exact refl e
  | cons x xs ih => exact (hf e x).trans (ih (f e x))

lemma along {α : Type} {P : NetworkEngine → α → Prop} {f : NetworkEngine → α → NetworkEngine}
    (hf : ∀ e x, P e x → Reaches Γ e (f e x)) (xs : List α) (e : NetworkEngine) (h : Lib.Along P f e xs) :
    Reaches Γ e (xs.foldl f e) := by
  induction xs generalizing e with
  | nil => exact refl e
  | cons x xs ih => exact (hf e x h.1).trans (ih (f e x) h.2)

lemma of_session {id : PeerId} {s s' : SessionView} {ms : List Mark} (h : e.view.sessions id = some s)
    (hm : SessionMove id s s' ms) (hv : e'.view = (e.view.set id s').log ms) : Reaches Γ e e' := by
  apply of_move
  rw [hv]
  exact .session id s s' ms h hm

end Reaches

variable {Γ : Rules} (e : NetworkEngine) {id : PeerId} {p : Peer}

lemma view_endPeer (h : e.find id = some p) : (e.endPeer id).view = e.view.set id p.view.finished := by
  simp only [endPeer, h]
  split
  · next he =>
    rw [View.set_of_sessions]
    rw [sessions_view e h, SessionView.finished]
    simp [Peer.view, he]
  · exact view_modifyPeer e h _

lemma view_finish (h : e.find id = some p) (reason : DisconnectReason) :
    ((e.report id reason).endPeer id).view = (e.view.set id p.view.told.finished).log
      (p.view.farewell id reason) := by
  rw [view_endPeer _ (find_report e h reason), view_report e h, View.set_log, View.set_set]
  rfl

lemma reaches_finish (id : PeerId) (reason : DisconnectReason) :
    Reaches Γ e ((e.report id reason).endPeer id) := by
  cases h : e.find id with
  | none => exact .of_view (by simp [report, endPeer, h])
  | some p => exact .of_session (sessions_view e h) (.finish reason) (view_finish e h reason)

lemma view_setConnected (h : e.find id = some p) :
    (e.setConnected id).view = (e.view.set id p.view.connected).log [connectedMark id p.info] := by
  simp only [setConnected, h, view_emit, view_withMailbox]
  rw [view_modifyPeer e h]
  rfl

lemma find_setConnected (h : e.find id = some p) :
    (e.setConnected id).find id =
      some { p with state := .connected, announced := true, stateDeadline := none } := by
  simp [setConnected, h]

lemma view_sendDecline (h : e.find id = some p) (now : TimePoint) :
    (e.sendDecline id now).view = (e.view.set id (p.view.told.closing
      (controlMessage .decline ({ reason := .declined } : Session.Decline).encode))).log
      (p.view.farewell id .localEnd) := by
  have hp := find_modifyPeer_self e id fun peer => { peer with
    control := peer.control ++ [controlMessage .decline ({ reason := .declined } : Session.Decline).encode] }
  rw [h, Option.map_some] at hp
  rw [sendDecline, view_touch, view_withMailbox, view_modifyPeer _ (find_report _ hp _), view_report _ hp,
    view_modifyPeer e h, View.set_set, View.set_log, View.set_set]
  rfl

lemma view_sendClose_unanswered (h : e.find id = some p) (hr : p.link.mRemoteStreamID = none) (now : TimePoint) :
    (e.sendClose id now).view = e.view.set id p.view.finished := by
  simp only [sendClose, find_withMailbox, h, Option.all_some, hr, Option.isNone_none, if_true]
  rw [view_endPeer _ (p := p) (by simpa using h)]
  rfl

lemma view_sendClose (h : e.find id = some p) (hr : p.link.mRemoteStreamID.isSome) (now : TimePoint) :
    (e.sendClose id now).view =
      e.view.set id (p.view.closing (controlMessage .close (Session.encodeClose 0))) := by
  have hn : p.link.mRemoteStreamID.isNone = false := by simpa using hr
  simp only [sendClose, find_withMailbox, h, Option.all_some, hn, Bool.false_eq_true, if_false, view_touch]
  rw [view_modifyPeer _ (p := p) (by simpa using h)]
  rfl

lemma follows_accept (name : Text) :
    Follows (controlMessage .accept ({ name := name } : Session.Accept).encode) := by
  have ht : ControlType.accept.tag ≠ ControlType.hello.tag := by decide
  refine ⟨ht, ?_⟩
  have hn := Channel.length_writeText_le name
  simp only [controlMessage, Session.Accept.encode, Session.writeExt, Channel.writeUint16, List.length_append,
    List.length_cons, List.length_nil, Channel.MaxMessagePayload]
  omega

lemma follows_decline :
    Follows (controlMessage .decline ({ reason := .declined } : Session.Decline).encode) :=
  ⟨by decide, by decide⟩

lemma follows_close : Follows (controlMessage .close (Session.encodeClose 0)) := ⟨by decide, by decide⟩

lemma reaches_sendDecline (h : e.find id = some p) (hs : p.state = .awaitingDecision) (now : TimePoint) :
    Reaches Γ e (e.sendDecline id now) :=
  .of_session (sessions_view e h) (.decline _ _ follows_decline hs) (view_sendDecline e h now)

lemma reaches_close (h : e.find id = some p) (hs : p.state ≠ .awaitingDecision) (reason : DisconnectReason)
    (now : TimePoint) : Reaches Γ e ((e.report id reason).sendClose id now) := by
  have hp := find_report e h reason
  cases hr : p.link.mRemoteStreamID with
  | none =>
    refine .of_session (sessions_view e h) (.finish reason) ?_
    rw [view_sendClose_unanswered _ hp hr, view_report e h, View.set_log, View.set_set]
    rfl
  | some x =>
    refine .of_session (sessions_view e h) (.goodbye _ reason follows_close hs ?_) ?_
    · simp [Peer.view, hr]
    · rw [view_sendClose _ hp (by simp [Peer.told, hr]), view_report e h, View.set_log, View.set_set]
      rfl

def linkOf (e : NetworkEngine) (id : PeerId) : Option ReliableLink := (e.find id).map (·.link)

lemma linkOf_modifyPeer (id : PeerId) (f : Peer → Peer) (hf : ∀ p, (f p).link = p.link) :
    (e.modifyPeer id f).linkOf id = e.linkOf id := by
  rw [linkOf, find_modifyPeer_self, Option.map_map, linkOf]
  congr 1
  funext p
  exact hf p

@[simp] lemma linkOf_report (id : PeerId) (reason : DisconnectReason) :
    (e.report id reason).linkOf id = e.linkOf id := by
  cases h : e.find id with
  | none => simp [report, h]
  | some p => simp [linkOf, find_report e h, h, Peer.told]

@[simp] lemma linkOf_endPeer (id : PeerId) : (e.endPeer id).linkOf id = e.linkOf id := by
  rw [endPeer]
  split
  · rfl
  · split
    · rfl
    · exact linkOf_modifyPeer e id _ fun _ => rfl

@[simp] lemma linkOf_setConnected (id : PeerId) : (e.setConnected id).linkOf id = e.linkOf id := by
  cases h : e.find id with
  | none => simp [setConnected, h]
  | some p => simp [linkOf, find_setConnected e h, h]

lemma linkOf_onControl (id : PeerId) (m : DeliveredMessage) : (e.onControl id m).linkOf id = e.linkOf id := by
  rw [onControl]
  split
  · rfl
  split
  · rfl
  split
  · rfl
  · rfl
  · split
    · rw [linkOf_setConnected]
      dsimp only
      split
      · rfl
      · exact linkOf_modifyPeer e id _ fun _ => rfl
    · rfl
  · split
    · simp
    · rfl
  · simp

lemma linkOf_deliver (id : PeerId) (m : DeliveredMessage) : (e.deliver id m).linkOf id = e.linkOf id := by
  rw [deliver]
  split
  · exact linkOf_onControl e id m
  split
  · rfl
  split
  · exact linkOf_modifyPeer e id _ fun _ => rfl
  · rfl

def Heard (e : NetworkEngine) (id : PeerId) (m : DeliveredMessage) : Prop :=
  m.lane = .control → (e.linkOf id).all (·.mRemoteStreamID.isSome)

lemma reaches_setConnected (h : e.find id = some p) (hm : SessionMove id p.view p.view.connected
    [connectedMark id p.info]) : Reaches Γ e (e.setConnected id) :=
  .of_session (sessions_view e h) hm (view_setConnected e h)

lemma reaches_onControl (id : PeerId) (m : DeliveredMessage) (hr : (e.linkOf id).all (·.mRemoteStreamID.isSome)) :
    Reaches Γ e (e.onControl id m) := by
  rw [onControl]
  split
  · exact .refl e
  next p h =>
  have hr : p.link.mRemoteStreamID.isSome := by simpa [linkOf, h] using hr
  split
  · exact .refl e
  next he =>
  have he : p.ended = false := by simpa using he
  split
  · exact .refl e
  · exact .refl e
  · split
    · next hs =>
      dsimp only
      split
      · exact reaches_setConnected e h (.accepted _ hs he hr)
      · -- The name changes, which no guarantee is about
        refine .trans (.of_view (view_modifyPeer_same e id _ ?_))
          (reaches_setConnected _ ((find_modifyPeer_self e id _).trans (congrArg _ h)) ?_)
        · exact fun _ => rfl
        · exact .accepted _ hs he hr
    · exact .refl e
  · split
    · exact reaches_finish e id _
    · exact .refl e
  · exact reaches_finish e id _

lemma view_pushMedia (id : PeerId) (m : DeliveredMessage) : (e.pushMedia id m).view = e.view :=
  view_modifyPeer_same e id _ fun _ => rfl

lemma reaches_deliver (id : PeerId) (m : DeliveredMessage) (hr : e.Heard id m) : Reaches Γ e (e.deliver id m) := by
  rw [deliver]
  split
  · next hm => exact reaches_onControl e id m (hr hm)
  split
  · exact .refl e
  next hn =>
  obtain ⟨p, h, hp⟩ : ∃ p, e.find id = some p ∧ (p.ended || p.reported || !p.transfersData) = false := by
    cases h : e.find id with
    | none => simp [h] at hn
    | some p => exact ⟨p, rfl, by simpa [h] using hn⟩
  simp only [Bool.or_eq_false_iff, Bool.not_eq_false'] at hp
  obtain ⟨⟨he, hp⟩, ht⟩ := hp
  have hs := sessions_view e h
  have hmove : ∀ event : EngineEvent, event.kind = .message → event.peer = id →
      ∀ e', e'.view = e.view.log [.emitted event] → Reaches Γ e e' := by
    intro event hk hpeer e' hv
    refine .of_session hs (.message event hk hpeer he hp ht) ?_
    rw [hv, View.set_of_sessions _ _ _ hs]
  split
  · exact hmove _ rfl rfl _ (by rw [view_emit, view_pushMedia])
  · exact hmove _ rfl rfl _ (view_emit e _)

lemma linkOf_delivers (id : PeerId) (ms : List DeliveredMessage) :
    (ms.foldl (fun e m => e.deliver id m) e).linkOf id = e.linkOf id := by
  induction ms generalizing e with
  | nil => rfl
  | cons m ms ih => rw [List.foldl_cons, ih, linkOf_deliver]

lemma reaches_delivers (id : PeerId) (ms : List DeliveredMessage) (hr : ∀ m ∈ ms, e.Heard id m) :
    Reaches Γ e (ms.foldl (fun e m => e.deliver id m) e) := by
  induction ms generalizing e with
  | nil => exact .refl e
  | cons m ms ih =>
    refine (reaches_deliver e id m (hr m (by simp))).trans (ih (e.deliver id m) fun m' hm' => ?_)
    rw [Heard, linkOf_deliver]
    exact hr m' (List.mem_cons_of_mem m hm')

lemma reaches_finishClosing (h : e.find id = some p) (hs : p.state = .closing) (now : TimePoint) (expired : Bool) :
    Reaches Γ e (e.finishClosing id p now expired) := by
  have hstate : p.state ≠ .awaitingDecision := by simp [hs]
  rw [finishClosing]
  cases expired with
  | true => exact reaches_close e h hstate .localEnd now
  | false =>
    rw [if_neg Bool.false_ne_true]
    by_cases hp : (p.link.hasPending .reliable || p.link.hasPending .bulk) = true
    · rw [if_pos hp]
      exact .refl e
    · rw [if_neg hp]
      dsimp only
      split
      · exact .trans (.of_view (view_settle e id)) (reaches_close _ (by simpa using h) hstate _ now)
      · exact .of_view (view_settle e id)

lemma reaches_advanceState (id : PeerId) (now : TimePoint) (hf : (e.linkOf id).all (!·.mFailed)) :
    Reaches Γ e (e.advanceState id now) := by
  rw [advanceState]
  split
  · exact .refl e
  next p h =>
  have hf : p.link.mFailed = false := by simpa [linkOf, h] using hf
  dsimp only
  split
  · exact .refl e
  next he =>
  have he : p.ended = false := by simpa using he
  split
  · next hs =>
    split
    · next hc =>
      simp only [Bool.and_eq_true, Bool.not_eq_true', List.isEmpty_iff] at hc
      obtain ⟨⟨hi, ha⟩, hc, hp⟩ := hc
      exact reaches_setConnected e h (.settled _ hs hi ha he hc hp hf)
    · exact .refl e
  · next hs =>
    split
    · exact reaches_sendDecline e h hs now
    · exact .refl e
  · exact .refl e
  · next hs =>
    split
    · next hc =>
      split
      · exact .of_session (sessions_view e h) (.letGo ⟨hs, hc⟩) (by rw [view_endPeer e h, View.log_nil])
      · exact .refl e
    · exact reaches_finishClosing e h hs now _

lemma run_lend {v : View} {s : SessionView} (h : v.sessions id = some s) (budget : Channel.AssemblyBudget) :
    Run Γ v (v.set id (s.withLink { s.link with mBudget := some budget })) := by
  apply Relation.ReflTransGen.single
  have hm := Move.session (Γ := Γ) id s _ [] h (.link _ (.budget s.link budget))
  rwa [View.log_nil] at hm

lemma reaches_onLink (id : PeerId) (f : ReliableLink → ReliableLink) (hf : ∀ l, LinkCall l (f l)) :
    Reaches Γ e (e.onLink id f) := by
  cases h : e.find id with
  | none => exact .of_view (by rw [onLink, h])
  | some p =>
    intro _
    rw [view_onLink e h]
    refine (run_lend (sessions_view e h) e.mAssemblyBudget).tail ?_
    have hm := Move.session (Γ := Γ) id (p.view.withLink (e.lend p)) _ [] (View.sessions_set e.view id _)
      (.link (f (e.lend p)) (hf _))
    rwa [View.log_nil, View.set_set] at hm

lemma heard_of_sound (hs : Sound e.view) (h : e.find id = some p) {m : DeliveredMessage}
    (hm : m ∈ p.link.mDelivered) (hc : m.lane = .control) : p.link.mRemoteStreamID.isSome := by
  obtain ⟨queued, hv⟩ := hs.served id p.view (sessions_view e h)
  by_contra hr
  exact hv.ne_control_of_unheard (fun _ => hr) m hm hc

lemma reaches_takeDelivered (h : e.find id = some p) : Reaches Γ e (e.putLink id (e.lend p).takeDelivered.2) := by
  have hon : e.putLink id (e.lend p).takeDelivered.2 = e.onLink id (·.takeDelivered.2) := by rw [onLink, h]
  rw [hon]
  exact reaches_onLink e id _ .takeDelivered

lemma heard_takeDelivered (hs : Sound e.view) (h : e.find id = some p) :
    ∀ m ∈ p.link.mDelivered, (e.putLink id (e.lend p).takeDelivered.2).Heard id m := by
  intro m hm hc
  have hr : p.link.mRemoteStreamID.isSome := heard_of_sound e hs h hm hc
  rw [linkOf, find_putLink, h]
  exact hr

lemma alive_delivers (h : e.find id = some p) {l : ReliableLink} (hl : l.mFailed = false)
    (ms : List DeliveredMessage) :
    ((ms.foldl (fun e m => e.deliver id m) (e.putLink id l)).linkOf id).all (!·.mFailed) := by
  rw [linkOf_delivers, linkOf, find_putLink, h, Option.map_some, Option.map_some, Option.all_some, hl,
    Bool.not_false]

lemma reaches_advance (id : PeerId) (now : TimePoint) : Reaches Γ e (e.advance id now) := by
  rw [advance]
  split
  · exact .refl e
  next p h =>
  split
  · exact .refl e
  split
  · exact reaches_finish e id .lost
  next hf =>
  intro hs
  have halive := alive_delivers e h (l := (e.lend p).takeDelivered.2) (Bool.eq_false_iff.mpr hf) p.link.mDelivered
  exact ((reaches_takeDelivered e h).trans ((reaches_delivers _ id _ (heard_takeDelivered e hs h)).trans
    (reaches_advanceState _ id now halive))) hs

end NetLink.NetworkEngine
