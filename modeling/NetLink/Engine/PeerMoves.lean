import NetLink.Engine.Observed

/-! What one peer sees of the moves of an engine. -/

namespace NetLink.NetworkEngine

open Net (SocketAddress)
open Channel (ReliableLink OutboundMessage)

def ofSession : EngineEvent.Kind → Bool
  | .connectionRequest | .connected | .disconnected | .message => true
  | .peerDiscovered | .peerLost | .adapterChanged => false

def Mark.concerns (id : PeerId) : Mark → Bool
  | .applied _ peer | .opened peer _ _ | .refused peer | .acceptQueued peer => peer == id
  | .emitted event => event.peer == id && ofSession event.kind

def View.about (v : View) (id : PeerId) : List Mark := v.history.filter (Mark.concerns id)

inductive PeerMove (Γ : Rules) (v : View) (id : PeerId) : Option SessionView → Option SessionView →
    List Mark → Prop
  | quiet (o : Option SessionView) : PeerMove Γ v id o o []
  | applied (c : Channel.Mailbox.Command) (o : Option SessionView) (hc : c ≠ .connect) :
      PeerMove Γ v id o o [.applied c id]
  | late (o : Option SessionView) (h : v.shutdown = true) : PeerMove Γ v id o o [.applied .connect id]
  | ignored (s : SessionView) (hs : s.state ≠ .awaitingDecision) (hl : ¬s.Lingers)
      (hq : s.ended = true ∨ s.state = .connecting ∧ s.announced = false → Γ.swallows) :
      PeerMove Γ v id (some s) (some s) [.applied .connect id]
  | answered (c : Channel.Mailbox.Command) (s : SessionView) (m : OutboundMessage)
    (hc : c = .accept ∨ c = .connect)
      (hs : s.state = .awaitingDecision) (hq : c = .connect → s.ended = true → Γ.swallows) :
      PeerMove Γ v id (some s) (some (s.accepted m)) [.applied c id, .acceptQueued id]
  | refused (o : Option SessionView) (reason : DisconnectReason) (h : ∀ s, o = some s → s.Lingers) :
      PeerMove Γ v id o none [.applied .connect id, .refused id, SessionView.disconnected id reason]
  | opened (o : Option SessionView) (address : SocketAddress) (l : ReliableLink) (control : List OutboundMessage)
      (h : ∀ s, o = some s → s.Lingers) :
      PeerMove Γ v id o
        (some { address := address, link := l, control := control, initiator := true, announced := true })
        [.applied .connect id, .opened id l.mLocalStreamID false]
  | session (s s' : SessionView) (ms : List Mark) (hm : SessionMove id s s' ms) :
    PeerMove Γ v id (some s) (some s') ms
  | relinked (s : SessionView) (l : ReliableLink) (control : List OutboundMessage) :
      PeerMove Γ v id (some s) (some { s with link := l, control := control }) []
  | overtaken (s : SessionView) (info : PeerInfo) (hs : s.state = .connecting) (hn : s.initiator = false)
      (ha : s.acceptSent = true) (he : s.ended = false) :
      PeerMove Γ v id (some s) (some s.connected) [connectedMark id info]
  | asked (address : SocketAddress) (l : ReliableLink) (x : UInt32) (info : PeerInfo) (ha : v.autoAccept = false) :
      PeerMove Γ v id none
        (some { address := address, link := l, state := .awaitingDecision, announced := true })
        [.opened id x true, requestMark id info]
  | welcomed (address : SocketAddress) (l : ReliableLink) (x : UInt32) (m : OutboundMessage)
      (ha : v.autoAccept = true) :
      PeerMove Γ v id none (some (SessionView.accepted { address := address, link := l } m))
        [.opened id x true, .acceptQueued id]
  | crossed (s : SessionView) (address : SocketAddress) (l : ReliableLink) (x : UInt32) (m : OutboundMessage)
      (hs : s.Asks) (hd : s.ended = true → Γ.crossesEnded) :
      PeerMove Γ v id (some s) (some (SessionView.accepted { address := address, link := l, announced := true } m))
        [.opened id x true, .acceptQueued id]
  | lostCrossing (s : SessionView) (hs : s.Asks) (hq : Γ.refusesCrossing) : PeerMove Γ v id (some s) none []
  | dropTold (s : SessionView) (reason : DisconnectReason) : PeerMove Γ v id (some s) none (s.farewell id reason)
  | dropEnded (s : SessionView) (he : s.ended = true) : PeerMove Γ v id (some s) none []

def AllAbout (id : PeerId) (ms : List Mark) : Prop := ∀ m ∈ ms, ∀ j, m.concerns j = (id == j)

lemma AllAbout.filter_self {id : PeerId} {ms : List Mark} (h : AllAbout id ms) :
    ms.filter (Mark.concerns id) = ms := by
  apply List.filter_eq_self.mpr
  intro m hm
  rw [h m hm, beq_self_eq_true]

lemma AllAbout.filter_of_ne {id j : PeerId} {ms : List Mark} (h : AllAbout id ms) (hj : j ≠ id) :
    ms.filter (Mark.concerns j) = [] := by
  apply List.filter_eq_nil_iff.mpr
  intro m hm
  rw [h m hm, beq_iff_eq]
  exact hj.symm

lemma allAbout_farewell (s : SessionView) (id : PeerId) (reason : DisconnectReason) :
    AllAbout id (s.farewell id reason) := by
  intro m hm j
  rw [SessionView.farewell] at hm
  split at hm
  · rw [List.mem_singleton.mp hm]
    simp [SessionView.disconnected, Mark.concerns, ofSession]
  · simp at hm

lemma SessionMove.allAbout {id : PeerId} {s s' : SessionView} {ms : List Mark} (h : SessionMove id s s' ms) :
    AllAbout id ms := by
  cases h with
  | drain | letGo | link | peek => simp [AllAbout]
  | tell reason | decline m reason | goodbye m reason | finish reason => exact allAbout_farewell s id reason
  | accepted info | settled info => simp [AllAbout, connectedMark, Mark.concerns, ofSession]
  | message event hk hp => simp [AllAbout, Mark.concerns, ofSession, hk, hp]

lemma View.about_of_history {v w : View} {ms : List Mark} (h : w.history = v.history ++ ms) (id : PeerId) :
    w.about id = v.about id ++ ms.filter (Mark.concerns id) := by
  rw [about, h, List.filter_append, about]

variable {Γ : Rules} {v w : View}

def Shown (Γ : Rules) (v w : View) : Prop :=
  ∀ id, ∃ ms, w.about id = v.about id ++ ms ∧ PeerMove Γ v id (v.sessions id) (w.sessions id) ms

section Shown

variable {j : PeerId} {ms : List Mark} {s : SessionView}

lemma shown_of (hms : AllAbout j ms) (hh : w.history = v.history ++ ms)
    (hother : ∀ k ≠ j, w.sessions k = v.sessions k) (hself : PeerMove Γ v j (v.sessions j) (w.sessions j) ms) :
    Shown Γ v w := by
  intro id
  by_cases hj : id = j
  · subst hj
    exact ⟨ms, by rw [View.about_of_history hh, hms.filter_self], hself⟩
  · refine ⟨[], by rw [View.about_of_history hh, hms.filter_of_ne hj], ?_⟩
    rw [hother id hj]
    exact .quiet _

lemma shown_of_quiet (hh : w.history = v.history ++ ms) (hms : ∀ m ∈ ms, ∀ j, m.concerns j = false)
    (hs : w.sessions = v.sessions) : Shown Γ v w := by
  intro id
  have hnone : ms.filter (Mark.concerns id) = [] := List.filter_eq_nil_iff.mpr fun m hm => by simp [hms m hm id]
  refine ⟨[], by rw [View.about_of_history hh, hnone], ?_⟩
  rw [hs]
  exact .quiet _

lemma shown_log (hms : AllAbout j ms) (hself : PeerMove Γ v j (v.sessions j) (v.sessions j) ms) :
    Shown Γ v (v.log ms) :=
  shown_of hms rfl (fun _ _ => rfl) hself

lemma shown_set (hms : AllAbout j ms) (hself : PeerMove Γ v j (v.sessions j) (some s) ms) :
    Shown Γ v ((v.set j s).log ms) := by
  refine shown_of hms rfl (fun k hk => View.sessions_set_of_ne v j s hk) ?_
  rwa [View.sessions_log, View.sessions_set]

lemma shown_drop (hms : AllAbout j ms) (hself : PeerMove Γ v j (v.sessions j) none ms) :
    Shown Γ v ((v.drop j).log ms) := by
  refine shown_of hms ?_ (fun k hk => View.sessions_drop_of_ne v j hk) ?_
  · rw [View.history_log, View.history_drop]
  · rwa [View.sessions_log, View.sessions_drop_self]

lemma shown_open (hms : AllAbout j ms) (hself : PeerMove Γ v j (v.sessions j) (some s) ms) :
    Shown Γ v ((v.openSession j s).log ms) := by
  refine shown_of hms rfl (fun k hk => View.sessions_openSession_of_ne v j s hk) ?_
  rwa [View.sessions_log, View.sessions_openSession]

lemma shown_replace (hms : AllAbout j ms) (hself : PeerMove Γ v j (v.sessions j) (some s) ms) :
    Shown Γ v (((v.drop j).openSession j s).log ms) := by
  refine shown_of hms ?_ (fun k hk => ?_) ?_
  · exact congrArg (· ++ ms) (v.history_drop j)
  · rw [View.sessions_log, View.sessions_openSession_of_ne _ _ _ hk, View.sessions_drop_of_ne v j hk]
  · rwa [View.sessions_log, View.sessions_openSession]

end Shown

lemma Move.shown (h : Move Γ v w) : Shown Γ v w := by
  cases h with
  | applied c j hc =>
    apply shown_log (j := j)
    · simp [AllAbout, Mark.concerns]
    · exact .applied c _ hc
  | late j hs =>
    apply shown_log (j := j)
    · simp [AllAbout, Mark.concerns]
    · exact .late _ hs
  | notice event hk =>
    refine shown_of_quiet rfl ?_ rfl
    rcases hk with hk | hk | hk <;> simp [Mark.concerns, ofSession, hk]
  | beacon | transmitAck | rebind | shutDown => exact shown_of_quiet (List.append_nil _).symm (by simp) rfl
  | ignored j s hj hs hl hq =>
    apply shown_log (j := j)
    · simp [AllAbout, Mark.concerns]
    · rw [hj]
      exact .ignored s hs hl hq
  | answered c j s m hm hc hj hs hq =>
    apply shown_set
    · simp [AllAbout, Mark.concerns]
    · rw [hj]
      exact .answered c s m hc hs hq
  | refused j reason hl =>
    apply shown_drop
    · simp [AllAbout, Mark.concerns, SessionView.disconnected, ofSession]
    · exact .refused _ reason hl
  | opened j address l hl hb hn =>
    apply shown_replace
    · simp [AllAbout, Mark.concerns]
    · exact .opened _ address l _ hl
  | session j s s' ms hj hm =>
    apply shown_set hm.allAbout
    rw [hj]
    exact .session s s' ms hm
  | packet j s p now hj =>
    rw [← View.log_nil (v.set _ _)]
    apply shown_set (by simp [AllAbout])
    rw [hj]
    exact .relinked s _ s.control
  | overtaken j s p info hj hi hr hl hs hn ha he =>
    apply shown_set
    · simp [AllAbout, connectedMark, Mark.concerns, ofSession]
    · rw [hj]
      exact .overtaken s info hs hn ha he
  | asked origin j p l now info hi hh hl hn ha =>
    apply shown_open
    · simp [AllAbout, requestMark, Mark.concerns, ofSession]
    · rw [hn]
      exact .asked origin _ _ info ha
  | welcomed origin j p l now m hm hi hh hl hn ha =>
    apply shown_open
    · simp [AllAbout, Mark.concerns]
    · rw [hn]
      exact .welcomed origin _ _ m ha
  | crossed origin j s p l now m hm hi hh hl hj hs hd =>
    apply shown_replace
    · simp [AllAbout, Mark.concerns]
    · rw [hj]
      exact .crossed s origin _ _ m hs hd
  | lostCrossing j s hj hs hq =>
    rw [← View.log_nil (v.drop j)]
    apply shown_drop (by simp [AllAbout])
    rw [hj]
    exact .lostCrossing s hs hq
  | dropTold j s reason hj =>
    apply shown_drop (allAbout_farewell s j reason)
    rw [hj]
    exact .dropTold s reason
  | dropEnded j s hj he =>
    rw [← View.log_nil (v.drop j)]
    apply shown_drop (by simp [AllAbout])
    rw [hj]
    exact .dropEnded s he
  | transmit j s lane next now p posts hj =>
    refine shown_of (j := j) (by simp [AllAbout]) (List.append_nil _).symm
      (fun k hk => View.sessions_set_of_ne v j _ hk) ?_
    have hs : (v.set j (s.committed lane next now)).sessions j = some (s.committed lane next now) :=
      View.sessions_set ..
    dsimp only
    rw [hs, hj]
    exact .relinked s _ _

end NetLink.NetworkEngine
