import NetLink.Channel.ReliableLink.Host
import NetLink.Engine.Step

/-! Sessions without their timers and their mail: what the guarantees of an engine are about. -/

namespace NetLink.NetworkEngine

open Net (SocketAddress)
open Channel (ReliableLink OutboundMessage Packet)
open Discovery (LocalIdentity)

structure SessionView where
  address : SocketAddress
  state : PeerState := .connecting
  link : ReliableLink
  control : List OutboundMessage := []
  initiator : Bool := false
  acceptSent : Bool := false
  closeSent : Bool := false
  announced : Bool := false
  reported : Bool := false
  ended : Bool := false

namespace SessionView

def transfersData (s : SessionView) : Bool := s.state == .connected || (s.state == .closing && !s.closeSent)

def told (s : SessionView) : SessionView := { s with reported := s.reported || s.announced }

def disconnected (id : PeerId) (reason : DisconnectReason) : Mark :=
  .emitted { kind := .disconnected, peer := id, reason := reason }

def farewell (s : SessionView) (id : PeerId) (reason : DisconnectReason) : List Mark :=
  if s.announced && !s.reported then [disconnected id reason] else []

lemma told_of_settled {s : SessionView} (h : (s.announced && !s.reported) = false) : s.told = s := by
  cases s
  simp_all [told]

lemma farewell_of_settled {s : SessionView} {id : PeerId} {reason : DisconnectReason}
    (h : (s.announced && !s.reported) = false) : s.farewell id reason = [] := by
  simp [farewell, h]

lemma told_settled (s : SessionView) : (s.told.announced && !s.told.reported) = false := by
  cases hr : s.reported <;> cases ha : s.announced <;> simp [told, hr, ha]

@[simp] lemma told_told (s : SessionView) : s.told.told = s.told := told_of_settled s.told_settled

@[simp] lemma farewell_told (s : SessionView) (id : PeerId) (reason : DisconnectReason) :
    s.told.farewell id reason = [] :=
  farewell_of_settled s.told_settled

def accepted (s : SessionView) (message : OutboundMessage) : SessionView :=
  { s with control := s.control ++ [message], state := .connecting, acceptSent := true }

def closing (s : SessionView) (message : OutboundMessage) : SessionView :=
  { s with control := s.control ++ [message], state := .closing, closeSent := true }

def connected (s : SessionView) : SessionView := { s with state := .connected, announced := true }

def finished (s : SessionView) : SessionView := { s with ended := true }

def withLink (s : SessionView) (link : ReliableLink) : SessionView := { s with link := link }

def Lingers (s : SessionView) : Prop := s.state = .closing ∧ s.closeSent = true

def Asks (s : SessionView) : Prop := s.state = .connecting ∧ s.initiator = true

end SessionView

def Mark.event : Mark → Option EngineEvent
  | .emitted event => some event
  | _ => none

structure View where
  id : PeerId
  autoAccept : Bool
  identity : LocalIdentity
  sessions : PeerId → Option SessionView
  route : UInt32 → Option PeerId
  socket : Option SocketAddress
  shutdown : Bool
  history : List Mark
  pending : List EngineEvent
  outbox : List Sent

namespace View

def set (v : View) (id : PeerId) (s : SessionView) : View :=
  { v with sessions := Function.update v.sessions id (some s) }

def log (v : View) (marks : List Mark) : View :=
  { v with history := v.history ++ marks, pending := v.pending ++ marks.filterMap Mark.event }

def drop (v : View) (id : PeerId) : View :=
  match v.sessions id with
  | none => v
  | some s => { v with
      sessions := Function.update v.sessions id none
      route := Function.update v.route s.link.mLocalStreamID none }

def openSession (v : View) (id : PeerId) (s : SessionView) : View :=
  { v with
    sessions := Function.update v.sessions id (some s)
    route := Function.update v.route s.link.mLocalStreamID (some id) }

def post (v : View) (sent : Sent) : View := { v with outbox := v.outbox ++ [sent] }

variable (v : View) (id : PeerId) (s t : SessionView) (ms ns : List Mark) {j : PeerId}

@[simp] lemma sessions_set : (v.set id s).sessions id = some s := by simp [set]

lemma sessions_set_of_ne (h : j ≠ id) : (v.set id s).sessions j = v.sessions j := by simp [set, h]

@[simp] lemma sessions_openSession : (v.openSession id s).sessions id = some s := by simp [openSession]

lemma sessions_openSession_of_ne (h : j ≠ id) :
    (v.openSession id s).sessions j = v.sessions j := by
  simp [openSession, h]

@[simp] lemma set_set : (v.set id s).set id t = v.set id t := by simp [set]

@[simp] lemma log_log : (v.log ms).log ns = v.log (ms ++ ns) := by simp [log]

@[simp] lemma log_nil : v.log [] = v := by simp [log]

@[simp] lemma sessions_log : (v.log ms).sessions = v.sessions := rfl

@[simp] lemma history_log : (v.log ms).history = v.history ++ ms := rfl

@[simp] lemma history_set : (v.set id s).history = v.history := rfl

lemma set_log : (v.log ms).set id s = (v.set id s).log ms := rfl

lemma openSession_log : (v.log ms).openSession id s = (v.openSession id s).log ms := rfl

lemma drop_log : (v.log ms).drop id = (v.drop id).log ms := by
  rw [drop, drop, sessions_log]
  cases v.sessions id <;> rfl

lemma set_openSession (h : t.link.mLocalStreamID = s.link.mLocalStreamID) :
    (v.openSession id s).set id t = v.openSession id t := by
  simp [set, openSession, h]

lemma set_of_sessions (h : v.sessions id = some s) : v.set id s = v := by
  rw [set, ← h, Function.update_eq_self]

lemma drop_of_some (h : v.sessions id = some s) : v.drop id = { v with
    sessions := Function.update v.sessions id none
    route := Function.update v.route s.link.mLocalStreamID none } := by
  rw [drop, h]

lemma drop_of_none (h : v.sessions id = none) : v.drop id = v := by
  rw [drop, h]

lemma sessions_drop : (v.drop id).sessions = Function.update v.sessions id none := by
  cases h : v.sessions id with
  | none => rw [drop_of_none v id h, ← h, Function.update_eq_self]
  | some s => rw [drop_of_some v id s h]

@[simp] lemma sessions_drop_self : (v.drop id).sessions id = none := by simp [sessions_drop]

lemma sessions_drop_of_ne (h : j ≠ id) : (v.drop id).sessions j = v.sessions j := by
  simp [sessions_drop, h]

lemma drop_set (h : v.sessions id = some s) (hl : t.link.mLocalStreamID = s.link.mLocalStreamID) :
    (v.set id t).drop id = v.drop id := by
  rw [drop_of_some _ _ t (sessions_set v id t), drop_of_some _ _ s h, hl]
  simp [set]

lemma drop_eq : v.drop id = { v with sessions := (v.drop id).sessions, route := (v.drop id).route } := by
  rw [drop]
  split <;> rfl

@[simp] lemma history_drop : (v.drop id).history = v.history := by
  unfold drop
  split <;> rfl

def said (v : View) : List Mark × List EngineEvent := (v.history, v.pending)

@[simp] lemma said_set (v : View) (id : PeerId) (s : SessionView) : (v.set id s).said = v.said := rfl

@[simp] lemma said_drop (v : View) (id : PeerId) : (v.drop id).said = v.said := by
  rw [drop_eq]
  rfl

lemma said_log {v w : View} (h : v.said = w.said) (ms : List Mark) : (v.log ms).said = (w.log ms).said := by
  simp only [said, Prod.mk.injEq] at h
  simp only [said, log, h.1, h.2]

end View

def Peer.view (p : Peer) : SessionView where
  address := p.address
  state := p.state
  link := p.link
  control := p.control
  initiator := p.initiator
  acceptSent := p.acceptSent
  closeSent := p.closeSent
  announced := p.announced
  reported := p.reported
  ended := p.ended

def view (e : NetworkEngine) : View where
  id := e.mId
  autoAccept := e.mConfig.autoAccept
  identity := e.mDiscovery.mIdentity
  sessions := fun id => (e.find id).map Peer.view
  route := fun x => e.mByStream[x]?
  socket := e.mIoSocket
  shutdown := e.mShutdown
  history := e.history
  pending := e.mEvents
  outbox := e.outbox

variable (e : NetworkEngine) {id : PeerId} {p : Peer}

lemma sessions_view (h : e.find id = some p) : e.view.sessions id = some p.view := by simp [view, h]

lemma sessions_view_none (h : e.find id = none) : e.view.sessions id = none := by simp [view, h]

lemma find_modifyPeer (id j : PeerId) (f : Peer → Peer) :
    (e.modifyPeer id f).find j = if id = j then (e.find id).map f else e.find j := by
  simp [find, modifyPeer, Std.TreeMap.getElem?_modify]

@[simp] lemma find_modifyPeer_self (id : PeerId) (f : Peer → Peer) :
    (e.modifyPeer id f).find id = (e.find id).map f := by
  simp [find_modifyPeer]

lemma view_modifyPeer (h : e.find id = some p) (f : Peer → Peer) :
    (e.modifyPeer id f).view = e.view.set id (f p).view := by
  have hs : (e.modifyPeer id f).view.sessions = Function.update e.view.sessions id (some (f p).view) := by
    funext j
    by_cases hj : id = j
    · subst hj
      simp [view, h]
    · simp [view, find_modifyPeer, hj, Ne.symm hj]
  rw [View.set, ← hs]
  rfl

lemma view_modifyPeer_same (id : PeerId) (f : Peer → Peer) (hf : ∀ p, (f p).view = p.view) :
    (e.modifyPeer id f).view = e.view := by
  cases h : e.find id with
  | none =>
    have hs : (e.modifyPeer id f).view.sessions = e.view.sessions := by
      funext j
      by_cases hj : id = j
      · subst hj
        simp [view, h]
      · simp [view, find_modifyPeer, hj]
    rw [view, View.mk.injEq]
    exact ⟨rfl, rfl, rfl, hs, rfl, rfl, rfl, rfl, rfl, rfl⟩
  | some p => rw [view_modifyPeer e h, hf, View.set_of_sessions _ _ _ (sessions_view e h)]

@[simp] lemma view_touch (id : PeerId) : (e.touch id).view = e.view := rfl
@[simp] lemma find_touch (id j : PeerId) : (e.touch id).find j = e.find j := rfl
lemma view_record {m : Mark} (hm : m.event = none) : (e.record m).view = e.view.log [m] := by
  simp [View.log, hm, view, record, find]
@[simp] lemma find_record (m : Mark) (j : PeerId) : (e.record m).find j = e.find j := rfl
@[simp] lemma view_emit (event : EngineEvent) : (e.emit event).view = e.view.log [.emitted event] := rfl
@[simp] lemma find_emit (event : EngineEvent) (j : PeerId) : (e.emit event).find j = e.find j := rfl
@[simp] lemma view_withMailbox (f : Channel.Mailbox → Channel.Mailbox) : (e.withMailbox f).view = e.view := rfl
@[simp] lemma find_withMailbox (f : Channel.Mailbox → Channel.Mailbox) (j : PeerId) :
    (e.withMailbox f).find j = e.find j := rfl
@[simp] lemma view_settle (id : PeerId) : (e.settle id).2.view = e.view := rfl
@[simp] lemma find_settle (id j : PeerId) : (e.settle id).2.find j = e.find j := rfl

lemma view_putLink (h : e.find id = some p) (link : ReliableLink) :
    (e.putLink id link).view = e.view.set id (p.view.withLink link) :=
  view_modifyPeer e h _

lemma find_putLink (link : ReliableLink) :
    (e.putLink id link).find id = (e.find id).map ({ · with link := link }) :=
  find_modifyPeer_self e id _

lemma view_onLink (h : e.find id = some p) (f : ReliableLink → ReliableLink) :
    (e.onLink id f).view = e.view.set id (p.view.withLink (f (e.lend p))) := by
  simp only [onLink, h]
  exact view_putLink e h _

@[simp] lemma find_onLink (h : e.find id = some p) (f : ReliableLink → ReliableLink) :
    (e.onLink id f).find id = some { p with link := f (e.lend p) } := by
  simp only [onLink, h]
  rw [find_putLink, h, Option.map_some]

lemma view_erase (id : PeerId) : (e.erase id).view = e.view.drop id := by
  cases h : e.find id with
  | none => rw [erase, h, View.drop_of_none _ _ (sessions_view_none e h)]
  | some p =>
    have hs : (e.erase id).view.sessions = Function.update e.view.sessions id none := by
      have hp : (e.erase id).mPeers = e.mPeers.erase id := by rw [erase, h]; rfl
      funext j
      simp only [view, find, hp, Std.TreeMap.getElem?_erase]
      by_cases hj : j = id
      · simp [hj]
      · simp [Ne.symm hj, hj]
    have hr : (e.erase id).view.route = Function.update e.view.route p.view.link.mLocalStreamID none := by
      have hp : (e.erase id).mByStream = e.mByStream.erase p.link.mLocalStreamID := by rw [erase, h]; rfl
      funext x
      simp only [view, hp, Std.TreeMap.getElem?_erase, Peer.view]
      by_cases hx : x = p.link.mLocalStreamID
      · simp [hx]
      · simp [Ne.symm hx, hx]
    rw [View.drop_of_some _ _ _ (sessions_view e h), ← hs, ← hr, erase, h]
    rfl

def Peer.told (p : Peer) : Peer := { p with reported := p.reported || p.announced }

lemma find_report (h : e.find id = some p) (reason : DisconnectReason) :
    (e.report id reason).find id = some p.told := by
  simp only [report, h]
  split
  · next hs =>
    rw [h, Peer.told]
    cases p
    grind
  · next hs => simp_all [Peer.told]

lemma view_report (h : e.find id = some p) (reason : DisconnectReason) :
    (e.report id reason).view = (e.view.set id p.view.told).log (p.view.farewell id reason) := by
  simp only [report, h]
  split
  · next hs =>
    have hs : (p.view.announced && !p.view.reported) = false := by
      cases ha : p.announced <;> simp_all [Peer.view]
    rw [SessionView.told_of_settled hs, SessionView.farewell_of_settled hs, View.log_nil,
      View.set_of_sessions _ _ _ (sessions_view e h)]
  · next hs =>
    have hs : p.announced = true ∧ p.reported = false := by simpa using hs
    rw [view_emit, view_modifyPeer e h, SessionView.farewell]
    simp [hs, SessionView.told, SessionView.disconnected, Peer.view]

end NetLink.NetworkEngine
