import Mathlib.Logic.Relation
import NetLink.Engine.View

/-! What a step of an engine can do, said once: every function of the engine is a run of the moves below, and
what holds of sessions over whole runs is shown move by move. -/

namespace NetLink.NetworkEngine

open Net (SocketAddress)
open Channel (ReliableLink OutboundMessage Packet TimePoint AssemblyBudget LinkTimings Host)

structure Rules where
  incoming : SocketAddress → Packet → Prop
  /-- A `connect` meets a session that has ended, or one in the making that nobody was told about. -/
  swallows : Prop
  /-- A crossing Hello finds no room for the session that replaces the one it meets. -/
  refusesCrossing : Prop
  /-- A crossing Hello meets a session that has ended. -/
  crossesEnded : Prop

inductive LinkCall : ReliableLink → ReliableLink → Prop
  | budget (l : ReliableLink) (budget : AssemblyBudget) : LinkCall l { l with mBudget := some budget }
  | onTimer (l : ReliableLink) (now : TimePoint) : LinkCall l (l.onTimer now)
  | setPaused (l : ReliableLink) (paused : Bool) : LinkCall l (l.setPaused paused)
  | takeDelivered (l : ReliableLink) : LinkCall l l.takeDelivered.2
  | peekAck (l : ReliableLink) : LinkCall l l.peekAck.2
  | commitAck (l : ReliableLink) : LinkCall l l.commitAck

def Follows (m : OutboundMessage) : Prop :=
  m.tag ≠ Session.ControlType.hello.tag ∧ m.body.length ≤ Channel.MaxMessagePayload

def View.hello (v : View) (id : PeerId) : Session.Hello where
  fromInstance := v.id
  toInstance := id
  appIdHash := v.identity.appIdHash
  verMajor := v.identity.version.verMajor
  verMinor := v.identity.version.verMinor
  name := v.identity.name

def View.helloMessage (v : View) (id : PeerId) : OutboundMessage := controlMessage .hello (v.hello id).encode

def Newborn (l : ReliableLink) : Prop :=
  ∃ timings id budget now paused budget', id ≠ 0 ∧ l =
    { ((ReliableLink.new timings id (some budget)).supervise now).setPaused paused with mBudget := some budget' }

namespace SessionView

def Supplies (s : SessionView) (lane : Channel.Lane) (next : Option OutboundMessage) : Prop :=
  lane = .control → next = s.control.head?

def peeked (s : SessionView) (lane : Channel.Lane) (next : Option OutboundMessage) : SessionView :=
  { s with
    link := (s.link.peek Host.single lane next).2.1
    control := if lane = .control ∧ (s.link.peek Host.single lane next).2.2 = none then s.control.tail
      else s.control }

def committed (s : SessionView) (lane : Channel.Lane) (next : Option OutboundMessage) (now : TimePoint) :
    SessionView :=
  (s.peeked lane next).withLink ((s.peeked lane next).link.commit lane now)

end SessionView

def connectedMark (id : PeerId) (info : PeerInfo) : Mark :=
  .emitted { kind := .connected, peer := id, info := info }

inductive SessionMove (id : PeerId) (s : SessionView) : SessionView → List Mark → Prop
  | drain (hs : s.state = .connected) : SessionMove id s { s with state := .closing } []
  | tell (reason : DisconnectReason) (hc : s.closeSent = true) : SessionMove id s s.told (s.farewell id reason)
  | decline (m : OutboundMessage) (reason : DisconnectReason) (hm : Follows m) (hs : s.state = .awaitingDecision) :
      SessionMove id s (s.told.closing m) (s.farewell id reason)
  | goodbye (m : OutboundMessage) (reason : DisconnectReason) (hm : Follows m) (hs : s.state ≠ .awaitingDecision)
      (hr : s.link.mRemoteStreamID.isSome) :
      SessionMove id s (s.told.closing m) (s.farewell id reason)
  | finish (reason : DisconnectReason) : SessionMove id s s.told.finished (s.farewell id reason)
  | letGo (hs : s.Lingers) : SessionMove id s s.finished []
  | accepted (info : PeerInfo) (hs : s.Asks) (he : s.ended = false) (hr : s.link.mRemoteStreamID.isSome) :
      SessionMove id s s.connected [connectedMark id info]
  | settled (info : PeerInfo) (hs : s.state = .connecting) (hi : s.initiator = false) (ha : s.acceptSent = true)
      (he : s.ended = false) (hc : s.control = []) (hp : s.link.hasPending .control = false)
      (hf : s.link.mFailed = false) : SessionMove id s s.connected [connectedMark id info]
  | message (event : EngineEvent) (hk : event.kind = .message) (hp : event.peer = id) (he : s.ended = false)
      (hr : s.reported = false) (ht : s.transfersData = true) : SessionMove id s s [.emitted event]
  | link (l : ReliableLink) (hl : LinkCall s.link l) : SessionMove id s (s.withLink l) []
  | peek (lane : Channel.Lane) (next : Option OutboundMessage) (hn : s.Supplies lane next) :
      SessionMove id s (s.peeked lane next) []

def View.Routes (v : View) (id : PeerId) (s : SessionView) (p : Packet) : Prop :=
  if p.header.dstStreamID = 0 then isFirstPacket p = true ∧ s.link.mRemoteStreamID = some p.header.srcStreamID
  else v.route p.header.dstStreamID = some id

structure View.Hails (v : View) (origin : SocketAddress) (id : PeerId) (p : Packet) : Prop where
  running : v.shutdown = false
  bound : v.socket.isSome
  dst : p.header.dstStreamID = 0
  first : isFirstPacket p = true
  hello : ∃ hello, Session.decodeHello p.body = some hello ∧ hello.fromInstance = id ∧ hello.toInstance = v.id
  unknown : ∀ j s, v.sessions j = some s → s.address = origin →
    s.link.mRemoteStreamID ≠ some p.header.srcStreamID

def newcomer (origin : SocketAddress) (l : ReliableLink) (p : Packet) (now : TimePoint) : SessionView :=
  { address := origin, link := l.onPacket p now }

def requestMark (id : PeerId) (info : PeerInfo) : Mark :=
  .emitted { kind := .connectionRequest, peer := id, info := info }

inductive Move (Γ : Rules) (v : View) : View → Prop
  | applied (c : Channel.Mailbox.Command) (id : PeerId) (hc : c ≠ .connect) : Move Γ v (v.log [.applied c id])
  | answered (c : Channel.Mailbox.Command) (id : PeerId) (s : SessionView) (m : OutboundMessage)
      (hm : Follows m) (hc : c = .accept ∨ c = .connect) (h : v.sessions id = some s)
        (hs : s.state = .awaitingDecision)
      (hq : c = .connect → s.ended = true → Γ.swallows) :
        Move Γ v ((v.set id (s.accepted m)).log [.applied c id, .acceptQueued id])
  | late (id : PeerId) (h : v.shutdown = true) : Move Γ v (v.log [.applied .connect id])
  | ignored (id : PeerId) (s : SessionView) (h : v.sessions id = some s) (hs : s.state ≠ .awaitingDecision)
      (hl : ¬s.Lingers) (hq : s.ended = true ∨ s.state = .connecting ∧ s.announced = false → Γ.swallows) :
      Move Γ v (v.log [.applied .connect id])
  | refused (id : PeerId) (reason : DisconnectReason) (h : ∀ s, v.sessions id = some s → s.Lingers) :
      Move Γ v ((v.drop id).log [.applied .connect id, .refused id, SessionView.disconnected id reason])
  | opened (id : PeerId) (address : SocketAddress) (l : ReliableLink)
      (h : ∀ s, v.sessions id = some s → s.Lingers) (hb : v.socket.isSome) (hl : Newborn l)
      (hx : (v.drop id).route l.mLocalStreamID = none) :
      Move Γ v (((v.drop id).openSession id
        { address := address, link := l, control := [v.helloMessage id], initiator := true,
          announced := true }).log
        [.applied .connect id, .opened id l.mLocalStreamID false])
  | session (id : PeerId) (s s' : SessionView) (ms : List Mark) (h : v.sessions id = some s)
      (hm : SessionMove id s s' ms) : Move Γ v ((v.set id s').log ms)
  | packet (id : PeerId) (s : SessionView) (p : Packet) (now : TimePoint) (h : v.sessions id = some s)
      (hi : Γ.incoming s.address p) (hr : v.Routes id s p) :
      Move Γ v (v.set id (s.withLink (s.link.onPacket p now)))
  | overtaken (id : PeerId) (s : SessionView) (p : Packet) (info : PeerInfo) (h : v.sessions id = some s)
      (hi : Γ.incoming s.address p) (hr : v.Routes id s p) (hl : p.header.flags.lane ≠ .control)
      (hs : s.state = .connecting) (hn : s.initiator = false) (ha : s.acceptSent = true) (he : s.ended = false) :
      Move Γ v ((v.set id s.connected).log [connectedMark id info])
  | asked (origin : SocketAddress) (id : PeerId) (p : Packet) (l : ReliableLink) (now : TimePoint)
    (info : PeerInfo)
      (hi : Γ.incoming origin p) (hh : v.Hails origin id p) (hl : Newborn l) (hn : v.sessions id = none)
      (ha : v.autoAccept = false) (hx : v.route l.mLocalStreamID = none) :
      Move Γ v ((v.openSession id
        { newcomer origin l p now with state := .awaitingDecision, announced := true }).log
        [.opened id l.mLocalStreamID true, requestMark id info])
  | welcomed (origin : SocketAddress) (id : PeerId) (p : Packet) (l : ReliableLink) (now : TimePoint)
      (m : OutboundMessage) (hm : Follows m) (hi : Γ.incoming origin p) (hh : v.Hails origin id p) (hl : Newborn l)
      (hn : v.sessions id = none) (ha : v.autoAccept = true) (hx : v.route l.mLocalStreamID = none) :
      Move Γ v ((v.openSession id ((newcomer origin l p now).accepted m)).log
        [.opened id l.mLocalStreamID true, .acceptQueued id])
  | crossed (origin : SocketAddress) (id : PeerId) (s : SessionView) (p : Packet) (l : ReliableLink)
    (now : TimePoint)
      (m : OutboundMessage) (hm : Follows m) (hi : Γ.incoming origin p) (hh : v.Hails origin id p) (hl : Newborn l)
      (h : v.sessions id = some s) (hs : s.Asks) (hd : s.ended = true → Γ.crossesEnded)
      (hx : (v.drop id).route l.mLocalStreamID = none) :
      Move Γ v (((v.drop id).openSession id ({ newcomer origin l p now with announced := true }.accepted m)).log
        [.opened id l.mLocalStreamID true, .acceptQueued id])
  | lostCrossing (id : PeerId) (s : SessionView) (h : v.sessions id = some s) (hs : s.Asks)
      (hq : Γ.refusesCrossing) : Move Γ v (v.drop id)
  | dropTold (id : PeerId) (s : SessionView) (reason : DisconnectReason) (h : v.sessions id = some s) :
      Move Γ v ((v.drop id).log (s.farewell id reason))
  | dropEnded (id : PeerId) (s : SessionView) (h : v.sessions id = some s) (he : s.ended = true) :
      Move Γ v (v.drop id)
  | transmit (id : PeerId) (s : SessionView) (lane : Channel.Lane) (next : Option OutboundMessage)
    (now : TimePoint)
      (p : Packet) (posts : List Sent) (h : v.sessions id = some s) (hn : s.Supplies lane next)
      (hp : (s.link.peek Host.single lane next).1 = some p)
      (hu : ∀ u ∈ posts, v.socket = some u.origin ∧ u.bytes = p.bytes) :
      Move Γ v { v.set id (s.committed lane next now) with outbox := v.outbox ++ posts }
  | transmitAck (id : PeerId) (s : SessionView) (p : Packet) (posts : List Sent) (h : v.sessions id = some s)
      (hp : p ∈ s.link.mPendingAcks) (hu : ∀ u ∈ posts, v.socket = some u.origin ∧ u.bytes = p.bytes) :
      Move Γ v { v with outbox := v.outbox ++ posts }
  | beacon (u : Sent) (hk : Discovery.isBeacon u.bytes = true) : Move Γ v (v.post u)
  | notice (event : EngineEvent)
      (hk : event.kind = .peerDiscovered ∨ event.kind = .peerLost ∨ event.kind = .adapterChanged) :
      Move Γ v (v.log [.emitted event])
  | rebind (socket : Option SocketAddress) (h : ∀ id, v.sessions id = none) : Move Γ v { v with socket := socket }
  | shutDown : Move Γ v { v with shutdown := true }

def Run (Γ : Rules) : View → View → Prop := Relation.ReflTransGen (Move Γ)

end NetLink.NetworkEngine
