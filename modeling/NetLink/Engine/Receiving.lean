import NetLink.Engine.Sessions

/-! The adapter and its sockets, datagrams and timers. -/

namespace NetLink.NetworkEngine

open Net (Text SocketAddress)
open Channel (TimePoint ReliableLink Packet Mailbox SendScheduler decodePacket BacklogPauseBytes
  BacklogResumeBytes)
open Session (ControlType)

def sendBeacon (e : NetworkEngine) (destination : SocketAddress) (reply : Bool) : NetworkEngine :=
  match e.mIoSocket with
  | none => e
  | some here =>
    let world := { e.world with sends := e.world.sends.tail }
    match e.world.sends with
    | none :: _ =>
      { e with
        world := world
        mScheduler := e.mScheduler.spend
        outbox := e.outbox ++ [⟨here, destination, e.mDiscovery.beacon reply⟩] }
    | _ => { e with world := world }

def bind (e : NetworkEngine) (iface : LocalInterface) : NetworkEngine :=
  let channel := (e.world.sockets.head?).join
  let beacons := (e.world.sockets.tail.head?).join
  match channel with
  | none => { e with world := { e.world with sockets := e.world.sockets.tail } }
  | some here =>
    { e with
      world := { e.world with sockets := e.world.sockets.tail.tail }
      mBeaconSocket := e.mBeaconSocket || beacons.isSome
      mIoSocket := some here
      mDiscovery := e.mDiscovery.setInterface iface.ip iface.mask
      mBeaconDue := true }.emit
      { kind := .adapterChanged, info := { address := iface.ip.toString, port := here.port } }

def closeSockets (e : NetworkEngine) : NetworkEngine := { e with mIoSocket := none, mBeaconSocket := false }

def endInPassing (reason : DisconnectReason) (e : NetworkEngine) (id : PeerId) : NetworkEngine :=
  (e.report id reason).withMailbox (·.close id)

def releasePeer (e : NetworkEngine) (id : PeerId) : NetworkEngine :=
  match e.find id with
  | none => e
  | some peer => { e with mAssemblyBudget := (e.lend peer).releasedBudget.getD e.mAssemblyBudget }

def endAllSessions (e : NetworkEngine) (reason : DisconnectReason) : NetworkEngine :=
  let e := e.mPeers.keys.foldl (endInPassing reason) e
  { e.mPeers.keys.foldl releasePeer e with
    mPeers := ∅
    mByStream := ∅
    mScheduler := e.mScheduler.clear
    mAcksHeldBack := []
    mEnded := [] }

def forgetPeers (e : NetworkEngine) : NetworkEngine :=
  let (known, discovery) := e.mDiscovery.clear
  known.foldl (fun e id => e.emit { kind := .peerLost, peer := id }) { e with mDiscovery := discovery }

def updateInterface (e : NetworkEngine) (socketFailed : Bool) : NetworkEngine :=
  let e := { e with mCheckInterface := false }
  let current := e.world.localInterface
  let changed := current != e.mInterface
  if !changed && !socketFailed then
    match current with
    | none => e
    | some iface => if e.mIoSocket.isNone then e.bind iface else e
  else
    let reason := if changed then DisconnectReason.localEnd else .networkError
    let e := if e.mIoSocket.isSome then e.endAllSessions reason else e
    let e := { e.forgetPeers with mPeersChanged := true, mInterface := current }.closeSockets
    match current with
    | none => e
    | some iface => if changed then e.bind iface else e

def onBeacon (e : NetworkEngine) (origin : SocketAddress) (bytes : List UInt8) (now : TimePoint) :
    NetworkEngine :=
  if e.mShutdown then e
  else
    let (seen, discovery) := e.mDiscovery.onBeacon origin bytes now
    let e := { e with mDiscovery := discovery }
    match seen.peer with
    | none => e
    | some peer =>
      let e := if seen.sighting = .new then
          { e.emit { kind := .peerDiscovered, peer := peer.info.id, info := peer.info } with
            mPeersChanged := true }
        else e
      if seen.reply then e.sendBeacon peer.endpoint true else e

def rejectsHello (e : NetworkEngine) (origin : SocketAddress) (hello : Session.Hello) : Bool :=
  let identity := e.mDiscovery.mIdentity
  e.mShutdown || hello.toInstance != e.mId || hello.fromInstance == e.mId ||
    hello.appIdHash != identity.appIdHash || hello.verMajor != identity.version.verMajor ||
    hello.verMinor != identity.version.verMinor || hello.name.length > MaxDisplayName ||
    !e.mDiscovery.isInSubnet origin.ip

/-- What becomes of the record a Hello meets, `none` where the Hello is ignored for it. The first component
says that both sides asked at once. -/
def makeWay (e : NetworkEngine) (id : PeerId) : Option (Bool × NetworkEngine) :=
  match e.find id with
  | none => some (false, e)
  | some existing =>
    if existing.state = .connecting ∧ existing.initiator then
      -- The one with the higher ID keeps asking, the other one answers
      if e.mId > id then none else some (true, e.erase id)
    else some (false, (e.report id .lost).erase id)

def pendingSessions (e : NetworkEngine) : ℕ := e.mPeers.values.countP (·.state != .connected)

def isFull (e : NetworkEngine) : Bool :=
  e.mPeers.size ≥ MaxPeers || e.pendingSessions ≥ MaxPendingSessions

def helloInfo (origin : SocketAddress) (hello : Session.Hello) : PeerInfo where
  id := hello.fromInstance
  displayName := hello.name
  address := origin.ip.toString
  port := origin.port
  appVersion := ({ verMajor := hello.verMajor, verMinor := hello.verMinor } : Discovery.AppVersion).toString

def admitPeer (e : NetworkEngine) (origin : SocketAddress) (hello : Session.Hello) (crossing : Bool)
    (now : TimePoint) :
    NetworkEngine :=
  let id := hello.fromInstance
  let info := helloInfo origin hello
  let e := e.addPeer info origin true now
  if crossing || e.mConfig.autoAccept then
    let e := e.modifyPeer id fun peer => { peer with announced := crossing }
    (e.withMailbox (·.publishSession id .pending)).sendAccept id
  else
    let e := e.modifyPeer id fun peer => { peer with
      state := .awaitingDecision
      stateDeadline := some (now + DecisionTimeout)
      announced := true }
    (e.withMailbox (·.publishSession id .requested)).emit { kind := .connectionRequest, peer := id, info := info }

def onHello (e : NetworkEngine) (origin : SocketAddress) (packet : Packet) (now : TimePoint) :
    Option PeerId × NetworkEngine :=
  let knows := fun peer : Peer =>
    peer.address == origin && peer.link.mRemoteStreamID == some packet.header.srcStreamID
  match e.mPeers.toList.find? fun entry => knows entry.2 with
  | some entry => (some entry.1, e)
  | none =>
    match Session.decodeHello packet.body with
    | none => (none, e)
    | some hello =>
      if e.rejectsHello origin hello then (none, e)
      else
        match e.makeWay hello.fromInstance with
        | none => (none, e)
        | some (crossing, e) =>
          if e.isFull then (none, e)
          else (some hello.fromInstance, e.admitPeer origin hello crossing now)

def isFirstPacket (packet : Packet) : Bool :=
  let header := packet.header
  header.flags.kind == .data && header.flags.lane == .control && header.seq == 1 && !header.flags.isFragmented &&
    header.tag == ControlType.hello.tag

def route (e : NetworkEngine) (origin : SocketAddress) (packet : Packet) (now : TimePoint) :
    Option PeerId × NetworkEngine :=
  if packet.header.dstStreamID = 0 then
    if isFirstPacket packet then e.onHello origin packet now else (none, e)
  else (e.mByStream[packet.header.dstStreamID]?, e)

def hear (e : NetworkEngine) (id : PeerId) (packet : Packet) : NetworkEngine :=
  e.modifyPeer id fun peer => { peer with heard := peer.heard ++ [packet] }

def receive (e : NetworkEngine) (id : PeerId) (origin : SocketAddress) (packet : Packet) (now : TimePoint) :
    NetworkEngine :=
  match e.find id with
  | none => e
  | some peer =>
    if peer.ended || peer.address != origin then e
    else if packet.header.flags.lane ≠ .control ∧ !peer.transfersData then
      -- The Accept arrived: the remote already uses the session
      if peer.state ≠ .connecting ∨ peer.initiator ∨ !peer.acceptSent then e
      else (((e.hear id packet).setConnected id).onLink id (·.onPacket packet now)).touch id
    else ((e.hear id packet).onLink id (·.onPacket packet now)).touch id

def handlePacket (e : NetworkEngine) (origin : SocketAddress) (packet : Packet) (now : TimePoint) :
    NetworkEngine :=
  match e.route origin packet now with
  | (none, e) => e
  | (some id, e) => e.receive id origin packet now

def handleDatagram (now : TimePoint) (e : NetworkEngine) (datagram : SocketAddress × List UInt8) : NetworkEngine :=
  if Discovery.isBeacon datagram.2 then e.onBeacon datagram.1 datagram.2 now
  else
    match decodePacket datagram.2 with
    | none => e
    | some packet => e.handlePacket datagram.1 packet now

/-- The datagrams one pass takes from a socket, of at most as many answers of `receiveFrom`. -/
def drained : ℕ → List Received → List (SocketAddress × List UInt8)
  | 0, _ | _, [] => []
  | n + 1, .datagram origin bytes :: rest => (origin, bytes) :: drained n rest
  | n + 1, .failed error :: rest => if error = .messageTooLarge then drained n rest else []

def receivePending (e : NetworkEngine) (now : TimePoint) : NetworkEngine :=
  if e.mIoSocket.isNone then e
  else
    let e := (drained MaxDatagramsPerPass e.world.channel).foldl (handleDatagram now) e
    if e.mBeaconSocket then
      (drained MaxDatagramsPerPass e.world.beacons).foldl (fun e d => e.onBeacon d.1 d.2 now) e
    else e

def serviceTimer (now : TimePoint) (e : NetworkEngine) (id : PeerId) : NetworkEngine :=
  match e.find id with
  | none => e
  | some peer =>
    let e := if peer.deadline.any (· ≤ now) then (e.onLink id (·.onTimer now)).touch id else e
    if peer.stateDeadline.any (· ≤ now) then e.touch id else e

def serviceTimers (e : NetworkEngine) (now : TimePoint) : NetworkEngine :=
  e.mPeers.keys.foldl (serviceTimer now) e

def tick (e : NetworkEngine) (now : TimePoint) : NetworkEngine :=
  let (lost, discovery) := e.mDiscovery.expire now fun id => e.mPeers.contains id
  lost.foldl (fun e id => { e.emit { kind := .peerLost, peer := id } with mPeersChanged := true })
    { e with mNextTick := some (now + BeaconInterval), mBeaconDue := true, mDiscovery := discovery }

def pausePeer (e : NetworkEngine) (id : PeerId) : NetworkEngine :=
  (e.onLink id (·.setPaused e.mPaused)).touch id

def updatePause (e : NetworkEngine) : NetworkEngine :=
  let waiting := e.world.backlog
  if (if e.mPaused then decide (waiting ≥ BacklogResumeBytes) else decide (waiting ≤ BacklogPauseBytes)) then e
  else e.mPeers.keys.foldl pausePeer { e with mPaused := !e.mPaused }

end NetLink.NetworkEngine
