import NetLink.Engine.State

/-! What an engine does with the records of its sessions. -/

namespace NetLink.NetworkEngine

open Net (Text SocketAddress)
open Channel (TimePoint ReliableLink OutboundMessage DeliveredMessage Mailbox MediaQueueMessages)
open Session (ControlType)

def publicLane (lane : Channel.Lane) : Lane :=
  if lane = .bulk then .bulk else if lane = .media then .media else .reliable

def Peer.transfersData (peer : Peer) : Bool :=
  peer.state == .connected || (peer.state == .closing && !peer.closeSent)

def controlMessage (type : ControlType) (body : List UInt8) : OutboundMessage := { tag := type.tag, body := body }

def report (e : NetworkEngine) (id : PeerId) (reason : DisconnectReason) : NetworkEngine :=
  match e.find id with
  | none => e
  | some peer =>
    if !peer.announced || peer.reported then e
    else
      (e.modifyPeer id fun peer => { peer with reported := true }).emit
        { kind := .disconnected, peer := id, reason := reason }

def endPeer (e : NetworkEngine) (id : PeerId) : NetworkEngine :=
  match e.find id with
  | none => e
  | some peer =>
    if peer.ended then e
    else
      let e := (e.modifyPeer id fun peer => { peer with ended := true }).withMailbox (·.close id)
      { e with mEnded := e.mEnded ++ [id] }

def erase (e : NetworkEngine) (id : PeerId) : NetworkEngine :=
  match e.find id with
  | none => e
  | some peer =>
    let e := { e with
      mByStream := e.mByStream.erase peer.link.mLocalStreamID
      mScheduler := e.mScheduler.remove id }.withMailbox (·.close id)
    -- With its link, everything the peer had reserved is released
    { e with
      mPeers := e.mPeers.erase id
      mAssemblyBudget := (e.lend peer).releasedBudget.getD e.mAssemblyBudget }

/-- What `makeStreamID` is asked for until it returns an ID that is not in use. Where the draws of the step end,
any free ID takes their place. -/
def drawStreamID (e : NetworkEngine) : UInt32 × List UInt32 :=
  let taken := fun id : UInt32 => id == 0 || e.mByStream.contains id
  let others := (List.range (e.mByStream.size + 1)).map fun n => UInt32.ofNat (n + 1)
  match e.world.streamIDs.dropWhile taken with
  | id :: rest => (id, rest)
  | [] => (((others.dropWhile taken).head?).getD 1, [])

-- The callers made sure that there is no record under the ID
def addPeer (e : NetworkEngine) (info : PeerInfo) (address : SocketAddress) (byHello : Bool) (now : TimePoint) :
    NetworkEngine :=
  let (streamID, draws) := e.drawStreamID
  let link := ReliableLink.new e.mConfig.timings streamID (some e.mAssemblyBudget)
  { e with
    mPeers := e.mPeers.insert info.id
      { info := info, address := address, link := (link.supervise now).setPaused e.mPaused }
    mByStream := e.mByStream.insert streamID info.id
    world := { e.world with streamIDs := draws } }.touch info.id
    |>.record (.opened info.id streamID byHello)

def setConnected (e : NetworkEngine) (id : PeerId) : NetworkEngine :=
  match e.find id with
  | none => e
  | some peer =>
    ((e.modifyPeer id fun peer =>
      { peer with state := .connected, announced := true, stateDeadline := none }).withMailbox
      (·.openPeer id)).emit { kind := .connected, peer := id, info := peer.info }

def sendAccept (e : NetworkEngine) (id : PeerId) : NetworkEngine :=
  let body := ({ name := e.mDiscovery.mIdentity.name } : Session.Accept).encode
  let e := e.modifyPeer id fun peer => { peer with
    control := peer.control ++ [controlMessage .accept body]
    state := .connecting
    acceptSent := true
    stateDeadline := none }
  ((e.withMailbox (·.publishSession id .pending)).touch id).record (.acceptQueued id)

def sendDecline (e : NetworkEngine) (id : PeerId) (now : TimePoint) : NetworkEngine :=
  let body := ({ reason := .declined } : Session.Decline).encode
  let e := e.modifyPeer id fun peer => { peer with control := peer.control ++ [controlMessage .decline body] }
  let e := (e.report id .localEnd).modifyPeer id fun peer => { peer with
    state := .closing
    closeSent := true
    stateDeadline := some (now + CloseLinger) }
  (e.withMailbox (·.close id)).touch id

def sendClose (e : NetworkEngine) (id : PeerId) (now : TimePoint) : NetworkEngine :=
  let e := e.withMailbox (·.close id)
  -- A remote that never answered does not know this link
  if (e.find id).all (·.link.mRemoteStreamID.isNone) then e.endPeer id
  else
    (e.modifyPeer id fun peer => { peer with
      control := peer.control ++ [controlMessage .close (Session.encodeClose 0)]
      state := .closing
      closeSent := true
      stateDeadline := some (now + CloseLinger) }).touch id

def onControl (e : NetworkEngine) (id : PeerId) (message : DeliveredMessage) : NetworkEngine :=
  match e.find id with
  | none => e
  | some peer =>
    if peer.ended then e
    else
      match ControlType.ofTag message.tag with
      | none | some .hello => e
      | some .accept =>
        if peer.state = .connecting ∧ peer.initiator then
          let name := ((Session.decodeAccept message.body).map (·.name)).getD []
          let e := if name.isEmpty || name.length > MaxDisplayName then e
            else e.modifyPeer id fun peer => { peer with info := { peer.info with displayName := name } }
          e.setConnected id
        else e
      | some .decline =>
        if peer.state = .connecting ∧ peer.initiator then
          let incompatible := (Session.decodeDecline message.body).any (·.reason == .incompatible)
          (e.report id (if incompatible then .incompatible else .declined)).endPeer id
        else e
      | some .close => (e.report id .remoteEnd).endPeer id

def pushMedia (e : NetworkEngine) (id : PeerId) (message : DeliveredMessage) : NetworkEngine :=
  let e := e.modifyPeer id fun peer =>
    let waiting := (peer.media.getD []).drop (e.world.mediaTaken.headD 0)
    let waiting := if waiting.length ≥ MediaQueueMessages then waiting.drop 1 else waiting
    { peer with media := some (waiting ++ [{ type := message.tag, data := message.body }]) }
  { e with world := { e.world with mediaTaken := e.world.mediaTaken.tail } }

def deliver (e : NetworkEngine) (id : PeerId) (message : DeliveredMessage) : NetworkEngine :=
  if message.lane = .control then e.onControl id message
  else if (e.find id).all fun peer => peer.ended || peer.reported || !peer.transfersData then e
  else if message.lane = .media then
    (e.pushMedia id message).emit { kind := .message, peer := id, lane := publicLane message.lane, media := true }
  else
    e.emit {
      kind := .message
      peer := id
      lane := publicLane message.lane
      message := { type := message.tag, data := message.body } }

def finishClosing (e : NetworkEngine) (id : PeerId) (peer : Peer) (now : TimePoint) (expired : Bool) :
    NetworkEngine :=
  let (settled, e) :=
    if expired then (true, e)
    else if peer.link.hasPending .reliable || peer.link.hasPending .bulk then (false, e)
    else e.settle id
  if settled then (e.report id .localEnd).sendClose id now else e

/-- The second half of `advance`: what the state of the session asks for. -/
def advanceState (e : NetworkEngine) (id : PeerId) (now : TimePoint) : NetworkEngine :=
  match e.find id with
  | none => e
  | some peer =>
    let controlSettled := peer.control.isEmpty && !peer.link.hasPending .control
    let expired := peer.stateDeadline.any (· ≤ now)
    if peer.ended then e
    else
      match peer.state with
      | .connecting => if !peer.initiator && peer.acceptSent && controlSettled then e.setConnected id else e
      | .awaitingDecision => if expired then e.sendDecline id now else e
      | .connected => e
      | .closing =>
        if peer.closeSent then (if controlSettled || expired then e.endPeer id else e)
        else e.finishClosing id peer now expired

def advance (e : NetworkEngine) (id : PeerId) (now : TimePoint) : NetworkEngine :=
  match e.find id with
  | none => e
  | some peer =>
    if peer.ended then e
    else if peer.link.mFailed then (e.report id .lost).endPeer id
    else
      let (delivered, link) := (e.lend peer).takeDelivered
      (delivered.foldl (fun e message => e.deliver id message) (e.putLink id link)).advanceState id now

def endSession (e : NetworkEngine) (id : PeerId) (now : TimePoint) : NetworkEngine :=
  match e.find id with
  | none => e
  | some peer =>
    match peer.state with
    | .connected =>
      (e.modifyPeer id fun peer => { peer with
        state := .closing
        stateDeadline := some (now + DrainTimeout) }).touch id
    | .awaitingDecision => e.sendDecline id now
    | .connecting => (e.report id .localEnd).sendClose id now
    | .closing => e

def hello (e : NetworkEngine) (id : PeerId) : Session.Hello where
  fromInstance := e.mId
  toInstance := id
  appIdHash := e.mDiscovery.mIdentity.appIdHash
  verMajor := e.mDiscovery.mIdentity.version.verMajor
  verMinor := e.mDiscovery.mIdentity.version.verMinor
  name := e.mDiscovery.mIdentity.name

def openSession (e : NetworkEngine) (id : PeerId) (now : TimePoint) : NetworkEngine :=
  match e.mDiscovery.find id with
  | none => (e.record (.refused id)).emit { kind := .disconnected, peer := id, reason := .lost }
  | some known =>
    if e.mIoSocket.isNone ∨ e.mPeers.size ≥ MaxPeers then
      (e.record (.refused id)).emit { kind := .disconnected, peer := id, reason := .localEnd }
    else
      let opened := (e.addPeer known.info known.endpoint false now).modifyPeer known.info.id
        fun peer => { peer with
        initiator := true
        announced := true
        control := peer.control ++ [controlMessage .hello (e.hello id).encode] }
      opened.withMailbox (·.publishSession id .pending)

def startSession (e : NetworkEngine) (id : PeerId) (now : TimePoint) : NetworkEngine :=
  if e.mShutdown then e
  else
    match e.find id with
    | none => e.openSession id now
    | some existing =>
      if existing.state = .awaitingDecision then e.sendAccept id
      else if existing.state ≠ .closing ∨ !existing.closeSent then e
      else (e.erase id).openSession id now

def shutdownPeer (now : TimePoint) (e : NetworkEngine) (id : PeerId) : NetworkEngine :=
  let e := e.report id .shutdown
  match e.find id with
  | none => e
  | some peer =>
    if peer.state = .awaitingDecision then e.sendDecline id now
    else if !peer.closeSent then e.sendClose id now
    else e

def beginShutdown (e : NetworkEngine) (now : TimePoint) : NetworkEngine :=
  if e.mShutdown then e
  else
    let e := { e with mShutdown := true, mDiscovery := e.mDiscovery.setAnnouncing false }
    (e.mPeers.keys.foldl (shutdownPeer now) e).withMailbox (·.setRunning false)

def apply (now : TimePoint) (e : NetworkEngine) (command : Mailbox.PostedCommand) : NetworkEngine :=
  let id := command.peer
  let e := e.record (.applied command.command id)
  match command.command with
  | .connect => e.startSession id now
  | .accept => if (e.find id).any (·.state == .awaitingDecision) then e.sendAccept id else e
  | .decline => if (e.find id).any (·.state == .awaitingDecision) then e.sendDecline id now else e
  | .disconnect => e.endSession id now
  | .announce => { e with mDiscovery := e.mDiscovery.setAnnouncing true, mBeaconDue := true }
  | .stopAnnouncing => { e with mDiscovery := e.mDiscovery.setAnnouncing false }
  | .checkInterface => { e with mCheckInterface := true }
  | .resumeReceiving => e
  | .shutdown => e.beginShutdown now

end NetLink.NetworkEngine
