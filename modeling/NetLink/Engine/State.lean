import NetLink.Channel.Mailbox
import NetLink.Channel.ReliableLink.Timers
import NetLink.Channel.SendScheduler
import NetLink.Discovery.DiscoveryLogic

/-! The state of an engine. What its surroundings answer during a step (sockets, the adapter, other threads,
the random generator) is given to the step as a `World`. Five fields are a record for the proofs and nothing
reads them: the `history` of the session layer, the `outbox` of everything the socket took, the `moments` at
which another thread could look at the mailbox, the `emissions` of events, and the packets the link of a record
`heard`. A reference to a record of the source is passed as its key. -/

namespace NetLink

open Std (TreeMap)
open Net (Text IPv4Address SocketAddress SocketError)
open Channel (TimePoint LinkTimings ReliableLink OutboundMessage Packet AssemblyBudget Mailbox
  SendScheduler fromMillis)
open Discovery (DiscoveryLogic)

def BeaconInterval : ℤ := fromMillis 2000
def DecisionTimeout : ℤ := fromMillis 30000
def DrainTimeout : ℤ := fromMillis 1000
def CloseLinger : ℤ := fromMillis 250
def MaxPendingSessions : ℕ := 64
def MaxDatagramsPerPass : ℕ := 256

def Version : Text := [48, 46, 54, 46, 48, 46, 48]

structure LocalInterface where
  ip : IPv4Address := {}
  mask : IPv4Address := {}
  deriving DecidableEq, Repr

structure EngineConfig where
  displayName : Text := []
  appId : Text := []
  appVersion : Text := []
  discoveryPort : UInt16 := 5555
  sendQueueBytes : ℕ := Channel.DefaultSendQueueBytes
  maxSendRate : ℕ := Channel.DefaultMaxSendRate
  timings : LinkTimings := {}
  autoAccept : Bool := true
  instanceId : UInt64 := 0

def EngineConfig.completed (config : EngineConfig) : EngineConfig :=
  { config with
    displayName := config.displayName.take MaxDisplayName
    appVersion := if config.appVersion.isEmpty then Version else config.appVersion }

inductive EngineEvent.Kind
  | peerDiscovered | peerLost | connectionRequest | connected | disconnected | message | adapterChanged
  deriving DecidableEq, Repr

structure EngineEvent where
  kind : EngineEvent.Kind := .message
  peer : PeerId := 0
  info : PeerInfo := {}
  reason : DisconnectReason := .localEnd
  lane : Lane := .reliable
  message : Message := {}
  media : Bool := false
  deriving DecidableEq, Repr

structure EventBatch where
  events : List EngineEvent := []
  backlog : ℕ := 0
  deriving DecidableEq, Repr

namespace NetworkEngine

inductive PeerState
  | connecting | awaitingDecision | connected | closing
  deriving DecidableEq, Repr

structure Peer where
  info : PeerInfo
  address : SocketAddress
  state : PeerState := .connecting
  link : ReliableLink
  control : List OutboundMessage := []
  deadline : Option TimePoint := none
  stateDeadline : Option TimePoint := none
  initiator : Bool := false
  acceptSent : Bool := false
  closeSent : Bool := false
  announced : Bool := false
  reported : Bool := false
  ended : Bool := false
  unsettled : Bool := false
  scheduled : Channel.Lane → Bool := fun _ => false
  media : Option (List Message) := none
  mediaSentAtReport : ℕ := 0
  mediaReceivedAtReport : ℕ := 0
  mediaLoss : ℚ := 0
  heard : List Packet := []

inductive Received
  | datagram (origin : SocketAddress) (bytes : List UInt8)
  | failed (error : SocketError)
  deriving DecidableEq, Repr

structure World where
  /-- What application threads do before each use the I/O thread makes of the mailbox. -/
  calls : List (List Mailbox.Call) := []
  localInterface : Option LocalInterface := none
  sockets : List (Option SocketAddress) := []
  streamIDs : List UInt32 := []
  sends : List (Option SocketError) := []
  channel : List Received := []
  beacons : List Received := []
  backlog : ℕ := 0
  /-- How many Media messages the event thread took from an inbox since the engine looked at it last. -/
  mediaTaken : List ℕ := []
  /-- The wait before the step failed for another reason than a timeout. -/
  waitFailed : Bool := false
  deriving DecidableEq, Repr

structure Sent where
  origin : SocketAddress
  destination : SocketAddress
  bytes : List UInt8
  deriving DecidableEq, Repr

inductive Mark
  | applied (command : Mailbox.Command) (peer : PeerId)
  | opened (peer : PeerId) (localStreamID : UInt32) (byHello : Bool)
  | refused (peer : PeerId)
  | acceptQueued (peer : PeerId)
  | emitted (event : EngineEvent)
  deriving DecidableEq, Repr

inductive Transmit
  | sent | lost | refused
  deriving DecidableEq, Repr

structure Moment where
  peers : TreeMap PeerId Peer
  mailbox : Mailbox

structure Emission where
  event : EngineEvent
  peers : TreeMap PeerId Peer

end NetworkEngine

open NetworkEngine in
structure NetworkEngine where
  mConfig : EngineConfig
  mId : PeerId
  mDiscovery : DiscoveryLogic
  mScheduler : SendScheduler
  mMailbox : Mailbox
  mIoSocket : Option SocketAddress := none
  mBeaconSocket : Bool := false
  mInterface : Option LocalInterface := none
  mPeers : TreeMap PeerId Peer := ∅
  mByStream : TreeMap UInt32 PeerId := ∅
  mAssemblyBudget : AssemblyBudget := {}
  mEvents : List EngineEvent := []
  mPaused : Bool := false
  mShutdown : Bool := false
  mCheckInterface : Bool := true
  mBeaconDue : Bool := false
  mPeersChanged : Bool := false
  mNextTick : Option TimePoint := none
  mNextWake : Option TimePoint := none
  mTouched : List PeerId := []
  mAcksHeldBack : List PeerId := []
  mEnded : List PeerId := []
  mSocketBlocked : Bool := false
  mSocketFailed : Bool := false
  mWaitingForTick : Bool := false
  mWork : Mailbox.Work := {}
  world : World := {}
  history : List Mark := []
  outbox : List Sent := []
  moments : List Moment := []
  emissions : List Emission := []

namespace NetworkEngine

/-- `drawn` is what `makeInstanceId` returned. -/
def new (config : EngineConfig) (drawn : UInt64) : NetworkEngine :=
  let config := config.completed
  let id := if config.instanceId ≠ 0 then config.instanceId else drawn
  { mConfig := config
    mId := id
    mDiscovery := { mIdentity := {
      instanceId := id
      appIdHash := Discovery.hashAppId config.appId
      version := Discovery.parseAppVersion config.appVersion
      name := config.displayName } }
    mScheduler := .new config.maxSendRate
    mMailbox := { mQueueBytes := config.sendQueueBytes } }

def touch (e : NetworkEngine) (id : PeerId) : NetworkEngine := { e with mTouched := e.mTouched ++ [id] }

def record (e : NetworkEngine) (mark : Mark) : NetworkEngine := { e with history := e.history ++ [mark] }

def emit (e : NetworkEngine) (event : EngineEvent) : NetworkEngine :=
  { e.record (.emitted event) with
    mEvents := e.mEvents ++ [event]
    emissions := e.emissions ++ [⟨event, e.mPeers⟩] }

def find (e : NetworkEngine) (id : PeerId) : Option Peer := e.mPeers[id]?

def modifyPeer (e : NetworkEngine) (id : PeerId) (f : Peer → Peer) : NetworkEngine :=
  { e with mPeers := e.mPeers.modify id f }

/-- Another thread may have used the mailbox since the I/O thread last held its mutex. -/
def lock (e : NetworkEngine) : NetworkEngine :=
  let calls := e.world.calls.headD []
  { e with
    mMailbox := calls.foldl Mailbox.call e.mMailbox
    world := { e.world with calls := e.world.calls.tail }
    moments := e.moments ++ calls.inits.map fun made => ⟨e.mPeers, made.foldl Mailbox.call e.mMailbox⟩ }

def withMailbox (e : NetworkEngine) (f : Mailbox → Mailbox) : NetworkEngine :=
  let e := e.lock
  { e with mMailbox := f e.mMailbox }

def settle (e : NetworkEngine) (id : PeerId) : Bool × NetworkEngine :=
  let e := e.lock
  let (settled, mailbox) := e.mMailbox.settle id
  (settled, { e with mMailbox := mailbox })

def lend (e : NetworkEngine) (peer : Peer) : ReliableLink :=
  { peer.link with mBudget := some e.mAssemblyBudget }

def putLink (e : NetworkEngine) (id : PeerId) (link : ReliableLink) : NetworkEngine :=
  { e.modifyPeer id fun peer => { peer with link := link } with
    mAssemblyBudget := link.mBudget.getD e.mAssemblyBudget }

def onLink (e : NetworkEngine) (id : PeerId) (f : ReliableLink → ReliableLink) : NetworkEngine :=
  match e.find id with
  | none => e
  | some peer => e.putLink id (f (e.lend peer))

end NetworkEngine

end NetLink
