import Mathlib.Data.List.Destutter
import Mathlib.Data.List.Sort
import NetLink.Engine.Receiving

/-! Sending, and one round of the engine's loop. -/

namespace NetLink.NetworkEngine

open Net (SocketAddress SocketError)
open Channel (TimePoint ReliableLink Packet OutboundMessage MessageSource Mailbox SendScheduler)

def transmit (e : NetworkEngine) (address : SocketAddress) (packet : Packet) : Transmit × NetworkEngine :=
  match e.mIoSocket with
  | none => (.lost, e)
  | some here =>
    let answered := { e with world := { e.world with sends := e.world.sends.tail } }
    match e.world.sends with
    | none :: _ => (.sent, { answered with outbox := e.outbox ++ [⟨here, address, packet.bytes⟩] })
    -- A socket that was not asked to take more is full
    | [] | some .wouldBlock :: _ => (.refused, { answered with mSocketBlocked := true })
    | some error :: _ =>
      if error = .networkDown ∨ error = .addressNotAvailable ∨ error = .closed ∨ error = .notInitialized then
        (.refused, { answered with mSocketBlocked := true, mSocketFailed := true })
      else (.lost, answered)

/-- The loop of `sendAcks`: it ends within as many rounds as Acks and Pings are waiting or due. -/
def sendAcksLoop (id : PeerId) : ℕ → NetworkEngine → NetworkEngine
  | 0, e => e
  | n + 1, e =>
    match e.find id with
    | none => e
    | some peer =>
      match (e.lend peer).peekAck with
      | (none, link) => e.putLink id link
      | (some ack, link) =>
        let e := e.putLink id link
        let held := { e with mAcksHeldBack := e.mAcksHeldBack ++ [id] }
        if e.mSocketBlocked then held
        else
          match e.transmit peer.address ack with
          | (.refused, e) => { e with mAcksHeldBack := e.mAcksHeldBack ++ [id] }
          | (_, e) =>
            let e := e.onLink id (·.commitAck)
            sendAcksLoop id n { e with mScheduler := e.mScheduler.spend }

def sendAcks (e : NetworkEngine) (id : PeerId) : NetworkEngine :=
  match e.find id with
  | none => e
  | some peer => sendAcksLoop id (peer.link.mPendingAcks.length + 7) e

/-- `PeerSource::next`: session messages of the engine, and what the application queued. -/
def nextMessage (id : PeerId) : MessageSource NetworkEngine := fun e lane =>
  match e.find id with
  | none => (none, e)
  | some peer =>
    if lane = .control then
      (peer.control.head?, e.modifyPeer id fun peer => { peer with control := peer.control.tail })
    else if !peer.transfersData then (none, e)
    else
      let e := e.lock
      let (mail, mailbox) := e.mMailbox.take id lane
      (mail.map fun mail => { tag := mail.tag, body := mail.body }, { e with mMailbox := mailbox })

def peek (e : NetworkEngine) (id : PeerId) (lane : Channel.Lane) : Option Packet × NetworkEngine :=
  match e.find id with
  | none => (none, e)
  | some peer =>
    let (packet, link, e) := (e.lend peer).peek (nextMessage id) lane e
    (packet, e.putLink id link)

def setScheduled (e : NetworkEngine) (id : PeerId) (lane : Channel.Lane) (scheduled : Bool) : NetworkEngine :=
  e.modifyPeer id fun peer => { peer with scheduled := Function.update peer.scheduled lane scheduled }

def scheduleLane (id : PeerId) (e : NetworkEngine) (lane : Channel.Lane) : NetworkEngine :=
  if (e.find id).all (·.scheduled lane) then e
  else
    match e.peek id lane with
    | (none, e) => e
    | (some _, e) => { e with mScheduler := e.mScheduler.add lane id }.setScheduled id lane true

def schedule (e : NetworkEngine) (id : PeerId) : NetworkEngine :=
  SendScheduler.Order.foldl (scheduleLane id) e

def sendOne (now : TimePoint) (e : NetworkEngine) (lane : Channel.Lane) (id : PeerId) :
    SendScheduler.Result × NetworkEngine :=
  match e.find id with
  | none => (.empty, e)
  | some peer =>
    match e.peek id lane with
    | (none, e) => (.empty, e.setScheduled id lane false)
    | (some packet, e) =>
      match e.transmit peer.address packet with
      | (.refused, e) => (.blocked, e)
      | (outcome, e) =>
        let e := (e.onLink id (·.commit lane now)).modifyPeer id fun peer =>
          { peer with deadline := peer.link.nextDeadline }
        (if outcome = .sent then .sent else .lost, e)

-- Every answer but the last one uses up a send or a place in a ring
def sendData (e : NetworkEngine) (now : TimePoint) : NetworkEngine :=
  let fuel := e.world.sends.length + e.mScheduler.waiting + 1
  let (scheduler, e) := SendScheduler.run (sendOne now) fuel e.mScheduler e
  { e with mScheduler := scheduler }

def counted (now before : ℕ) : ℕ := (now + 2 ^ 64 - before) % 2 ^ 64

def Peer.noteMedia (peer : Peer) : Peer :=
  let stats := peer.link.mStats
  if stats.mediaReceivedByPeer = peer.mediaReceivedAtReport then peer
  else
    let sent : ℚ := counted stats.mediaSent peer.mediaSentAtReport
    let received : ℚ := counted stats.mediaReceivedByPeer peer.mediaReceivedAtReport
    { peer with
      mediaLoss := if sent > 0 then max 0 (min (1 - received / sent) 1) else peer.mediaLoss
      mediaSentAtReport := stats.mediaSent
      mediaReceivedAtReport := stats.mediaReceivedByPeer }

def Peer.stats (peer : Peer) : PeerStats where
  rtt := peer.link.mRtt.srtt
  bytesSent := peer.link.mStats.bytesSent
  bytesReceived := peer.link.mStats.bytesReceived
  retransmissions := peer.link.mStats.retransmissions
  mediaSent := peer.link.mStats.mediaSent
  mediaIncomplete := peer.link.mediaIncomplete
  mediaLoss := peer.mediaLoss

def publishStats (e : NetworkEngine) (id : PeerId) : NetworkEngine :=
  let e := e.modifyPeer id Peer.noteMedia
  match e.find id with
  | none => e
  | some peer => e.withMailbox (·.publishStats id peer.stats)

def serve (now : TimePoint) (e : NetworkEngine) (id : PeerId) : NetworkEngine :=
  if (e.find id).isNone then e
  else
    let e := (e.advance id now).sendAcks id
    if (e.find id).any (!·.ended) then e.schedule id else e

def settlePeer (e : NetworkEngine) (id : PeerId) : NetworkEngine :=
  match e.find id with
  | none => e
  | some peer =>
    if peer.ended then e
    else
      let e := e.modifyPeer id fun peer => { peer with deadline := peer.link.nextDeadline }
      let e := if peer.unsettled && !peer.link.hasPendingReliable then
          let (settled, e) := e.settle id
          e.modifyPeer id fun peer => { peer with unsettled := !settled }
        else e
      if peer.state = .connected then e.publishStats id else e

def eraseEnded (e : NetworkEngine) (id : PeerId) : NetworkEngine :=
  if (e.find id).any (·.ended) then e.erase id else e

def markReady (e : NetworkEngine) (id : PeerId) : NetworkEngine :=
  if (e.find id).isNone then e
  else (e.modifyPeer id fun peer => { peer with unsettled := true }).touch id

def takeBatch (e : NetworkEngine) : EventBatch × NetworkEngine :=
  ({ events := e.mEvents
     backlog := (e.mEvents.map fun event => if event.kind = .message then event.message.data.length else 0).sum },
    { e with mEvents := [] })

def earlier (a b : Option TimePoint) : Option TimePoint :=
  match a, b with
  | some a, some b => some (min a b)
  | some a, none => some a
  | none, b => b

def sortedUnique (ids : List PeerId) : List PeerId := (ids.insertionSort (· ≤ ·)).destutter (· ≠ ·)

def drainMailbox (e : NetworkEngine) : NetworkEngine :=
  let e := e.lock
  let (work, mailbox) := e.mMailbox.drain
  { e with mWork := work, mMailbox := mailbox }

/-- Until the commands: those whose acknowledgements were held back get their turn again. -/
def beginStep (e : NetworkEngine) (world : World) : NetworkEngine :=
  { e with
    world := world
    mSocketFailed := e.mSocketFailed || world.waitFailed
    mTouched := e.mAcksHeldBack
    mAcksHeldBack := [] }.drainMailbox

def applyCommands (e : NetworkEngine) (now : TimePoint) : NetworkEngine :=
  e.mWork.ready.foldl markReady (e.mWork.commands.foldl (apply now) e)

def tickDue (e : NetworkEngine) (now : TimePoint) : Bool := !e.mShutdown && e.mNextTick.all (· ≤ now)

def lookAtInterface (e : NetworkEngine) (tickDue : Bool) : NetworkEngine :=
  if !e.mShutdown && (tickDue || e.mCheckInterface || e.mSocketFailed) then
    { e with mSocketFailed := false }.updateInterface e.mSocketFailed
  else e

def announce (e : NetworkEngine) : NetworkEngine :=
  let announcing := { e with mBeaconDue := false }
  if e.mBeaconDue && e.mDiscovery.mAnnouncing && !e.mShutdown then
    announcing.sendBeacon ⟨e.mDiscovery.broadcastAddress, e.mConfig.discoveryPort⟩ false
  else announcing

def collect (e : NetworkEngine) (world : World) (now : TimePoint) : NetworkEngine :=
  let e := (e.beginStep world).applyCommands now
  let due := e.tickDue now
  let e := (((e.lookAtInterface due).updatePause).receivePending now).serviceTimers now
  let e := (if due then e.tick now else e).announce
  { e with
    mTouched := sortedUnique e.mTouched
    mScheduler := e.mScheduler.refill now
    mSocketBlocked := false }

def serveTouched (e : NetworkEngine) (now : TimePoint) : NetworkEngine :=
  let e := e.mTouched.foldl (serve now) e
  if e.mSocketBlocked then e else e.sendData now

def settleTouched (e : NetworkEngine) : NetworkEngine :=
  let e := e.mTouched.foldl settlePeer e
  e.mEnded.foldl eraseEnded { e with mEnded := [] }

def finishStep (e : NetworkEngine) (now : TimePoint) : NetworkEngine :=
  let e := if e.mPeersChanged then
      { e with mPeersChanged := false }.withMailbox (·.publishDiscovered e.mDiscovery.peers)
    else e
  let wake := e.mPeers.values.foldl (fun wake peer => earlier (earlier wake peer.deadline) peer.stateDeadline)
    (if e.mShutdown then none else e.mNextTick)
  let waiting := e.mSocketBlocked || e.mScheduler.hasBacklog || !e.mAcksHeldBack.isEmpty
  { e with
    mWaitingForTick := waiting
    mNextWake := if waiting || e.mSocketFailed then earlier wake (some (now + SendScheduler.Tick)) else wake }

def round (e : NetworkEngine) (world : World) (now : TimePoint) : NetworkEngine :=
  (((e.collect world now).serveTouched now).settleTouched).finishStep now

def step (e : NetworkEngine) (world : World) (now : TimePoint) : EventBatch × NetworkEngine :=
  (e.round world now).takeBatch

end NetLink.NetworkEngine
