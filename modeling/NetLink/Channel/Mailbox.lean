import Mathlib.Tactic.Linarith
import NetLink.Channel.ReliableLink.State
import NetLink.Types

/-! The state application threads and the I/O thread of an engine share. Every function is one critical
section of the source. The `log` of a peer is a record for the proofs: nothing reads it. -/

namespace NetLink.Channel

open Std (TreeMap)

structure Mail where
  tag : UInt32 := 0
  body : List UInt8
  deriving DecidableEq, Repr

namespace Mailbox

inductive Push
  | queued | full | tooLarge | closed | stopped
  deriving DecidableEq, Repr

inductive Command
  | connect | accept | decline | disconnect | announce | stopAnnouncing | checkInterface | resumeReceiving
  | shutdown
  deriving DecidableEq, Repr

inductive Session
  | none | requested | pending | connected
  deriving DecidableEq, Repr

structure PostedCommand where
  command : Command
  peer : PeerId := 0
  deriving DecidableEq, Repr

structure Work where
  commands : List PostedCommand := []
  ready : List PeerId := []
  deriving DecidableEq, Repr

structure LaneQueue where
  queue : List Mail := []
  bytes : ℕ := 0
  deriving DecidableEq, Repr

structure Peer where
  lanes : Lane → LaneQueue := fun _ => {}
  accepted : ℕ := 0
  done : ℕ := 0
  epoch : ℕ := 0
  mediaDropped : ℕ := 0
  listed : Bool := false
  isSealed : Bool := false
  stats : PeerStats := {}
  log : List (Lane × Mail) := []

end Mailbox

structure Mailbox where
  mQueueBytes : ℕ := DefaultSendQueueBytes
  mPeers : TreeMap PeerId Mailbox.Peer := ∅
  mCommands : List Mailbox.PostedCommand := []
  mReady : List PeerId := []
  mEpochs : ℕ := 0
  mSignalled : Bool := false
  mRunning : Bool := true
  mDiscovered : List PeerInfo := []
  mSessions : TreeMap PeerId Mailbox.Session := ∅

namespace Mailbox

def Peer.setLane (p : Peer) (lane : Lane) (queue : LaneQueue) : Peer :=
  { p with lanes := Function.update p.lanes lane queue }

def Peer.hasRoom (p : Peer) (lane : Lane) (size queueBytes : ℕ) : Bool :=
  (p.lanes lane).queue.isEmpty || (p.lanes lane).bytes + size ≤ queueBytes

/-! Any thread. The second component of a result says whether the doorbell is rung. -/

def setRunning (m : Mailbox) (running : Bool) : Mailbox := { m with mRunning := running }

def post (m : Mailbox) (command : Command) (peer : PeerId) : Bool × Mailbox :=
  (!m.mSignalled, { m with mCommands := m.mCommands ++ [⟨command, peer⟩], mSignalled := true })

-- The oldest Media message makes room
def LaneQueue.makeRoom (q : LaneQueue) : LaneQueue :=
  match q.queue with
  | [] => q
  | mail :: rest => { queue := rest, bytes := q.bytes - mail.body.length }

def Peer.enqueue (p : Peer) (lane : Lane) (mail : Mail) : Peer :=
  let q := p.lanes lane
  let full := lane == .media && q.queue.length ≥ MediaQueueMessages
  let q := if full then q.makeRoom else q
  { p.setLane lane { queue := q.queue ++ [mail], bytes := q.bytes + mail.body.length } with
    mediaDropped := if full then p.mediaDropped + 1 else p.mediaDropped
    accepted := if lane = .media then p.accepted else p.accepted + 1
    listed := true
    log := p.log ++ [(lane, mail)] }

def enqueue (m : Mailbox) (id : PeerId) (peer : Peer) (lane : Lane) (mail : Mail) : Bool × Mailbox :=
  (!m.mSignalled,
    { m with
      mPeers := m.mPeers.insert id (peer.enqueue lane mail)
      mReady := if peer.listed then m.mReady else m.mReady ++ [id]
      mSignalled := true })

def push (m : Mailbox) (id : PeerId) (lane : Lane) (mail : Mail) : Push × Bool × Mailbox :=
  if mail.body.length > maxMessageSize lane then (.tooLarge, false, m)
  else if !m.mRunning then (.stopped, false, m)
  else
    match m.mPeers[id]? with
    | none => (.closed, false, m)
    | some peer =>
      if peer.isSealed then (.closed, false, m)
      else if lane != .media && !peer.hasRoom lane mail.body.length m.mQueueBytes then (.full, false, m)
      else (.queued, m.enqueue id peer lane mail)

structure Waiting where
  peer : PeerId
  lane : Lane
  mail : Mail
  epoch : ℕ
  deriving DecidableEq, Repr

/-- The first section of a push with a timeout: it waits where it would find the lane full. -/
def pushOrWait (m : Mailbox) (id : PeerId) (lane : Lane) (mail : Mail) : Option Waiting × Push × Bool × Mailbox :=
  let (result, ring, box) := m.push id lane mail
  let waiting := if result = .full then (m.mPeers[id]?).map fun peer => ⟨id, lane, mail, peer.epoch⟩ else none
  (waiting, result, ring, box)

/-- The last section of a push that waited, whatever ended the wait. -/
def resume (m : Mailbox) (w : Waiting) : Push × Bool × Mailbox :=
  match m.mPeers[w.peer]? with
  | none => (.closed, false, m)
  | some peer =>
    if peer.epoch ≠ w.epoch || peer.isSealed then (.closed, false, m)
    else if !m.mRunning then (.stopped, false, m)
    else if !peer.hasRoom w.lane w.mail.body.length m.mQueueBytes then (.full, false, m)
    else (.queued, m.enqueue w.peer peer w.lane w.mail)

def pushOne (lane : Lane) (mail : Mail) (acc : ℕ × Bool × Mailbox) (id : PeerId) : ℕ × Bool × Mailbox :=
  let (taken, ring, m) := acc
  match m.mPeers[id]? with
  | none => acc
  | some peer =>
    let q := peer.lanes lane
    if peer.isSealed || (lane != .media && !q.queue.isEmpty && q.bytes + mail.body.length > m.mQueueBytes) then acc
    else
      let (rings, m) := m.enqueue id peer lane mail
      (taken + 1, ring || rings, m)

def pushToAll (m : Mailbox) (lane : Lane) (mail : Mail) : ℕ × Bool × Mailbox :=
  if mail.body.length > maxMessageSize lane || !m.mRunning then (0, false, m)
  else m.mPeers.keys.foldl (pushOne lane mail) (0, false, m)

def sealPeer (m : Mailbox) (id : PeerId) : Mailbox :=
  match m.mPeers[id]? with
  | none => m
  | some peer =>
    { m with
      mPeers := m.mPeers.insert id { peer.setLane .media {} with isSealed := true }
      mSessions := m.mSessions.insert id .pending }

/-! The I/O thread. -/

def drain (m : Mailbox) : Work × Mailbox :=
  ({ commands := m.mCommands, ready := m.mReady },
    { m with
      mCommands := []
      mReady := []
      mPeers := m.mReady.foldl (fun peers id => peers.modify id fun p => { p with listed := false }) m.mPeers
      mSignalled := false })

def take (m : Mailbox) (id : PeerId) (lane : Lane) : Option Mail × Mailbox :=
  match m.mPeers[id]? with
  | none => (none, m)
  | some peer =>
    match (peer.lanes lane).queue with
    | [] => (none, m)
    | mail :: rest =>
      let q : LaneQueue := { queue := rest, bytes := (peer.lanes lane).bytes - mail.body.length }
      (some mail, { m with mPeers := m.mPeers.insert id (peer.setLane lane q) })

def settle (m : Mailbox) (id : PeerId) : Bool × Mailbox :=
  match m.mPeers[id]? with
  | none => (true, m)
  | some peer =>
    if !(peer.lanes .reliable).queue.isEmpty || !(peer.lanes .bulk).queue.isEmpty then (false, m)
    else (true, { m with mPeers := m.mPeers.insert id { peer with done := peer.accepted } })

def openPeer (m : Mailbox) (id : PeerId) : Mailbox :=
  { m with
    mEpochs := m.mEpochs + 1
    mPeers := m.mPeers.insert id { epoch := m.mEpochs + 1 }
    mSessions := m.mSessions.insert id .connected }

def close (m : Mailbox) (id : PeerId) : Mailbox :=
  { m with
    mPeers := m.mPeers.erase id
    mSessions := m.mSessions.erase id
    mReady := m.mReady.filter (· != id) }

def publishSession (m : Mailbox) (id : PeerId) (session : Session) : Mailbox :=
  { m with mSessions := m.mSessions.insert id session }

def publishDiscovered (m : Mailbox) (peers : List PeerInfo) : Mailbox := { m with mDiscovered := peers }

def publishStats (m : Mailbox) (id : PeerId) (stats : PeerStats) : Mailbox :=
  { m with mPeers := m.mPeers.modify id fun p => { p with stats := stats } }

def wireLane : NetLink.Lane → Lane
  | .reliable => .reliable
  | .bulk => .bulk
  | .media => .media

inductive Call
  | post (command : Command) (peer : PeerId)
  | push (peer : PeerId) (lane : NetLink.Lane) (mail : Mail)
  | pushToAll (lane : NetLink.Lane) (mail : Mail)
  | sealPeer (peer : PeerId)
  deriving DecidableEq, Repr

def call (m : Mailbox) : Call → Mailbox
  | .post command peer => (m.post command peer).2
  | .push peer lane mail => (m.push peer (wireLane lane) mail).2.2
  | .pushToAll lane mail => (m.pushToAll (wireLane lane) mail).2.2
  | .sealPeer peer => m.sealPeer peer

end Mailbox

end NetLink.Channel
