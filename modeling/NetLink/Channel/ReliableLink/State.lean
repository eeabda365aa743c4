import Mathlib.Algebra.Order.Ring.Rat
import Mathlib.Logic.Function.Basic
import NetLink.Channel.AckRanges
import NetLink.Channel.MediaAssembler
import NetLink.Channel.RttEstimator
import NetLink.Channel.SequenceBuffer

/-! The state of a link: three acknowledged streams and the Media lane to one remote peer. The budget a
link shares with others is held as a copy, which its owner exchanges before and after every call. -/

namespace NetLink.Channel

structure OutboundMessage where
  tag : UInt32 := 0
  body : List UInt8
  deriving DecidableEq, Repr

structure DeliveredMessage where
  lane : Lane := .control
  tag : UInt32 := 0
  body : List UInt8
  deriving DecidableEq, Repr

structure LinkStats where
  dataSent : ℕ := 0
  retransmissions : ℕ := 0
  fastRetransmissions : ℕ := 0
  acksSent : ℕ := 0
  pingsSent : ℕ := 0
  duplicatesReceived : ℕ := 0
  staleDropped : ℕ := 0
  outOfWindowDropped : ℕ := 0
  delivered : ℕ := 0
  bytesSent : ℕ := 0
  bytesReceived : ℕ := 0
  mediaSent : ℕ := 0
  mediaReceived : ℕ := 0
  mediaReceivedByPeer : ℕ := 0
  timerWork : ℕ := 0
  deriving DecidableEq, Repr

structure InFlight where
  message : List UInt8
  offset : ℕ := 0
  length : ℕ := 0
  tag : UInt32 := 0
  totalLength : ℕ := 0
  fragIndex : ℕ := 0
  fragCount : ℕ := 1
  transmissions : ℕ := 0
  lost : Bool := false
  sentAt : TimePoint := 0
  transmission : ℕ := 0
  deriving DecidableEq, Repr

structure BufferedData where
  header : PacketHeader
  body : List UInt8
  deriving DecidableEq, Repr

structure FragmentCursor where
  message : OutboundMessage
  count : ℕ := 1
  next : ℕ := 0
  deriving DecidableEq, Repr

structure SentRecord where
  transmission : ℕ := 0
  seq : ℕ := 0
  lane : Lane := .control
  deriving DecidableEq, Repr

structure Stream where
  cursor : Option FragmentCursor := none
  inFlight : SequenceBuffer InFlight
  lost : List ℕ := []
  nextSendSeq : ℕ := 1
  sendBase : ℕ := 1
  onTheWire : ℕ := 0
  peerPaused : Bool := false
  ackSerial : Option ℕ := none
  probeAt : Option TimePoint := none
  probeInterval : ℤ := 0
  reorder : SequenceBuffer BufferedData
  nextExpected : ℕ := 1
  budgetPaused : Bool := false
  refusedLength : ℕ := 0
  assembler : MessageAssembler := {}

def StreamLanes : List Lane := [.control, .reliable, .bulk]
def StreamCount : ℕ := 3

def windowOf (lane : Lane) : ℕ :=
  if lane = .control then ControlWindow else if lane = .reliable then ReliableWindow else BulkWindow

def Stream.new (window : ℕ) : Stream := { inFlight := .new window, reorder := .new window }

def sharesCongestionWindow (lane : Lane) : Bool := lane == .reliable || lane == .bulk

def initialWindow (t : LinkTimings) : ℚ :=
  if t.fixedCwnd > 0 then t.fixedCwnd
  else if t.initialCwnd < MinCongestionWindow then MinCongestionWindow
  else if MaxCongestionWindow < t.initialCwnd then MaxCongestionWindow
  else t.initialCwnd

structure ReliableLink where
  mTimings : LinkTimings
  mLocalStreamID : UInt32
  mRemoteStreamID : Option UInt32 := none
  mRtt : RttEstimator
  mBudget : Option AssemblyBudget
  mStreams : Lane → Option Stream := fun _ => none
  mMediaCursor : Option FragmentCursor := none
  mNextMediaSeq : ℕ := 1
  mMediaAssembler : Option MediaAssembler := none
  mMediaReceived : ℕ := 0
  mSent : List SentRecord := []
  mTransmissions : ℕ := 0
  mLargestAcked : ℕ := 0
  mStalledSince : Option TimePoint := none
  mLastReceived : Option TimePoint := none
  mPingedAt : TimePoint := 0
  mTimeoutsInARow : ℕ := 0
  mCongestionWindow : ℚ
  mRecoveryStart : ℕ := 0
  mPaused : Bool := false
  mAckSerial : ℕ := 0
  mAckDue : Lane → Bool := fun _ => false
  mPingDue : Lane → Bool := fun _ => false
  mPendingAcks : List Packet := []
  mPeeked : Packet := { header := {} }
  mDelivered : List DeliveredMessage := []
  mFailed : Bool := false
  mStats : LinkStats := {}
  indexFault : Bool := false

namespace ReliableLink

def new (timings : LinkTimings) (localStreamID : UInt32) (budget : Option AssemblyBudget) :
    ReliableLink where
  mTimings := timings
  mLocalStreamID := localStreamID
  mRtt := .new timings.initialRto timings.minRto timings.maxRto
  mBudget := budget
  mCongestionWindow := initialWindow timings

def checkIndex (l : ReliableLink) (lane : Lane) : ReliableLink :=
  if lane.toNat < StreamCount then l else { l with indexFault := true }

def setStream (l : ReliableLink) (lane : Lane) (stream : Stream) : ReliableLink :=
  { l with mStreams := Function.update l.mStreams lane (some stream) }

def streamFor (l : ReliableLink) (lane : Lane) : Stream :=
  (l.mStreams lane).getD (.new (windowOf lane))

def dueAck (l : ReliableLink) (lane : Lane) : ReliableLink :=
  { l with mAckDue := Function.update l.mAckDue lane true }

def duePing (l : ReliableLink) (lane : Lane) : ReliableLink :=
  { l with mPingDue := Function.update l.mPingDue lane true }

def makeHeader (l : ReliableLink) (flags : PacketFlags) (seq : ℕ) : PacketHeader :=
  { flags := flags, srcStreamID := l.mLocalStreamID, dstStreamID := l.mRemoteStreamID.getD 0, seq := seq }

def hasPendingReliable (l : ReliableLink) : Bool :=
  StreamLanes.any fun lane => (l.mStreams lane).any fun s => !s.inFlight.isEmpty || s.cursor.isSome

def hasPending (l : ReliableLink) (lane : Lane) : Bool :=
  if lane = .media then l.mMediaCursor.isSome
  else (l.mStreams lane).any fun s => !s.inFlight.isEmpty || s.cursor.isSome

def congestionWindow (l : ReliableLink) : ℕ := l.mCongestionWindow.floor.toNat

def mediaIncomplete (l : ReliableLink) : ℕ := (l.mMediaAssembler.map (·.mAbandoned)).getD 0

def takeDelivered (l : ReliableLink) : List DeliveredMessage × ReliableLink :=
  (l.mDelivered, { l with mDelivered := [] })

def supervise (l : ReliableLink) (now : TimePoint) : ReliableLink :=
  { l with mLastReceived := some now, mPingedAt := now }

def updateProgressClock (l : ReliableLink) (now : TimePoint) (progress : Bool) : ReliableLink :=
  let waiting := StreamLanes.any fun lane =>
    (l.mStreams lane).any fun s => !s.peerPaused && !s.inFlight.isEmpty
  if !waiting then { l with mStalledSince := none }
  else if progress || l.mStalledSince.isNone then { l with mStalledSince := some now }
  else l

def releasedBudget (l : ReliableLink) : Option AssemblyBudget :=
  StreamLanes.foldl (fun budget lane =>
    match l.mStreams lane with
    | none => budget
    | some s => s.assembler.released budget) l.mBudget

def resetStreams (l : ReliableLink) : ReliableLink :=
  { l with
    mStreams := fun _ => none
    mBudget := l.releasedBudget
    mMediaCursor := none
    mMediaAssembler := none
    mNextMediaSeq := 1
    mMediaReceived := 0
    mRtt := l.mRtt.reset
    mSent := []
    mCongestionWindow := initialWindow l.mTimings
    mTransmissions := 0
    mLargestAcked := 0
    mRecoveryStart := 0
    mTimeoutsInARow := 0
    mStalledSince := none
    mPendingAcks := []
    mAckDue := fun _ => false
    mPingDue := fun _ => false }

def fail (l : ReliableLink) : ReliableLink :=
  { l.resetStreams with mLastReceived := none, mFailed := true }

end ReliableLink

end NetLink.Channel
