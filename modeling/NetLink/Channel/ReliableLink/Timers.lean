import NetLink.Channel.ReliableLink.Sending

/-! Acknowledgements, losses, congestion and timers of a link. -/

namespace NetLink.Channel

def interval (a b : ℕ) : List ℕ := List.range' a (b + 1 - a)

def Stream.ackedSeqs (s : Stream) (header : PacketHeader) (ack : AckBody) : List ℕ :=
  let lastSent := s.nextSendSeq - 1
  interval s.sendBase (min header.seq lastSent) ++
    ack.ranges.flatMap fun range =>
      if range.first > lastSent then []
      else interval (max range.first s.sendBase) (min range.last lastSent)

def Stream.released (s : Stream) (inFlight : SequenceBuffer InFlight) (entry : InFlight) : Stream :=
  { s with
    inFlight := inFlight
    onTheWire := if entry.lost then s.onTheWire else s.onTheWire - 1 }

def Stream.givenUp (s : Stream) (seq : ℕ) (entry : InFlight) : Stream :=
  { s with
    inFlight := s.inFlight.assign seq { entry with lost := true }
    onTheWire := s.onTheWire - 1
    lost := s.lost ++ [seq] }

structure AckScan where
  stream : Stream
  largestAcked : ℕ
  acked : ℕ := 0
  counted : ℕ := 0
  sampleSentAt : Option TimePoint := none

def AckScan.release (recoveryStart : ℕ) (scan : AckScan) (seq : ℕ) : AckScan :=
  match scan.stream.inFlight.take seq with
  | (none, _) => scan
  | (some entry, inFlight) =>
    { stream := scan.stream.released inFlight entry
      largestAcked := max scan.largestAcked entry.transmission
      acked := scan.acked + 1
      counted := scan.counted + (if entry.transmission > recoveryStart then 1 else 0)
      sampleSentAt :=
        if entry.transmissions = 1 ∧ scan.sampleSentAt.all (· < entry.sentAt) then some entry.sentAt
        else scan.sampleSentAt }

def advanceBase (inFlight : SequenceBuffer InFlight) : ℕ → ℕ → ℕ
  | 0, base => base
  | n + 1, base => if inFlight.contains base then base else advanceBase inFlight n (base + 1)

def Stream.acknowledge (s : Stream) (header : PacketHeader) (ack : AckBody) (recoveryStart largestAcked : ℕ) :
    AckScan :=
  let scan := (s.ackedSeqs header ack).foldl (AckScan.release recoveryStart)
    { stream := s, largestAcked := largestAcked }
  let base := advanceBase scan.stream.inFlight (scan.stream.nextSendSeq - scan.stream.sendBase)
    scan.stream.sendBase
  { scan with stream := { scan.stream with sendBase := base } }

def isLaterSerial (serial than : ℕ) : Bool :=
  let d := (serial + 2 ^ 32 - than) % 2 ^ 32
  0 < d && d < 2 ^ 31

namespace ReliableLink

def setPeerPaused (l : ReliableLink) (lane : Lane) (stream : Stream) (paused : Bool) (now : TimePoint) :
    ReliableLink :=
  if stream.peerPaused = paused then l.setStream lane stream
  else
    let interval := max (l.mRtt.rto.tdiv 1000) MinPauseProbeInterval
    let stream := if paused then
        { stream with peerPaused := true, probeInterval := interval, probeAt := some (now + fromMillis interval) }
      else { stream with peerPaused := false, probeAt := none }
    (l.setStream lane stream).updateProgressClock now false

def entryOf (l : ReliableLink) (record : SentRecord) : Option InFlight :=
  match l.mStreams record.lane with
  | none => none
  | some stream =>
    (stream.inFlight.find record.seq).filter fun e => !e.lost && e.transmission == record.transmission

def markLost (l : ReliableLink) (record : SentRecord) (entry : InFlight) (timedOut : Bool) : ReliableLink :=
  let stream := l.streamFor record.lane
  let l := l.setStream record.lane (stream.givenUp record.seq entry)
  let l := if timedOut then l
    else { l with mStats := { l.mStats with fastRetransmissions := l.mStats.fastRetransmissions + 1 } }
  if !sharesCongestionWindow record.lane || l.mTimings.fixedCwnd > 0 ||
      entry.transmission ≤ l.mRecoveryStart then l
  else { l with
    mCongestionWindow := max (l.mCongestionWindow / 2) MinCongestionWindow
    mRecoveryStart := l.mTransmissions }

def detectLoop : List SentRecord → ReliableLink → Bool → Bool × ReliableLink
  | [], l, lost => (lost, { l with mSent := [] })
  | record :: rest, l, lost =>
    match l.entryOf record with
    | none => detectLoop rest l lost
    | some entry =>
      if record.transmission + FastRetransmitThreshold > l.mLargestAcked then
        (lost, { l with mSent := record :: rest })
      else detectLoop rest (l.markLost record entry false) true

def detectLosses (l : ReliableLink) : Bool × ReliableLink := detectLoop l.mSent l false

def noteSerial (l : ReliableLink) (lane : Lane) (stream : Stream) (header : PacketHeader) (ack : AckBody)
    (now : TimePoint) : ReliableLink :=
  if stream.ackSerial.all (isLaterSerial ack.serial) then
    { l with mStats := { l.mStats with mediaReceivedByPeer := ack.mediaReceived } }.setPeerPaused lane
      { stream with ackSerial := some ack.serial } header.flags.isPaused now
  else l

def noteAcked (l : ReliableLink) (scan : AckScan) (now : TimePoint) : ReliableLink :=
  let sampled := scan.sampleSentAt.elim l.mRtt fun sentAt => l.mRtt.addSample ((now - sentAt).tdiv 1000)
  if scan.acked > 0 then { l with mRtt := sampled, mTimeoutsInARow := 0 } else l

def growWindow (l : ReliableLink) (lane : Lane) (losses : Bool) (counted : ℕ) : ReliableLink :=
  let grown := min (l.mCongestionWindow + counted / l.mCongestionWindow) MaxCongestionWindow
  if sharesCongestionWindow lane && !losses && counted > 0 && l.mTimings.fixedCwnd == 0 then
    { l with mCongestionWindow := grown }
  else l

def afterAck (l : ReliableLink) (lane : Lane) (scan : AckScan) (now : TimePoint) : ReliableLink :=
  let (losses, l) := (l.noteAcked scan now).detectLosses
  (l.updateProgressClock now (scan.acked > 0)).growWindow lane losses scan.counted

def applyAck (l : ReliableLink) (lane : Lane) (header : PacketHeader) (ack : AckBody) (now : TimePoint) :
    ReliableLink :=
  let scan := (l.streamFor lane).acknowledge header ack l.mRecoveryStart l.mLargestAcked
  ({ l with mLargestAcked := scan.largestAcked }.setStream lane scan.stream).afterAck lane scan now

def handleAck (l : ReliableLink) (lane : Lane) (stream : Stream) (header : PacketHeader) (ack : AckBody)
    (now : TimePoint) : ReliableLink :=
  (l.noteSerial lane stream header ack now).applyAck lane header ack now

def onAck (l : ReliableLink) (packet : Packet) (now : TimePoint) : ReliableLink :=
  let lane := packet.header.flags.lane
  match l.mStreams lane, packet.ack with
  | some stream, some ack => l.handleAck lane stream packet.header ack now
  | _, _ => l

def dispatch (l : ReliableLink) (packet : Packet) (now : TimePoint) : ReliableLink :=
  let header := packet.header
  let lane := header.flags.lane
  match header.flags.kind with
  | .data =>
    if lane = .media then l.handleMedia header packet.body else l.handleData lane header packet.body
  | .ack => (l.checkIndex lane).onAck packet now
  | .ping => l.dueAck lane
  | .beacon => l

def onPacket (l : ReliableLink) (packet : Packet) (now : TimePoint) : ReliableLink :=
  let header := packet.header
  if l.mFailed then l
  else if (header.dstStreamID ≠ 0 ∧ header.dstStreamID ≠ l.mLocalStreamID) ∨
      l.mRemoteStreamID.any (· != header.srcStreamID) then
    { l with mStats := { l.mStats with staleDropped := l.mStats.staleDropped + 1 } }
  else
    { l with
      mRemoteStreamID := some header.srcStreamID
      mLastReceived := l.mLastReceived.map fun _ => now }.dispatch packet now

def timeoutLoop (timeout : ℤ) (now : TimePoint) : List SentRecord → ReliableLink → Bool → Bool × ReliableLink
  | [], l, expired => (expired, { l with mSent := [] })
  | record :: rest, l, expired =>
    let l := { l with mStats := { l.mStats with timerWork := l.mStats.timerWork + 1 } }
    match l.entryOf record with
    | none => timeoutLoop timeout now rest l expired
    | some entry =>
      if now < entry.sentAt + fromMicros timeout then (expired, { l with mSent := record :: rest })
      else timeoutLoop timeout now rest (l.markLost record entry true) true

def probe (now : TimePoint) (l : ReliableLink) (lane : Lane) : ReliableLink :=
  match l.mStreams lane with
  | none => l
  | some stream =>
    if stream.peerPaused && stream.probeAt.any (· ≤ now) then
      let interval := min (stream.probeInterval * 2) l.mTimings.maxRto
      (l.duePing lane).setStream lane
        { stream with probeInterval := interval, probeAt := some (now + fromMillis interval) }
    else l

def peerTimedOut (l : ReliableLink) (now : TimePoint) : Bool :=
  l.mStalledSince.any (fun t => now - t ≥ fromMillis l.mTimings.peerTimeout) ||
    l.mLastReceived.any (fun t => now - t ≥ fromMillis l.mTimings.peerTimeout)

def keepAliveDue (l : ReliableLink) (now : TimePoint) : Bool :=
  l.mRemoteStreamID.isSome &&
    l.mLastReceived.any (fun t => now - max t l.mPingedAt ≥ fromMillis l.mTimings.keepAlive)

def keepAlive (l : ReliableLink) (now : TimePoint) : ReliableLink :=
  if l.keepAliveDue now then { l.duePing .control with mPingedAt := now } else l

def backOff (l : ReliableLink) (expired : Bool) : ReliableLink :=
  if expired && l.mTimeoutsInARow < MaxBackoffSteps then { l with mTimeoutsInARow := l.mTimeoutsInARow + 1 }
  else l

def onTimer (l : ReliableLink) (now : TimePoint) : ReliableLink :=
  if l.mFailed then l
  else if l.peerTimedOut now then l.fail
  else
    let l := l.keepAlive now
    let (expired, l) := timeoutLoop (l.mRtt.timeoutFor l.mTimeoutsInARow) now l.mSent l false
    StreamLanes.foldl (probe now) (l.backOff expired)

def earliest (next : Option TimePoint) (time : TimePoint) : Option TimePoint :=
  match next with
  | none => some time
  | some n => if time < n then some time else some n

def nextDeadline (l : ReliableLink) : Option TimePoint :=
  let oldest := l.mSent.head?.bind fun record =>
    ((l.mStreams record.lane).bind fun s => s.inFlight.find record.seq).map fun entry =>
      entry.sentAt + fromMicros (l.mRtt.timeoutFor l.mTimeoutsInARow)
  let stalled := l.mStalledSince.map (· + fromMillis l.mTimings.peerTimeout)
  let silent := l.mLastReceived.map (· + fromMillis l.mTimings.peerTimeout)
  let ping := l.mLastReceived.bind fun t =>
    l.mRemoteStreamID.map fun _ => max t l.mPingedAt + fromMillis l.mTimings.keepAlive
  let probes := StreamLanes.filterMap fun lane =>
    (l.mStreams lane).bind fun s => if s.peerPaused then s.probeAt else none
  ((oldest.toList ++ stalled.toList ++ silent.toList ++ ping.toList ++ probes).foldl earliest none)

end ReliableLink

end NetLink.Channel
