import NetLink.Channel.ReliableLink.Receiving
import NetLink.Channel.Wire

/-! What a link offers to its socket, and what it records about what was sent. -/

namespace NetLink.Channel

abbrev MessageSource (σ : Type) := σ → Lane → Option OutboundMessage × σ

def Stream.nextLost (s : Stream) : Option (ℕ × InFlight) × Stream :=
  let lost := s.lost.dropWhile fun seq => !(s.inFlight.find seq).any (·.lost)
  (lost.head?.bind fun seq => (s.inFlight.find seq).map fun entry => (seq, entry), { s with lost := lost })

def cursorFor (message : OutboundMessage) : FragmentCursor :=
  { message := message, count := fragmentsOf message.body.length, next := 0 }

def fragmentAt (cursor : FragmentCursor) : InFlight :=
  let size := cursor.message.body.length
  let offset := cursor.next * MaxFragmentBody
  { message := cursor.message.body
    offset := offset % 2 ^ 32
    length := min MaxFragmentBody (size - offset) % 2 ^ 32
    tag := cursor.message.tag
    totalLength := size % 2 ^ 32
    fragIndex := cursor.next % 2 ^ 16
    fragCount := cursor.count % 2 ^ 16 }

def FragmentCursor.advance (c : FragmentCursor) : Option FragmentCursor :=
  if c.next + 1 ≥ c.count then none else some { c with next := c.next + 1 }

def InFlight.transmitted (e : InFlight) (now : TimePoint) (transmission : ℕ) : InFlight :=
  { e with
    lost := false
    sentAt := now
    transmission := transmission
    transmissions := (e.transmissions + 1) % 2 ^ 16 }

@[simp] lemma InFlight.lost_transmitted (e : InFlight) (now : TimePoint) (n : ℕ) :
    (e.transmitted now n).lost = false := rfl

@[simp] lemma InFlight.transmission_transmitted (e : InFlight) (now : TimePoint) (n : ℕ) :
    (e.transmitted now n).transmission = n := rfl

def InFlight.bytes (e : InFlight) : List UInt8 := (e.message.drop e.offset).take e.length

namespace ReliableLink

def headerOf (l : ReliableLink) (lane : Lane) (seq : ℕ) (entry : InFlight) : PacketHeader :=
  let header := { l.makeHeader (.data lane) seq with tag := entry.tag }
  if entry.fragCount > 1 then
    { header with
      flags := header.flags.setFragment true (entry.fragIndex + 1 == entry.fragCount)
      fragIndex := entry.fragIndex
      fragCount := entry.fragCount
      totalLength := entry.totalLength }
  else header

def offer (l : ReliableLink) (header : PacketHeader) (entry : InFlight) : Option Packet × ReliableLink :=
  let packet := makeDatagram header entry.bytes
  (some packet, { l with mPeeked := packet })

def congestionWindowOpen (l : ReliableLink) (lane : Lane) : Bool :=
  !sharesCongestionWindow lane ||
    (((l.mStreams .reliable).map (·.onTheWire)).getD 0 + ((l.mStreams .bulk).map (·.onTheWire)).getD 0
      < l.congestionWindow)

def makeAck (l : ReliableLink) (lane : Lane) : Packet × ReliableLink :=
  let l := if (l.mStreams lane).isSome then l.retryRefused lane else l
  let l := { l with mAckSerial := (l.mAckSerial + 1) % 2 ^ 32 }
  let waiting := ((l.mStreams lane).map fun s =>
    if s.reorder.isEmpty then [] else s.reorder.entries.map (·.1)).getD []
  let paused := (l.mPaused && lane != .control) || (l.mStreams lane).any (·.budgetPaused)
  let seq := ((l.mStreams lane).map fun s => s.nextExpected - 1).getD 0
  let ack : AckBody :=
    { serial := l.mAckSerial, mediaReceived := l.mMediaReceived, ranges := toRanges waiting }
  ({ makeDatagram (l.makeHeader (.ack lane paused) seq) (encodeAck ack MaxAckRanges) with
      ack := some { ack with ranges := ack.ranges.take MaxAckRanges } },
    { l with mStats := { l.mStats with acksSent := l.mStats.acksSent + 1 } })

def makePing (l : ReliableLink) (lane : Lane) : Packet × ReliableLink :=
  (makeDatagram (l.makeHeader (.ping lane) 0) [],
    { l with mStats := { l.mStats with pingsSent := l.mStats.pingsSent + 1 } })

def fillAck (l : ReliableLink) (lane : Lane) : ReliableLink :=
  if l.mAckDue lane then
    let (packet, l) := l.makeAck lane
    { l with mPendingAcks := l.mPendingAcks ++ [packet] }
  else l

def fillPing (l : ReliableLink) (lane : Lane) : ReliableLink :=
  if l.mPingDue lane then
    let (packet, l) := l.makePing lane
    { l with mPendingAcks := l.mPendingAcks ++ [packet] }
  else l

def fillAcks (l : ReliableLink) : ReliableLink :=
  StreamLanes.foldl (fun l lane => (l.fillAck lane).fillPing lane) l

def peekAck (l : ReliableLink) : Option Packet × ReliableLink :=
  if l.mFailed then (none, l)
  else
    let l := if l.mPendingAcks.isEmpty then
        { l.fillAcks with mAckDue := fun _ => false, mPingDue := fun _ => false }
      else l
    (l.mPendingAcks.head?, l)

def commitAck (l : ReliableLink) : ReliableLink := { l with mPendingAcks := l.mPendingAcks.tail }

variable {σ : Type} (next : MessageSource σ)

def peekMedia (l : ReliableLink) (source : σ) : Option Packet × ReliableLink × σ :=
  match l.mMediaCursor with
  | some cursor =>
    let (packet, l) := l.offer (l.headerOf .media l.mNextMediaSeq (fragmentAt cursor)) (fragmentAt cursor)
    (packet, l, source)
  | none =>
    match next source .media with
    | (none, source) => (none, l, source)
    | (some message, source) =>
      let cursor := cursorFor message
      let l := { l with mMediaCursor := some cursor }
      let (packet, l) := l.offer (l.headerOf .media l.mNextMediaSeq (fragmentAt cursor)) (fragmentAt cursor)
      (packet, l, source)

def peekNext (l : ReliableLink) (lane : Lane) (source : σ) : Option Packet × ReliableLink × σ :=
  match (l.mStreams lane).bind (·.cursor) with
  | some cursor =>
    let header := l.headerOf lane (l.streamFor lane).nextSendSeq (fragmentAt cursor)
    let (packet, l) := l.offer header (fragmentAt cursor)
    (packet, l, source)
  | none =>
    match next source lane with
    | (none, source) => (none, l, source)
    | (some message, source) =>
      let cursor := cursorFor message
      let stream := { l.streamFor lane with cursor := some cursor }
      let header := l.headerOf lane stream.nextSendSeq (fragmentAt cursor)
      let (packet, l) := (l.setStream lane stream).offer header (fragmentAt cursor)
      (packet, l, source)

def peek (l : ReliableLink) (lane : Lane) (source : σ) : Option Packet × ReliableLink × σ :=
  if l.mFailed then (none, l, source)
  else if lane = .media then l.peekMedia next source
  else
    let l := l.checkIndex lane
    match l.mStreams lane with
    | none => if l.congestionWindowOpen lane then l.peekNext next lane source else (none, l, source)
    | some stream =>
      match stream.nextLost with
      | (some (seq, entry), stream) =>
        let l := l.setStream lane stream
        if stream.peerPaused || !l.congestionWindowOpen lane then (none, l, source)
        else
          let (packet, l) := l.offer (l.headerOf lane seq entry) entry
          (packet, l, source)
      | (none, stream) =>
        let l := l.setStream lane stream
        if stream.nextSendSeq - stream.sendBase ≥ stream.inFlight.capacity || stream.peerPaused ||
            !l.congestionWindowOpen lane then (none, l, source)
        else l.peekNext next lane source

def transmit (l : ReliableLink) (lane : Lane) (stream : Stream) (seq : ℕ) (entry : InFlight)
    (now : TimePoint) : ReliableLink :=
  let first := entry.transmissions == 0
  let sent := entry.transmitted now (l.mTransmissions + 1)
  let stats : LinkStats := if first then { l.mStats with dataSent := l.mStats.dataSent + 1 }
    else { l.mStats with retransmissions := l.mStats.retransmissions + 1 }
  let stats := if sent.transmissions = 1 ∧ lane ≠ .control then
    { stats with bytesSent := stats.bytesSent + entry.length } else stats
  let l := { l with
    mStats := stats
    mTransmissions := l.mTransmissions + 1
    mSent := l.mSent ++ [(⟨l.mTransmissions + 1, seq, lane⟩ : SentRecord)] }
  let stream := { stream with
    inFlight := stream.inFlight.assign seq sent
    onTheWire := stream.onTheWire + 1 }
  (l.setStream lane stream).updateProgressClock now false

def commitMedia (l : ReliableLink) : ReliableLink :=
  match l.mMediaCursor with
  | none => l
  | some cursor =>
    { l with
      mNextMediaSeq := l.mNextMediaSeq + 1
      mStats := { l.mStats with
        mediaSent := l.mStats.mediaSent + 1
        bytesSent := l.mStats.bytesSent + l.mPeeked.body.length }
      mMediaCursor := cursor.advance }

def commit (l : ReliableLink) (lane : Lane) (now : TimePoint) : ReliableLink :=
  if lane = .media then l.commitMedia
  else
    let l := l.checkIndex lane
    match l.mStreams lane with
    | none => l
    | some stream =>
      match stream.nextLost with
      | (some (seq, entry), stream) =>
        l.transmit lane { stream with lost := stream.lost.tail } seq entry now
      | (none, stream) =>
        match stream.cursor with
        | none => l.setStream lane stream
        | some cursor =>
          let seq := stream.nextSendSeq
          l.transmit lane { stream with
            nextSendSeq := seq + 1
            inFlight := stream.inFlight.insert seq (fragmentAt cursor)
            cursor := cursor.advance } seq (fragmentAt cursor) now

def setPaused (l : ReliableLink) (paused : Bool) : ReliableLink :=
  if l.mPaused = paused then l
  else
    [Lane.reliable, Lane.bulk].foldl (fun l lane => if (l.mStreams lane).isSome then l.dueAck lane else l)
      { l with mPaused := paused }

end ReliableLink

end NetLink.Channel
