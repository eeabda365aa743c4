import NetLink.Channel.ReliableLink.Karn

/-! What a packet that is sent again and again does to the counters of its link: the number of its transmissions
has sixteen bits, and a remote link that pauses now and then keeps the link from giving it up. -/

namespace NetLink.Channel

def Stream.sentAgain (s : Stream) (e : InFlight) : Stream := { s with lost := [] }.onWire 1 e

namespace ReliableLink

variable {l : ReliableLink} {s : Stream} {e : InFlight} {now : TimePoint}

structure OnePacket (l : ReliableLink) (s : Stream) (e : InFlight) : Prop where
  alive : l.mFailed = false
  silent : l.mLastReceived = none
  timings : l.mTimings = {}
  rtt : l.mRtt = .new 100 20 1000
  window : (MinCongestionWindow : ℚ) ≤ l.mCongestionWindow
  streams : l.mStreams = Function.update (fun _ => none) .reliable (some s)
  wf : s.inFlight.WF
  held : s.inFlight.find 1 = some e
  base : s.sendBase = 1
  next : s.nextSendSeq = 2

namespace OnePacket

lemma stream (h : l.OnePacket s e) : l.mStreams .reliable = some s := by rw [h.streams, Function.update_self]

lemma streamFor (h : l.OnePacket s e) : l.streamFor .reliable = s := by
  rw [ReliableLink.streamFor, h.stream]
  rfl

lemma set (h : l.OnePacket s e) {t : Stream} {e' : InFlight} (hw : t.inFlight.WF)
    (hh : t.inFlight.find 1 = some e') (hb : t.sendBase = 1) (hn : t.nextSendSeq = 2) :
    (l.setStream .reliable t).OnePacket t e' :=
  { h with
    streams := by rw [setStream, h.streams, Function.update_idem]
    wf := hw, held := hh, base := hb, next := hn }

lemma find_assign (h : l.OnePacket s e) (e' : InFlight) : (s.inFlight.assign 1 e').find 1 = some e' := by
  rw [SequenceBuffer.find_assign h.wf, if_pos ⟨rfl, SequenceBuffer.contains_iff.mpr ⟨e, h.held⟩⟩]

lemma setStream_self (h : l.OnePacket s e) : l.setStream .reliable s = l := by
  rw [setStream, h.streams, Function.update_idem, ← h.streams]

lemma foldl_probe (h : l.OnePacket s e) (hp : s.peerPaused = false) : StreamLanes.foldl (probe now) l = l := by
  have hc : l.mStreams .control = none := by rw [h.streams]; rfl
  have hb : l.mStreams .bulk = none := by rw [h.streams]; rfl
  simp only [StreamLanes, List.foldl_cons, List.foldl_nil, probe, hc, h.stream, hp, hb, Bool.false_and,
    Bool.false_eq_true, if_false]

lemma markLost_eq (h : l.OnePacket s e) (record : SentRecord) (hl : record.lane = .reliable)
    (hs : record.seq = 1) :
    ∃ w r, (MinCongestionWindow : ℚ) ≤ w ∧ l.markLost record e true =
      { l.setStream .reliable (s.givenUp 1 e) with mCongestionWindow := w, mRecoveryStart := r } := by
  rw [markLost, hl, hs, h.streamFor]
  dsimp only
  rw [if_pos rfl]
  split
  · exact ⟨_, _, h.window, rfl⟩
  · exact ⟨_, _, le_max_right _ _, rfl⟩

lemma givenUp (h : l.OnePacket s e) :
    (l.setStream .reliable (s.givenUp 1 e)).OnePacket (s.givenUp 1 e) { e with lost := true } :=
  h.set (SequenceBuffer.wf_assign h.wf) (h.find_assign _) h.base h.next

lemma onTimer_eq {n : ℕ} (h : l.OnePacket s e) (hsent : l.mSent = [⟨n, 1, .reliable⟩]) (hlost : e.lost = false)
    (hn : e.transmission = n) (hat : e.sentAt = now) (hstalled : l.mStalledSince = some now)
    (hp : s.peerPaused = false) :
    ∃ w r k, (MinCongestionWindow : ℚ) ≤ w ∧ l.onTimer (now + fromMillis 1000) =
      { l.setStream .reliable (s.givenUp 1 e) with
      mSent := []
      mStats := { l.mStats with timerWork := l.mStats.timerWork + 1 }
      mCongestionWindow := w
      mRecoveryStart := r
      mTimeoutsInARow := k } := by
  have hintime : l.peerTimedOut (now + fromMillis 1000) = false := by
    rw [peerTimedOut, hstalled, h.silent, h.timings]
    simp [fromMillis]
  have hkeep : l.keepAlive (now + fromMillis 1000) = l := by
    rw [keepAlive, keepAliveDue, h.silent]
    simp
  have hdue : ¬now + fromMillis 1000 < e.sentAt + fromMicros (l.mRtt.timeoutFor l.mTimeoutsInARow) := by
    have hmax : l.mRtt.timeoutFor l.mTimeoutsInARow ≤ 1000000 := by
      rw [h.rtt, RttEstimator.timeoutFor_eq (by decide) (by decide)]
      exact min_le_left _ _
    rw [hat, not_lt]
    exact Int.add_le_add_left (Int.mul_le_mul_of_nonneg_right hmax (by decide)) now
  have hentry : entryOf { l with mStats := { l.mStats with timerWork := l.mStats.timerWork + 1 } }
    ⟨n, 1, .reliable⟩ =
      some e := by
    rw [entryOf]
    dsimp only
    rw [h.stream]
    simp [h.held, hlost, hn]
  have hworked : OnePacket { l with mStats := { l.mStats with timerWork := l.mStats.timerWork + 1 } } s e :=
    { h with }
  obtain ⟨w, r, hw, hmark⟩ := hworked.markLost_eq ⟨n, 1, .reliable⟩ rfl rfl
  have hloop : timeoutLoop (l.mRtt.timeoutFor l.mTimeoutsInARow) (now + fromMillis 1000) l.mSent l false =
      (true, { l.setStream .reliable (s.givenUp 1 e) with
        mSent := []
        mStats := { l.mStats with timerWork := l.mStats.timerWork + 1 }
        mCongestionWindow := w
        mRecoveryStart := r }) := by
    rw [hsent, timeoutLoop]
    dsimp only
    rw [hentry]
    dsimp only
    rw [if_neg hdue, hmark, timeoutLoop]
    rfl
  rw [onTimer, if_neg (by rw [h.alive]; exact Bool.false_ne_true),
    if_neg (by rw [hintime]; exact Bool.false_ne_true), hkeep]
  dsimp only
  rw [hloop]
  dsimp only
  have hgiven : OnePacket { l.setStream .reliable (s.givenUp 1 e) with
      mSent := []
      mStats := { l.mStats with timerWork := l.mStats.timerWork + 1 }
      mCongestionWindow := w
      mRecoveryStart := r } (s.givenUp 1 e) { e with lost := true } := { h.givenUp with window := hw }
  rw [backOff]
  split
  · exact ⟨w, r, _, hw, OnePacket.foldl_probe { hgiven with } hp⟩
  · exact ⟨w, r, _, hw, OnePacket.foldl_probe hgiven hp⟩

def emptyAck (paused : Bool) (serial : ℕ) : Packet where
  header := { flags := .ack .reliable paused, srcStreamID := 9 }
  ack := some { serial := serial }

lemma acknowledge_empty (h : l.OnePacket s e) (paused : Bool) (serial start largest : ℕ) :
    s.acknowledge (emptyAck paused serial).header { serial := serial } start largest =
      { stream := s, largestAcked := largest } := by
  have hseqs : s.ackedSeqs (emptyAck paused serial).header { serial := serial } = [] := by
    rw [Stream.ackedSeqs, h.base, h.next]
    rfl
  have hbase : advanceBase s.inFlight (s.nextSendSeq - s.sendBase) s.sendBase = s.sendBase := by
    rw [h.next, h.base, advanceBase, if_pos (SequenceBuffer.contains_iff.mpr ⟨e, h.held⟩)]
  rw [Stream.acknowledge, hseqs]
  dsimp only [List.foldl_nil]
  rw [hbase]

lemma applyAck_empty (h : l.OnePacket s e) (hsent : l.mSent = []) (paused : Bool) (serial : ℕ) :
    l.applyAck .reliable (emptyAck paused serial).header { serial := serial } now = l.updateProgressClock
      now false := by
  have hdetect : l.detectLosses = (false, l) := by
    rw [detectLosses, hsent, detectLoop, ← hsent]
  have hafter : l.afterAck .reliable { stream := s, largestAcked := l.mLargestAcked } now = l.updateProgressClock
    now false := by
    rw [afterAck, noteAcked, if_neg (lt_irrefl 0), hdetect]
    dsimp only
    rw [growWindow, if_neg (by simp)]
    rfl
  rw [applyAck, h.streamFor, h.acknowledge_empty]
  change (l.setStream .reliable s).afterAck .reliable _ now = _
  rw [h.setStream_self, hafter]

lemma updateProgressClock_eq (h : l.OnePacket s e) (now : TimePoint) : l.updateProgressClock now false =
    { l with mStalledSince := if s.peerPaused then none else some (l.mStalledSince.getD now) } := by
  have hne : s.inFlight.isEmpty = false := by
    rw [← Bool.not_eq_true, SequenceBuffer.isEmpty_iff h.wf]
    intro hnone
    exact Option.some_ne_none e (h.held.symm.trans (hnone 1))
  have hwaiting : (StreamLanes.any fun lane => (l.mStreams lane).any fun s =>
    !s.peerPaused && !s.inFlight.isEmpty) =
      !s.peerPaused := by
    rw [h.streams]
    simp [StreamLanes, hne]
  rw [updateProgressClock, hwaiting]
  cases hp : s.peerPaused with
  | true => rfl
  | false =>
    cases hs : l.mStalledSince with
    | none => rfl
    | some t =>
      rw [if_neg (by decide), if_neg (by simp), if_neg (by decide), Option.getD_some, ← hs]

lemma isPaused_emptyAck (paused : Bool) (serial : ℕ) :
    (emptyAck paused serial).header.flags.isPaused = paused := by
  have hflags : ∀ paused, (PacketFlags.ack .reliable paused).isPaused = paused := by decide
  exact hflags paused

lemma dispatch_empty (hs : l.mStreams .reliable = some s) (paused : Bool) (serial : ℕ) :
    l.dispatch (emptyAck paused serial) now =
      l.handleAck .reliable s (emptyAck paused serial).header { serial := serial } now := by
  have hkind : (emptyAck paused serial).header.flags.kind = .ack := PacketFlags.kind_ack .reliable paused
  have hlane : (emptyAck paused serial).header.flags.lane = .reliable := PacketFlags.lane_ack .reliable paused
  rw [dispatch, hkind, hlane]
  change l.onAck (emptyAck paused serial) now = _
  rw [onAck, hlane, hs]
  rfl

def noted (l : ReliableLink) (s : Stream) : ReliableLink :=
  { l.setStream .reliable s with mRemoteStreamID := some 9, mStats := { l.mStats with mediaReceivedByPeer := 0 } }

lemma onPacket_empty (h : l.OnePacket s e) (now : TimePoint) (hsent : l.mSent = [])
    (hid : l.mRemoteStreamID.all (· == 9)) {paused : Bool} {serial : ℕ} (hp : s.peerPaused = !paused)
    (hserial : s.ackSerial.all (isLaterSerial serial) = true) :
    ∃ at' every, l.onPacket (emptyAck paused serial) now =
      { noted l (s.tuned paused (some serial) at' every) with
        mStalledSince := if paused then none else some (l.mStalledSince.getD now) } := by
  have hpaused : ∃ at' every, setPeerPaused { l with
      mRemoteStreamID := some 9
      mStats := { l.mStats with mediaReceivedByPeer := 0 } } .reliable
        { s with ackSerial := some serial } paused now =
      (noted l (s.tuned paused (some serial) at' every)).updateProgressClock now false := by
    rw [setPeerPaused, if_neg (by simp [hp])]
    cases paused with
    | true => exact ⟨_, _, rfl⟩
    | false => exact ⟨_, _, rfl⟩
  obtain ⟨at', every, hpaused⟩ := hpaused
  refine ⟨at', every, ?_⟩
  have hknown : ¬(((emptyAck paused serial).header.dstStreamID ≠ 0 ∧
      (emptyAck paused serial).header.dstStreamID ≠ l.mLocalStreamID) ∨
      l.mRemoteStreamID.any (· != (emptyAck paused serial).header.srcStreamID)) := by
    rintro (hdst | hsrc)
    · exact hdst.1 rfl
    · cases hr : l.mRemoteStreamID with
      | none => simp [hr] at hsrc
      | some id =>
        rw [hr, Option.all_some, beq_iff_eq] at hid
        rw [hr, hid] at hsrc
        cases hsrc
  have hheard : ({ l with
      mRemoteStreamID := some 9
      mLastReceived := l.mLastReceived.map fun _ => now } : ReliableLink) =
        { l with mRemoteStreamID := some 9 } := by
    simp only [h.silent, Option.map_none]
  have hset := h.set (t := s.tuned paused (some serial) at' every) h.wf h.held h.base h.next
  have hfirst := updateProgressClock_eq (l := noted l _) { hset with } now
  have hsecond : ∀ stalled, OnePacket { noted l (s.tuned paused (some serial) at' every) with
      mStalledSince := stalled } (s.tuned paused (some serial) at' every) e := fun _ => { hset with }
  rw [onPacket, if_neg (by rw [h.alive]; exact Bool.false_ne_true), if_neg hknown]
  change dispatch { l with
      mRemoteStreamID := some 9
      mLastReceived := l.mLastReceived.map fun _ => now } (emptyAck paused serial) now = _
  rw [hheard]
  rw [dispatch_empty (by exact h.stream), handleAck, noteSerial, if_pos hserial, isPaused_emptyAck]
  rw [hpaused, hfirst, (hsecond _).applyAck_empty hsent, (hsecond _).updateProgressClock_eq]
  cases paused <;> rfl

lemma nextLost_eq (h : l.OnePacket s e) (hs : s.lost = [1]) (hlost : e.lost = true) :
    s.nextLost = (some (1, e), s) := by
  have hwhile : s.lost.dropWhile (fun seq => !(s.inFlight.find seq).any (·.lost)) = s.lost := by
    rw [hs, List.dropWhile_cons_of_neg (by simp [h.held, hlost])]
  rw [Stream.nextLost, hwhile, hs]
  dsimp only [List.head?_cons, Option.bind_some]
  rw [h.held, ← hs]
  rfl

lemma peek_eq (h : l.OnePacket s e) (hs : s.lost = [1]) (hlost : e.lost = true) (hp : s.peerPaused = false)
    (hw : s.onTheWire = 0) :
      ∃ packet, l.peek Host.single .reliable none = (some packet, { l with mPeeked := packet }, none) := by
  have hopen : l.congestionWindowOpen .reliable = true := by
    have hb : l.mStreams .bulk = none := by rw [h.streams]; rfl
    have hfloor : 0 < l.congestionWindow := by
      rw [congestionWindow, Int.lt_toNat]
      exact Int.floor_pos.mpr (le_trans (by norm_num [MinCongestionWindow]) h.window)
    rw [congestionWindowOpen, h.stream, hb]
    simp [hw, hfloor]
  refine ⟨makeDatagram (l.headerOf .reliable 1 e) e.bytes, ?_⟩
  rw [peek, if_neg (by rw [h.alive]; exact Bool.false_ne_true), if_neg (by decide)]
  dsimp only
  have hcheck : l.checkIndex .reliable = l := rfl
  rw [hcheck, h.stream]
  dsimp only
  rw [h.nextLost_eq hs hlost]
  dsimp only
  rw [h.setStream_self, hp, hopen]
  rfl

lemma sentAgain (h : l.OnePacket s e) (e' : InFlight) :
    (l.setStream .reliable (s.sentAgain e')).OnePacket (s.sentAgain e') e' :=
  h.set (SequenceBuffer.wf_assign h.wf) (h.find_assign e') h.base h.next

lemma commit_eq (h : l.OnePacket s e) (hs : s.lost = [1]) (hlost : e.lost = true) (hp : s.peerPaused = false)
    (hstalled : l.mStalledSince = some now) : ∃ stats : LinkStats,
      stats.dataSent = (if e.transmissions = 0 then l.mStats.dataSent + 1 else l.mStats.dataSent) ∧
      l.commit .reliable now =
        { l.setStream .reliable (s.sentAgain (e.transmitted now (l.mTransmissions + 1))) with
        mStats := stats
        mTransmissions := l.mTransmissions + 1
        mSent := l.mSent ++ [⟨l.mTransmissions + 1, 1, .reliable⟩] } := by
  have hcommit : l.commit .reliable now = l.transmit .reliable { s with lost := [] } 1 e now := by
    rw [commit_lost (by decide) h.stream (by rw [h.nextLost_eq hs hlost]) now, h.nextLost_eq hs hlost, hs]
    rfl
  have hsends := sends_transmit l .reliable { s with lost := [] } 1 e now
  have hset := h.sentAgain (e.transmitted now (l.mTransmissions + 1))
  obtain ⟨stats, ht⟩ := transmit_eq l .reliable { s with lost := [] } 1 e now
  have hsent : OnePacket { l.setStream .reliable (s.sentAgain (e.transmitted now (l.mTransmissions + 1))) with
      mStats := stats
      mTransmissions := l.mTransmissions + 1
      mSent := l.mSent ++ [⟨l.mTransmissions + 1, 1, .reliable⟩] } _ _ := { hset with }
  have hclock := ht.trans (hsent.updateProgressClock_eq now)
  refine ⟨stats, ?_, ?_⟩
  · rw [hclock] at hsends
    refine (congrArg Prod.fst hsends).trans ?_
    split <;> rfl
  · have hgoing : (s.sentAgain (e.transmitted now (l.mTransmissions + 1))).peerPaused = false := hp
    rw [hcommit, hclock, hgoing]
    simp only [setStream, hstalled, Bool.false_eq_true, if_false, Option.getD_some]

end OnePacket

def wraps (n : ℕ) : ℕ := (n + (2 ^ 16 - 1)) / 2 ^ 16

lemma wraps_succ (n : ℕ) : wraps (n + 1) = if n % 2 ^ 16 = 0 then wraps n + 1 else wraps n := by
  rw [wraps, wraps]
  split <;> omega

structure Stuck (n : ℕ) (now : TimePoint) (l : ReliableLink) (s : Stream) (e : InFlight) :
    Prop extends l.OnePacket s e where
  sent : l.mSent = [⟨n, 1, .reliable⟩]
  number : l.mTransmissions = n
  stalled : l.mStalledSince = some now
  remote : l.mRemoteStreamID.all (· == 9) = true
  counted : l.mStats.dataSent = wraps n
  live : e.lost = false
  count : e.transmissions = n % 2 ^ 16
  sentAt : e.sentAt = now
  transmission : e.transmission = n
  listed : s.lost = []
  going : s.peerPaused = false
  wire : s.onTheWire = 1
  serial : ∀ x ∈ s.ackSerial, x + 1 = 2 * n

structure GivenUp (n : ℕ) (paused : Bool) (serial : ℕ) (stalled : Option TimePoint) (l : ReliableLink) (s : Stream)
    (e : InFlight) : Prop extends l.OnePacket s e where
  sent : l.mSent = []
  number : l.mTransmissions = n
  stalledSince : l.mStalledSince = stalled
  remote : l.mRemoteStreamID.all (· == 9) = true
  counted : l.mStats.dataSent = wraps n
  gone : e.lost = true
  count : e.transmissions = n % 2 ^ 16
  listed : s.lost = [1]
  pause : s.peerPaused = paused
  wire : s.onTheWire = 0
  later : s.ackSerial.all (isLaterSerial serial) = true

lemma isLaterSerial_succ (x : ℕ) : isLaterSerial (x + 1) x = true := by
  have hd : (x + 1 + 2 ^ 32 - x) % 2 ^ 32 = 1 := by omega
  rw [isLaterSerial, hd]
  decide

variable {n serial : ℕ} {paused : Bool} {stalled : Option TimePoint}

lemma Stuck.onTimer (h : Stuck n now l s e) :
    ∃ s' e', GivenUp n false (2 * n) (some now) (l.onTimer (now + fromMillis 1000)) s' e' := by
  obtain ⟨w, r, timeouts, hw, htimer⟩ :=
    h.toOnePacket.onTimer_eq h.sent h.live h.transmission h.sentAt h.stalled h.going
  rw [htimer]
  refine ⟨s.givenUp 1 e, { e with lost := true }, { h.toOnePacket.givenUp with
    window := hw
    sent := rfl
    number := h.number
    stalledSince := h.stalled
    remote := h.remote
    counted := h.counted
    gone := rfl
    count := h.count
    listed := ?_
    pause := h.going
    wire := ?_
    later := ?_ }⟩
  · rw [Stream.givenUp, h.listed]
    rfl
  · rw [Stream.givenUp, h.wire]
  · rw [Option.all_eq_true]
    intro x hx
    rw [← h.serial x hx]
    exact isLaterSerial_succ x

namespace GivenUp

lemma onPacket (paused : Bool) (now : TimePoint) (h : GivenUp n (!paused) serial stalled l s e) :
    ∃ s', GivenUp n paused (serial + 1) (if paused then none else some (stalled.getD now))
      (l.onPacket (OnePacket.emptyAck paused serial) now) s' e ∧ s'.ackSerial = some serial := by
  obtain ⟨at', every, hpacket⟩ := h.toOnePacket.onPacket_empty now h.sent h.remote h.pause h.later
  rw [hpacket]
  exact ⟨_, { h.set (t := s.tuned paused (some serial) at' every) h.wf h.held h.base h.next with
    sent := h.sent
    number := h.number
    stalledSince := by rw [← h.stalledSince]
    remote := rfl
    counted := h.counted
    gone := h.gone
    count := h.count
    listed := h.listed
    pause := rfl
    wire := h.wire
    later := by rw [Stream.tuned, Option.all_some, isLaterSerial_succ] }, rfl⟩

lemma peek (h : GivenUp n false serial stalled l s e) : ∃ packet,
    l.peek Host.single .reliable none = (some packet, { l with mPeeked := packet }, none) ∧
      GivenUp n false serial stalled { l with mPeeked := packet } s e := by
  obtain ⟨packet, hpeek⟩ := h.toOnePacket.peek_eq h.listed h.gone h.pause h.wire
  exact ⟨packet, hpeek, { h with }⟩

lemma commit (h : GivenUp n false (2 * n + 2) (some now) l s e) (hs : s.ackSerial = some (2 * n + 1)) :
    ∃ s' e', Stuck (n + 1) now (l.commit .reliable now) s' e' := by
  obtain ⟨stats, hstats, hcommit⟩ := h.toOnePacket.commit_eq h.listed h.gone h.pause h.stalledSince
  rw [hcommit]
  refine ⟨_, _, { h.toOnePacket.sentAgain (e.transmitted now (l.mTransmissions + 1)) with
    sent := ?_
    number := congrArg (· + 1) h.number
    stalled := h.stalledSince
    remote := h.remote
    counted := ?_
    live := rfl
    count := ?_
    sentAt := rfl
    transmission := congrArg (· + 1) h.number
    listed := rfl
    going := h.pause
    wire := congrArg (· + 1) h.wire
    serial := ?_ }⟩
  · rw [h.number, h.sent, List.nil_append]
  · rw [wraps_succ, ← h.counted, ← h.count]
    exact hstats
  · rw [InFlight.transmitted, h.count, Nat.mod_add_mod]
  · intro x hx
    obtain rfl : 2 * n + 1 = x := Option.some.inj (hs.symm.trans hx)
    rw [Nat.mul_succ]

end GivenUp

end ReliableLink

open ReliableLink

namespace Host.Timed

lemma peeked {h : Host} {lane : Lane} {packet : Packet} {l : ReliableLink}
    (hp : h.link.peek single lane none = (some packet, l, none)) :
    (h.peek lane none).link = l ∧ (h.peek lane none).offered = some lane := by
  rw [Host.peek, hp]
  exact ⟨rfl, rfl⟩

variable {source : Lane → OutboundMessage → Prop} {incoming : Packet → Prop} {t : Timed} {n : ℕ} {s : Stream}
  {e : InFlight}

lemma givenUp_of_stuck (hr : (Timed.system (fun _ _ => True) fun _ => True).Reachable t)
    (h : Stuck n t.clock t.host.link s e) :
    ∃ t' s' e', (Timed.system (fun _ _ => True) fun _ => True).Reachable t' ∧
      GivenUp n false (2 * n + 2) (some t'.clock) t'.host.link s' e' ∧ s'.ackSerial = some (2 * n + 1) := by
  have hle : t.clock ≤ t.clock + fromMillis 1000 := le_add_of_nonneg_right (by decide)
  obtain ⟨s₁, e₁, h₁⟩ := h.onTimer
  generalize t.clock + fromMillis 1000 = later at hle h₁
  have hnow : ∀ time ∈ some later, time = later := fun time htime => (Option.some.inj htime).symm
  have r₁ := hr.step (step_made (later, .onTimer later) ⟨hle, hnow, rfl⟩)
  obtain ⟨s₂, h₂, -⟩ := h₁.onPacket true later
  have r₂ := r₁.step (step_made (later, .onPacket (OnePacket.emptyAck true (2 * n)) later) ⟨le_rfl, hnow, rfl⟩)
  obtain ⟨s₃, h₃, hserial⟩ := h₂.onPacket false later
  have r₃ := r₂.step (step_made (later, .onPacket (OnePacket.emptyAck false (2 * n + 1)) later)
    ⟨le_rfl, hnow, rfl⟩)
  exact ⟨_, s₃, e₁, r₃, h₃, hserial⟩

lemma stuck_of_givenUp (hr : (Timed.system (fun _ _ => True) fun _ => True).Reachable t)
    (h : GivenUp n false (2 * n + 2) (some t.clock) t.host.link s e) (hs : s.ackSerial = some (2 * n + 1)) :
    ∃ t' s' e', (Timed.system (fun _ _ => True) fun _ => True).Reachable t' ∧
      Stuck (n + 1) t'.clock t'.host.link s' e' := by
  obtain ⟨packet, hpeek, hpeeked⟩ := h.peek
  obtain ⟨s', e', hstuck⟩ := hpeeked.commit hs
  obtain ⟨hlink, hoffered⟩ := peeked hpeek
  have hfits : offers (t.made (t.clock, .peek .reliable none)) (.commit .reliable t.clock) = true :=
    beq_iff_eq.mpr hoffered
  have r₁ := hr.step (step_made (t.clock, .peek .reliable none) ⟨le_rfl, nofun, rfl⟩)
  have r₂ := r₁.step (step_made (t.clock, .commit .reliable t.clock)
    ⟨le_rfl, fun time htime => (Option.some.inj htime).symm, hfits⟩)
  rw [← hlink] at hstuck
  exact ⟨_, s', e', r₂, hstuck⟩

def sentReliable : Timed :=
  run {} [(0, .peek .reliable (some { body := [1] })), (0, .commit .reliable 0)]

lemma reachable_sentReliable : (Timed.system (fun _ _ => True) fun _ => True).Reachable sentReliable :=
  run_reachable (by decide)

lemma stuck_first : Stuck 1 sentReliable.clock sentReliable.host.link (sentReliable.host.link.streamFor .reliable)
    ((fragmentAt (cursorFor { body := [1] })).transmitted 0 1) where
  alive := by decide +kernel
  silent := by decide +kernel
  timings := by decide +kernel
  rtt := by decide +kernel
  window := by decide +kernel
  streams := by
    have hnone : ∀ lane, lane ≠ .reliable → (sentReliable.host.link.mStreams lane).isNone = true := by
      intro lane hl
      cases lane with
      | reliable => exact absurd rfl hl
      | control | bulk | media => decide +kernel
    have hsome : (sentReliable.host.link.mStreams .reliable).isSome = true := by decide +kernel
    funext lane
    by_cases hl : lane = .reliable
    · obtain ⟨s, hs⟩ := Option.isSome_iff_exists.mp hsome
      rw [hl, Function.update_self, ReliableLink.streamFor, hs]
      rfl
    · rw [Function.update_of_ne hl]
      exact Option.isNone_iff_eq_none.mp (hnone lane hl)
  wf := ((Host.sound (reachable_host reachable_sentReliable)).view.send .reliable).wf
  held := by decide +kernel
  base := by decide +kernel
  next := by decide +kernel
  sent := by decide +kernel
  number := by decide +kernel
  stalled := by decide +kernel
  remote := by decide +kernel
  counted := by decide +kernel
  live := rfl
  count := rfl
  sentAt := by decide +kernel
  transmission := rfl
  listed := by decide +kernel
  going := by decide +kernel
  wire := by decide +kernel
  serial := by decide +kernel

lemma stuck (n : ℕ) : ∃ t s e, (Timed.system (fun _ _ => True) fun _ => True).Reachable t ∧
    Stuck (n + 1) t.clock t.host.link s e := by
  induction n with
  | zero => exact ⟨_, _, _, reachable_sentReliable, stuck_first⟩
  | succ n ih =>
    obtain ⟨t, s, e, hr, h⟩ := ih
    obtain ⟨t', s', e', hr', h', hs⟩ := givenUp_of_stuck hr h
    exact stuck_of_givenUp hr' h' hs

theorem counters_and_samples (hr : (sparing source incoming).Reachable t) (hf : t.host.link.mFailed = false) :
    t.host.link.mStats.dataSent = (StreamLanes.map fun lane => (t.host.link.streamFor lane).nextSendSeq - 1).sum ∧
    t.host.link.mStats.dataSent + t.host.link.mStats.retransmissions = t.host.link.mTransmissions ∧
    ∀ (packet : Packet) (now : TimePoint),
      (t.host.link.onPacket packet now).mRtt = (t.host.link.sampled packet now).elim t.host.link.mRtt
        t.host.link.mRtt.addSample ∧
      ∀ age, t.host.link.sampled packet now = some age →
        ∃ seq sentAt, t.sends packet.header.flags.lane seq = [sentAt] ∧ age = (now - sentAt).tdiv 1000 := by
  rcases (tallied hr).2 with hfailed | h
  · rw [hf] at hfailed
    cases hfailed
  refine ⟨h.fresh, h.total, fun packet now => ⟨rtt_onPacket, fun age hage => ?_⟩⟩
  obtain ⟨seq, e, he, hone, rfl⟩ := sampled_spec hage
  have hl : packet.header.flags.lane ≠ .media := by
    intro hl
    rw [hl, h.media] at he
    cases he
  obtain ⟨hle, hlength, hlast⟩ := h.held _ seq e hl he
  obtain ⟨sentAt, hs⟩ := List.length_eq_one_iff.mp (by omega : (t.sends packet.header.flags.lane seq).length = 1)
  rw [hs, List.getLast?_singleton, Option.some.injEq] at hlast
  exact ⟨seq, sentAt, hs, by rw [hlast]⟩

def Spares (t : Timed) (call : TimePoint × Call) : Prop :=
  t.Fits call ∧ ∀ lane ∈ Lane.media :: StreamLanes,
    (t.host.link.mStreams lane).all (fun s => s.nextLost.1.all fun lost => lost.2.transmissions != 0) = true

instance (t : Timed) (call : TimePoint × Call) : Decidable (t.Spares call) := inferInstanceAs (Decidable (_ ∧ _))

lemma not_wears {call : TimePoint × Call} (h : t.Spares call) : ¬Wears t (t.made call) := by
  rintro ⟨lane, now, s, seq, e, -, hst, hlost, he⟩
  have hall := h.2 lane (by cases lane <;> decide)
  rw [hst, Option.all_some, hlost, Option.all_some, he] at hall
  cases hall

lemma run_sparing {calls : List (TimePoint × Call)}
    (h : Lib.Along Spares made { host := { link := .new {} 7 none }, clock := 0 } calls) :
    (sparing (fun _ _ => True) fun _ => True).Reachable (run {} calls) :=
  .along (fun _ call hc => ⟨step_made call hc.1, not_wears hc⟩) (.of_init ⟨⟨{}, 7, none, rfl⟩, rfl⟩) h

def sentTwice : Timed :=
  run {} (sendOne 0 .reliable ++ [(100000000, .onTimer 100000000), (100000000, .peek .reliable none),
    (100000000, .commit .reliable 100000000)] ++ sendOne 150000000 .control)

theorem counters_and_samples_twice :
    sentTwice.host.link.mStats.dataSent = 2 ∧ sentTwice.host.link.mStats.retransmissions = 1 ∧
    sentTwice.host.link.mStats.dataSent + sentTwice.host.link.mStats.retransmissions =
      sentTwice.host.link.mTransmissions ∧
    (sentTwice.host.link.onPacket (ackFor .control 1 []) 170000000).mRtt =
      sentTwice.host.link.mRtt.addSample 20000 ∧
    ∃ seq sentAt, sentTwice.sends .control seq = [sentAt] ∧ (20000 : ℤ) = (170000000 - sentAt).tdiv 1000 := by
  obtain ⟨hfresh, htotal, hack⟩ := counters_and_samples (t := sentTwice) (run_sparing (by decide +kernel))
    (by decide +kernel)
  obtain ⟨hrtt, hage⟩ := hack (ackFor .control 1 []) 170000000
  have hsampled : sentTwice.host.link.sampled (ackFor .control 1 []) 170000000 = some 20000 := by decide +kernel
  rw [hsampled] at hrtt
  refine ⟨?_, by decide +kernel, htotal, hrtt, hage 20000 hsampled⟩
  rw [hfresh]
  decide +kernel

/-- Sent again often enough, the packet counts as a new one. -/
theorem counter_wears_out : ∃ t, (Timed.system (fun _ _ => True) fun _ => True).Reachable t ∧
    t.host.link.mFailed = false ∧
    t.host.link.mStats.dataSent ≠ (StreamLanes.map fun lane =>
      (t.host.link.streamFor lane).nextSendSeq - 1).sum := by
  obtain ⟨t, s, e, hr, h⟩ := stuck (2 ^ 16)
  refine ⟨t, hr, h.alive, ?_⟩
  have hsum : (StreamLanes.map fun lane => (t.host.link.streamFor lane).nextSendSeq - 1).sum = 1 := by
    have hnew : ∀ lane ≠ .reliable, (t.host.link.streamFor lane).nextSendSeq = 1 := by
      intro lane hl
      rw [ReliableLink.streamFor, h.streams, Function.update_of_ne hl]
      rfl
    simp only [StreamLanes, List.map_cons, List.map_nil, List.sum_cons, List.sum_nil,
      h.toOnePacket.streamFor, h.next,
      hnew .control (by decide), hnew .bulk (by decide)]
    rfl
  rw [h.counted, hsum]
  decide

end Host.Timed

end NetLink.Channel
