import NetLink.Channel.ReliableLink.Pace
import NetLink.Channel.RttBounds

/-! The clocks of a link that run while it waits: the stall clock of its unacknowledged packets, and the probe
clock of every lane the peer paused. -/

namespace NetLink.Channel

structure RttEstimator.Within (r : RttEstimator) (t : LinkTimings) : Prop where
  min : r.mMinRto = t.minRto * 1000
  max : r.mMaxRto = t.maxRto * 1000
  rto : t.minRto ≤ t.maxRto → r.mMinRto ≤ r.mRto ∧ r.mRto ≤ r.mMaxRto

namespace RttEstimator

variable {r : RttEstimator} {t : LinkTimings}

lemma within_new (t : LinkTimings) : (new t.initialRto t.minRto t.maxRto).Within t where
  min := rfl
  max := rfl
  rto h := by
    have hle : t.minRto * 1000 ≤ t.maxRto * 1000 := by omega
    exact ⟨le_clampTo hle _, clampTo_le hle _⟩

lemma Within.clamped (h : r.Within t) (value : ℤ) : { r with mRto := r.clamp value }.Within t where
  min := h.min
  max := h.max
  rto hle := by
    have hle : r.mMinRto ≤ r.mMaxRto := by rw [h.min, h.max]; omega
    exact ⟨le_clampTo hle value, clampTo_le hle value⟩

lemma Within.addSample (h : r.Within t) (rtt : ℤ) : (r.addSample rtt).Within t := by
  rw [RttEstimator.addSample]
  split
  · exact h
  · refine Within.clamped ?_ _
    split <;> exact ⟨h.min, h.max, h.rto⟩

lemma Within.reset (h : r.Within t) : r.reset.Within t := by
  have hc := h.clamped r.mInitialRto
  exact ⟨hc.min, hc.max, hc.rto⟩

lemma Within.timeoutFor_le_succ (h : r.Within t) (hle : t.minRto ≤ t.maxRto) (hpos : 0 < t.minRto) (n : ℕ) :
    r.timeoutFor n ≤ r.timeoutFor (n + 1) := by
  have hmin := h.min
  have hrto := (h.rto hle).1
  exact monotone_timeoutFor (by omega) hrto n.le_succ

end RttEstimator

structure Stream.Pausing where
  empty : Bool
  peerPaused : Bool
  probeAt : Option TimePoint
  probeInterval : ℤ

def Stream.pausing (s : Stream) : Stream.Pausing where
  empty := s.inFlight.isEmpty
  peerPaused := s.peerPaused
  probeAt := s.probeAt
  probeInterval := s.probeInterval

def Stream.Probed (s : Stream) (timings : LinkTimings) : Prop :=
  s.peerPaused = true → s.probeAt.isSome = true ∧ (0 < timings.maxRto → 0 < s.probeInterval)

lemma Stream.Probed.congr {s t : Stream} {timings : LinkTimings} {empty : Bool} (h : s.Probed timings)
    (hp : t.pausing = { s.pausing with empty := empty }) : t.Probed timings := by
  simp only [pausing, Pausing.mk.injEq] at hp
  rw [Probed, hp.2.1, hp.2.2.1, hp.2.2.2]
  exact h

lemma Stream.pausing_release (recoveryStart : ℕ) (scan : AckScan) (seq : ℕ) :
    (scan.release recoveryStart seq).stream.pausing =
      { scan.stream.pausing with empty := (scan.release recoveryStart seq).stream.inFlight.isEmpty } := by
  rw [AckScan.release]
  split <;> rfl

lemma Stream.pausing_acknowledge (s : Stream) (header : PacketHeader) (ack : AckBody) (start largest : ℕ) :
    (s.acknowledge header ack start largest).stream.pausing =
      { s.pausing with empty := (s.acknowledge header ack start largest).stream.inFlight.isEmpty } := by
  have hfold : ∀ (seqs : List ℕ) (scan : AckScan), (seqs.foldl (AckScan.release start) scan).stream.pausing =
      { scan.stream.pausing with empty := (seqs.foldl (AckScan.release start) scan).stream.inFlight.isEmpty } := by
    intro seqs
    induction seqs with
    | nil => exact fun _ => rfl
    | cons seq seqs ih =>
      intro scan
      rw [List.foldl_cons, ih, pausing_release]
  exact hfold (s.ackedSeqs header ack) { stream := s, largestAcked := largest }

lemma Stream.pausing_givenUp (s : Stream) (seq : ℕ) (e : InFlight) : (s.givenUp seq e).pausing = s.pausing := by
  have he : (s.inFlight.assign seq { e with lost := true }).isEmpty = s.inFlight.isEmpty := by
    rw [SequenceBuffer.assign]
    split <;> rfl
  rw [pausing, pausing, givenUp, he]

lemma Stream.pausing_of_outward {s t : Stream} (h : t.outward = s.outward) : t.pausing = s.pausing := by
  simp only [outward, Outward.mk.injEq] at h
  simp [pausing, h]

namespace ReliableLink

variable {l l' : ReliableLink} {lane : Lane} {s : Stream} {records : List SentRecord} {now : TimePoint}
  {heard : Option TimePoint} {due : InFlight → Bool}

def waiting (l : ReliableLink) : Bool :=
  StreamLanes.any fun lane => (l.mStreams lane).any fun s => !s.peerPaused && !s.inFlight.isEmpty

def pausing (l : ReliableLink) (lane : Lane) : Stream.Pausing := (l.streamFor lane).pausing

lemma waiting_eq (l : ReliableLink) :
    l.waiting = StreamLanes.any fun lane => !(l.pausing lane).peerPaused && !(l.pausing lane).empty := by
  have hlane : ∀ lane, (l.mStreams lane).any (fun s => !s.peerPaused && !s.inFlight.isEmpty) =
      (!(l.pausing lane).peerPaused && !(l.pausing lane).empty) := by
    intro lane
    rw [pausing, streamFor]
    cases l.mStreams lane <;> rfl
  simp only [waiting, hlane]

lemma waiting_congr (hp : ∀ lane, (l'.pausing lane).peerPaused = (l.pausing lane).peerPaused)
    (he : ∀ lane, (l'.pausing lane).empty = (l.pausing lane).empty) : l'.waiting = l.waiting := by
  simp only [waiting_eq, hp, he]

lemma waiting_setStream {t : Stream} (hs : l.mStreams lane = some s) (hp : t.peerPaused = s.peerPaused)
    (he : t.inFlight = s.inFlight) : (l.setStream lane t).waiting = l.waiting := by
  have key : ∀ other, ((l.setStream lane t).pausing other).peerPaused = (l.pausing other).peerPaused ∧
      ((l.setStream lane t).pausing other).empty = (l.pausing other).empty := by
    intro other
    rw [pausing, pausing, streamFor_setStream]
    by_cases ho : other = lane
    · subst ho
      rw [Function.update_self, streamFor_of_some l other s hs]
      exact ⟨hp, congrArg SequenceBuffer.isEmpty he⟩
    · rw [Function.update_of_ne ho]
      exact ⟨rfl, rfl⟩
  exact waiting_congr (fun other => (key other).1) fun other => (key other).2

lemma waiting_iff : l.waiting = true ↔
    ∃ lane ∈ StreamLanes, (l.streamFor lane).peerPaused = false ∧ (l.streamFor lane).inFlight.isEmpty = false := by
  rw [waiting_eq, List.any_eq_true]
  simp [pausing, Stream.pausing]

lemma pausing_setStream (h : s.pausing = l.pausing lane) : (l.setStream lane s).pausing = l.pausing := by
  funext other
  rw [pausing, streamFor_setStream]
  by_cases ho : other = lane
  · subst ho
    rw [Function.update_self, h]
  · rw [Function.update_of_ne ho]
    rfl

lemma pausing_of_pace (h : l'.pace = { l.pace with heard := heard }) :
    l'.pausing = l.pausing := by
  funext lane
  exact Stream.pausing_of_outward (congrFun (congrArg Pace.outward h) lane)

lemma updateProgressClock_stalled (l : ReliableLink) (now : TimePoint) (progress : Bool) :
    (l.updateProgressClock now progress).mStalledSince =
      if !l.waiting then none else if progress || l.mStalledSince.isNone then some now else l.mStalledSince := by
  rw [updateProgressClock, waiting]
  split
  · rfl
  · split <;> rfl

lemma isSome_updateProgressClock (l : ReliableLink) (now : TimePoint) (progress : Bool) :
    (l.updateProgressClock now progress).mStalledSince.isSome = l.waiting := by
  rw [updateProgressClock_stalled]
  cases l.waiting
  · rfl
  · cases progress <;> cases l.mStalledSince <;> rfl

lemma afterAck_eq (l : ReliableLink) (lane : Lane) (scan : AckScan) (now : TimePoint) :
    ∃ window, l.afterAck lane scan now =
      { (l.noteAcked scan now).detectLosses.2.updateProgressClock now (scan.acked > 0) with
      mCongestionWindow := window } := growWindow_eq ..

lemma swept_eq (h : Swept due l records l') : ∃ streams stats window start,
    l' = { l with
      mStreams := streams, mStats := stats, mCongestionWindow := window, mRecoveryStart := start,
      mSent := l'.mSent } ∧
    l'.pausing = l.pausing := by
  induction h with
  | done l => exact ⟨l.mStreams, l.mStats, l.mCongestionWindow, l.mRecoveryStart, rfl, rfl⟩
  | stop l record rest e he hd => exact ⟨l.mStreams, l.mStats, l.mCongestionWindow, l.mRecoveryStart, rfl, rfl⟩
  | drop l record rest l' hn _ ih => exact ih
  | mark l record rest e timedOut l' he hd _ ih =>
    obtain ⟨streams, stats, window, start, hl', hp⟩ := ih
    obtain ⟨_, _, _, hm⟩ := l.markLost_eq record e timedOut
    rw [hm] at hl' hp
    exact ⟨streams, stats, window, start, hl', hp.trans (pausing_setStream (Stream.pausing_givenUp ..))⟩
  | count l records stats l' _ ih => exact ih

def probed (l : ReliableLink) (now : TimePoint) (s : Stream) : Stream :=
  let interval := min (s.probeInterval * 2) l.mTimings.maxRto
  { s with probeInterval := interval, probeAt := some (now + fromMillis interval) }

def ProbeQuiet (l : ReliableLink) (now : TimePoint) (lane : Lane) : Prop :=
  (l.streamFor lane).peerPaused = true → ∀ d ∈ (l.streamFor lane).probeAt, now < d

lemma probe_cases (now : TimePoint) (l : ReliableLink) (lane : Lane) :
    (probe now l lane = l ∧ l.ProbeQuiet now lane) ∨
      ∃ s, l.mStreams lane = some s ∧ s.peerPaused = true ∧ s.probeAt.any (· ≤ now) = true ∧
        probe now l lane = (l.duePing lane).setStream lane (l.probed now s) := by
  rw [probe]
  split
  · next hs => exact .inl ⟨rfl, fun hp => absurd hp (by simp [streamFor, hs, Stream.new])⟩
  · next s hs =>
    split
    · next hc =>
      obtain ⟨hp, hd⟩ := Bool.and_eq_true_iff.mp hc
      exact .inr ⟨s, hs, hp, hd, rfl⟩
    · next hc =>
      refine .inl ⟨rfl, fun hp d hd => ?_⟩
      rw [streamFor_of_some l lane s hs] at hp hd
      rw [hp, Option.mem_def.mp hd] at hc
      simpa using hc

lemma probe_of_quiet (h : l.ProbeQuiet now lane) : probe now l lane = l := by
  rcases probe_cases now l lane with ⟨hp, -⟩ | ⟨s, hs, hpaused, hd, -⟩
  · exact hp
  · rw [ProbeQuiet, streamFor_of_some l lane s hs] at h
    rw [Option.any_eq_true] at hd
    obtain ⟨d, hmem, hle⟩ := hd
    exact absurd (h hpaused d hmem) (not_lt.mpr (of_decide_eq_true hle))

structure Clocked (l : ReliableLink) : Prop where
  rtt : l.mRtt.Within l.mTimings
  probes : ∀ lane, (l.streamFor lane).Probed l.mTimings

namespace Clocked

lemma congr (h : l.Clocked) (hp : l'.pausing = l.pausing) (ht : l'.mTimings = l.mTimings)
    (hr : l'.mRtt = l.mRtt) : l'.Clocked :=
  ⟨by rw [hr, ht]; exact h.rtt, fun lane => by rw [ht]; exact (h.probes lane).congr (congrFun hp lane)⟩

lemma setStream (h : l.Clocked) (hs : s.Probed l.mTimings) : (l.setStream lane s).Clocked := by
  refine ⟨h.rtt, fun other => ?_⟩
  rw [streamFor_setStream]
  by_cases ho : other = lane
  · subst ho
    rw [Function.update_self]
    exact hs
  · rw [Function.update_of_ne ho]
    exact h.probes other

lemma swept (h : l.Clocked) (hs : Swept due l records l') : l'.Clocked := by
  obtain ⟨streams, stats, window, start, he, hp⟩ := swept_eq hs
  exact h.congr hp (by rw [he]) (by rw [he])

lemma updateProgressClock (h : l.Clocked) (now : TimePoint) (progress : Bool) :
    (l.updateProgressClock now progress).Clocked := by
  obtain ⟨stalled, he⟩ := l.updateProgressClock_eq now progress
  rw [he]
  exact h.congr rfl rfl rfl

lemma setPeerPaused (h : l.Clocked) (hs : s.Probed l.mTimings) (paused : Bool) (now : TimePoint) :
    (l.setPeerPaused lane s paused now).Clocked := by
  rw [ReliableLink.setPeerPaused]
  split
  · exact h.setStream hs
  · refine updateProgressClock (h.setStream ?_) now false
    cases paused with
    | true =>
      refine fun _ => ⟨rfl, fun _ => ?_⟩
      exact lt_of_lt_of_le (by decide : (0 : ℤ) < MinPauseProbeInterval) (le_max_right _ _)
    | false => exact fun hp => absurd hp (by simp)

lemma noteSerial (h : l.Clocked) (hs : l.mStreams lane = some s) (header : PacketHeader) (ack : AckBody)
    (now : TimePoint) : (l.noteSerial lane s header ack now).Clocked := by
  rw [ReliableLink.noteSerial]
  split
  · have hp : ({ s with ackSerial := some ack.serial } : Stream).Probed l.mTimings :=
      ((streamFor_of_some l lane s hs) ▸ h.probes lane : s.Probed l.mTimings)
    have hc : ({ l with mStats := { l.mStats with mediaReceivedByPeer := ack.mediaReceived } } :
      ReliableLink).Clocked :=
      h.congr rfl rfl rfl
    exact hc.setPeerPaused hp header.flags.isPaused now
  · exact h

lemma noteAcked (h : l.Clocked) (scan : AckScan) (now : TimePoint) : (l.noteAcked scan now).Clocked := by
  rw [ReliableLink.noteAcked]
  split
  · refine ⟨?_, h.probes⟩
    cases scan.sampleSentAt with
    | none => exact h.rtt
    | some sentAt => exact h.rtt.addSample _
  · exact h

lemma detectLosses (h : l.Clocked) : l.detectLosses.2.Clocked := h.swept (detectLoop_swept l.mSent l false)

lemma afterAck (h : l.Clocked) (scan : AckScan) (now : TimePoint) : (l.afterAck lane scan now).Clocked := by
  obtain ⟨window, he⟩ := afterAck_eq l lane scan now
  rw [he]
  exact ((h.noteAcked scan now).detectLosses.updateProgressClock now _).congr rfl rfl rfl

lemma applyAck (h : l.Clocked) (header : PacketHeader) (ack : AckBody) (now : TimePoint) :
    (l.applyAck lane header ack now).Clocked := by
  have hl : ({ l with mLargestAcked := ((l.streamFor lane).acknowledge header ack l.mRecoveryStart
    l.mLargestAcked).largestAcked } : ReliableLink).Clocked := h.congr rfl rfl rfl
  exact (hl.setStream ((h.probes lane).congr (Stream.pausing_acknowledge ..))).afterAck _ now

lemma commit (h : l.Clocked) (lane : Lane) (now : TimePoint) : (l.commit lane now).Clocked := by
  rcases commit_pace l lane now with hp | ⟨-, s, t, seq, e, hs, he, ht, -⟩
  · exact h.congr (pausing_of_pace hp) (congrArg Pace.timings hp) (congrArg Pace.rtt hp)
  · obtain ⟨stats, htransmit⟩ := transmit_eq l lane t seq e now
    rw [he, htransmit]
    refine updateProgressClock (setStream ?_ ?_) now false
    · exact h.congr rfl rfl rfl
    have hprobed : s.Probed l.mTimings := streamFor_of_some l lane s hs ▸ h.probes lane
    simp only [Stream.outward, Stream.Outward.mk.injEq] at ht
    intro hpaused
    rw [Stream.Probed, ← ht.2.2.1, ← ht.2.2.2.1, ← ht.2.2.2.2] at hprobed
    exact hprobed hpaused

lemma probe (h : l.Clocked) (now : TimePoint) (lane : Lane) : (probe now l lane).Clocked := by
  rcases probe_cases now l lane with ⟨hp, -⟩ | ⟨s, hs, -, -, hp⟩
  · rwa [hp]
  · have hprobed : s.Probed l.mTimings := streamFor_of_some l lane s hs ▸ h.probes lane
    have hd : (l.duePing lane).Clocked := h.congr rfl rfl rfl
    rw [hp]
    refine hd.setStream fun hpaused => ⟨rfl, fun hmax => ?_⟩
    have hpos := (hprobed hpaused).2 hmax
    exact lt_min (by omega) hmax

lemma foldl_probe (h : l.Clocked) (now : TimePoint) (lanes : List Lane) :
    (lanes.foldl (ReliableLink.probe now) l).Clocked := by
  induction lanes generalizing l with
  | nil => exact h
  | cons lane lanes ih => exact ih (h.probe now lane)

lemma fail (h : l.Clocked) : l.fail.Clocked :=
  ⟨h.rtt.reset, fun lane hp => absurd hp (by simp [ReliableLink.fail, resetStreams, streamFor, Stream.new])⟩

lemma onTimer (h : l.Clocked) (now : TimePoint) : (l.onTimer now).Clocked := by
  rcases onTimer_swept l now with he | he | ⟨_, due, pinged, l', hs, n, he⟩
  · rwa [he]
  · rw [he]
    exact h.fail
  · have hl : ({ l with mPingDue := due, mPingedAt := pinged } : ReliableLink).Clocked := h.congr rfl rfl rfl
    have hn : ({ l' with mTimeoutsInARow := n } : ReliableLink).Clocked := (hl.swept hs).congr rfl rfl rfl
    rw [he]
    exact hn.foldl_probe now StreamLanes

lemma of_pace (h : l.Clocked)
    (hp : l'.pace = { l.pace with heard := heard }) : l'.Clocked :=
  h.congr (pausing_of_pace hp) (congrArg Pace.timings hp) (congrArg Pace.rtt hp)

lemma onPacket (h : l.Clocked) (packet : Packet) (now : TimePoint) : (l.onPacket packet now).Clocked := by
  rcases onPacket_pace l packet now with ⟨heard, hp⟩ | ⟨-, ack, -, k, s, ⟨heard, hk⟩, hs, he⟩
  · exact h.of_pace hp
  · rw [he]
    exact ((h.of_pace hk).noteSerial hs packet.header ack now).applyAck packet.header ack now

end Clocked

lemma waiting_updateProgressClock (l : ReliableLink) (now : TimePoint) (progress : Bool) :
    (l.updateProgressClock now progress).waiting = l.waiting := by
  obtain ⟨stalled, he⟩ := l.updateProgressClock_eq now progress
  rw [he]
  rfl

lemma isSome_afterAck (l : ReliableLink) (lane : Lane) (scan : AckScan) (now : TimePoint) :
    (l.afterAck lane scan now).mStalledSince.isSome = (l.afterAck lane scan now).waiting := by
  obtain ⟨window, he⟩ := afterAck_eq l lane scan now
  have hw := waiting_updateProgressClock (l.noteAcked scan now).detectLosses.2 now (scan.acked > 0)
  rw [he]
  exact (isSome_updateProgressClock ..).trans hw.symm

lemma waiting_probe (l : ReliableLink) (now : TimePoint) (lane : Lane) :
    (probe now l lane).waiting = l.waiting ∧ (probe now l lane).mStalledSince = l.mStalledSince := by
  rcases probe_cases now l lane with ⟨hp, -⟩ | ⟨s, hs, -, -, hp⟩
  · rw [hp]
    exact ⟨rfl, rfl⟩
  · rw [hp]
    exact ⟨waiting_setStream (l := l.duePing lane) hs rfl rfl, rfl⟩

lemma waiting_foldl_probe (l : ReliableLink) (now : TimePoint) (lanes : List Lane) :
    (lanes.foldl (probe now) l).waiting = l.waiting ∧
      (lanes.foldl (probe now) l).mStalledSince = l.mStalledSince := by
  induction lanes generalizing l with
  | nil => exact ⟨rfl, rfl⟩
  | cons lane lanes ih =>
    have hp := waiting_probe l now lane
    exact ⟨(ih _).1.trans hp.1, (ih _).2.trans hp.2⟩

structure Paced (l : ReliableLink) : Prop extends Clocked l where
  stalled : l.mStalledSince.isSome = l.waiting

namespace Paced

lemma congr (h : l.Paced) (hp : l'.pace = { l.pace with heard := heard }) :
    l'.Paced where
  toClocked := h.toClocked.of_pace hp
  stalled := by
    have hpausing := pausing_of_pace hp
    rw [show l'.mStalledSince = l.mStalledSince from congrArg Pace.stalled hp, h.stalled,
      waiting_congr (fun lane => by rw [hpausing]) fun lane => by rw [hpausing]]

lemma commit (h : l.Paced) (lane : Lane) (now : TimePoint) : (l.commit lane now).Paced := by
  refine ⟨h.toClocked.commit lane now, ?_⟩
  rcases commit_pace l lane now with hp | ⟨-, s, t, seq, e, -, he, -⟩
  · exact (h.congr hp).stalled
  · obtain ⟨stats, ht⟩ := transmit_eq l lane t seq e now
    rw [he, ht, isSome_updateProgressClock, waiting_updateProgressClock]

lemma onPacket (h : l.Paced) (packet : Packet) (now : TimePoint) : (l.onPacket packet now).Paced := by
  refine ⟨h.toClocked.onPacket packet now, ?_⟩
  rcases onPacket_pace l packet now with ⟨heard, hp⟩ | ⟨-, ack, -, k, s, -, -, he⟩
  · exact (h.congr hp).stalled
  · rw [he, handleAck, applyAck]
    exact isSome_afterAck ..

lemma onTimer (h : l.Paced) (now : TimePoint) : (l.onTimer now).Paced := by
  refine ⟨h.toClocked.onTimer now, ?_⟩
  rcases onTimer_swept l now with he | he | ⟨_, due, pinged, l', hs, n, he⟩
  · rw [he]
    exact h.stalled
  · rw [he]
    rfl
  · obtain ⟨streams, stats, window, start, hl', hp⟩ := swept_eq hs
    have hw : l'.waiting = l.waiting := waiting_congr (fun lane => by rw [hp]; rfl) fun lane => by rw [hp]; rfl
    have hst : l'.mStalledSince = l.mStalledSince := by rw [hl']
    obtain ⟨hw', hst'⟩ := waiting_foldl_probe { l' with mTimeoutsInARow := n } now StreamLanes
    rw [he, hw', hst']
    exact (congrArg Option.isSome hst).trans (h.stalled.trans hw.symm)

end Paced

end ReliableLink

lemma Host.Step.paced {source : Lane → OutboundMessage → Prop} {incoming : Packet → Prop} {h h' : Host}
    (hs : Host.Step source incoming h h') (hp : h.link.Paced) : h'.link.Paced := by
  rcases hs.pace with ⟨heard, he⟩ | ⟨lane, now, -, he⟩ | ⟨packet, now, -, he⟩ | ⟨now, he⟩
  · exact hp.congr he
  · exact he ▸ hp.commit lane now
  · exact he ▸ hp.onPacket packet now
  · exact he ▸ hp.onTimer now

lemma Host.Initial.paced {h : Host} (hi : h.Initial) : h.link.Paced := by
  obtain ⟨timings, id, budget, rfl⟩ := hi
  exact ⟨⟨RttEstimator.within_new timings, fun lane hp => absurd hp Bool.false_ne_true⟩, rfl⟩

lemma Host.paced {source : Lane → OutboundMessage → Prop} {incoming : Packet → Prop} {h : Host}
    (hr : (Host.system source incoming).Reachable h) : h.link.Paced :=
  hr.invariant (P := fun h => h.link.Paced) (fun _ hi => Host.Initial.paced hi) fun _ _ _ hp hs =>
    Host.Step.paced hs hp

end NetLink.Channel
