import NetLink.Channel.ReliableLink.Moves

/-! The calls of a link as runs of moves. -/

namespace NetLink.Channel

/-- A sweep over the record stops at the first entry that is not due. -/
inductive Swept (due : InFlight → Bool) : ReliableLink → List SentRecord → ReliableLink → Prop
  | done (l : ReliableLink) : Swept due l [] { l with mSent := [] }
  | stop (l : ReliableLink) (record : SentRecord) (rest : List SentRecord) (e : InFlight)
      (he : l.entryOf record = some e) (hd : due e = false) :
      Swept due l (record :: rest) { l with mSent := record :: rest }
  | drop (l : ReliableLink) (record : SentRecord) (rest : List SentRecord) (l' : ReliableLink)
      (hn : l.entryOf record = none) (h : Swept due l rest l') : Swept due l (record :: rest) l'
  | mark (l : ReliableLink) (record : SentRecord) (rest : List SentRecord) (e : InFlight) (timedOut : Bool)
      (l' : ReliableLink) (he : l.entryOf record = some e) (hd : due e = true)
      (h : Swept due (l.markLost record e timedOut) rest l') : Swept due l (record :: rest) l'
  | count (l : ReliableLink) (records : List SentRecord) (stats : LinkStats) (l' : ReliableLink)
      (h : Swept due { l with mStats := stats } records l') : Swept due l records l'

lemma Swept.keeps {due : InFlight → Bool} {l l' : ReliableLink} {records : List SentRecord}
    {P : ReliableLink → Prop} (hs : Swept due l records l') (hl : P l)
    (hmark : ∀ l record e timedOut, l.entryOf record = some e → P l → P (l.markLost record e timedOut))
    (hrest : ∀ l sent stats, P l → P { l with mSent := sent, mStats := stats }) : P l' := by
  induction hs with
  | done l => exact hrest l [] l.mStats hl
  | stop l record rest e he hd => exact hrest l (record :: rest) l.mStats hl
  | drop l record rest l' hn _ ih => exact ih hl
  | mark l record rest e timedOut l' he hd _ ih => exact ih (hmark l record e timedOut he hl)
  | count l records stats l' _ ih => exact ih (hrest l l.mSent stats hl)

namespace ReliableLink

variable {f : Feed} {l l' : ReliableLink} {h : Host} {lane : Lane} {record : SentRecord} {e : InFlight}
  {records : List SentRecord} {due : InFlight → Bool}

lemma entryOf_eq_some (he : l.entryOf record = some e) :
    (l.streamFor record.lane).inFlight.find record.seq = some e ∧ e.lost = false ∧
      e.transmission = record.transmission := by
  unfold entryOf at he
  split at he
  · simp at he
  · next s hs =>
    rw [Option.filter_eq_some_iff] at he
    rw [streamFor_of_some l record.lane s hs]
    simpa using he

lemma entryOf_eq_none (hn : l.entryOf record = none)
    (hf : (l.streamFor record.lane).inFlight.find record.seq = some e) (he : e.lost = false) :
    e.transmission ≠ record.transmission := by
  unfold entryOf at hn
  split at hn
  · next hs =>
    simp [streamFor, hs, Stream.new] at hf
  · next s hs =>
    rw [streamFor_of_some l record.lane s hs] at hf
    simpa [hf, he] using hn

lemma markLost_eq (l : ReliableLink) (record : SentRecord) (e : InFlight) (timedOut : Bool) :
    ∃ stats cwnd start, l.markLost record e timedOut =
      { l.setStream record.lane ((l.streamFor record.lane).givenUp record.seq e) with
        mStats := stats, mCongestionWindow := cwnd, mRecoveryStart := start } := by
  unfold markLost
  dsimp only
  generalize l.setStream record.lane ((l.streamFor record.lane).givenUp record.seq e) = l'
  cases timedOut <;> simp only [Bool.false_eq_true, if_true, if_false] <;> split <;> exact ⟨_, _, _, rfl⟩

lemma view_markLost (l : ReliableLink) (record : SentRecord) (e : InFlight) (timedOut : Bool)
    (rest : List SentRecord) (h : Host) :
    { l.markLost record e timedOut with mSent := rest }.view h =
      { (l.view h).set record.lane ((l.streamFor record.lane).givenUp record.seq e) with sent := rest } := by
  obtain ⟨stats, cwnd, start, hm⟩ := l.markLost_eq record e timedOut
  rw [hm, ← view_setStream]
  rfl

def overtaken (largest : ℕ) (e : InFlight) : Bool := decide (e.transmission + FastRetransmitThreshold ≤ largest)

def overdue (timeout : ℤ) (now : TimePoint) (e : InFlight) : Bool := decide (e.sentAt + fromMicros timeout ≤ now)

lemma detectLoop_swept (records : List SentRecord) (l : ReliableLink) (lost : Bool) :
    Swept (overtaken l.mLargestAcked) l records (detectLoop records l lost).2 := by
  induction records generalizing l lost with
  | nil => exact .done l
  | cons record rest ih =>
    rw [detectLoop]
    split
    · next hn => exact .drop _ _ _ _ hn (ih ..)
    · next e he =>
      have ht := (entryOf_eq_some he).2.2
      split
      · next hlt => exact .stop _ _ _ e he (decide_eq_false (by omega))
      · next hge =>
        have hlargest : (l.markLost record e false).mLargestAcked = l.mLargestAcked := by
          obtain ⟨stats, cwnd, start, hm⟩ := l.markLost_eq record e false
          rw [hm]
          rfl
        exact .mark _ _ _ e false _ he (decide_eq_true (by omega)) (hlargest ▸ ih ..)

lemma timeoutLoop_swept (timeout : ℤ) (now : TimePoint) (records : List SentRecord) (l : ReliableLink)
    (expired : Bool) : Swept (overdue timeout now) l records (timeoutLoop timeout now records l expired).2 := by
  induction records generalizing l expired with
  | nil => exact .done l
  | cons record rest ih =>
    rw [timeoutLoop]
    refine .count _ _ { l.mStats with timerWork := l.mStats.timerWork + 1 } _ ?_
    split
    · next hn => exact .drop _ _ _ _ hn (ih ..)
    · next e he =>
      split
      · next hlt => exact .stop _ _ _ e he (decide_eq_false (not_le.mpr hlt))
      · next hge => exact .mark _ _ _ e true _ he (decide_eq_true (not_lt.mp hge)) (ih ..)

lemma swept_run (hk : f.sweeps) (hs : Swept due l records l') :
    LinkRun f ({ l with mSent := records }.view h) (l'.view h) := by
  induction hs with
  | done l => exact .refl _
  | stop l record rest e he hd => exact .refl _
  | drop l record rest l' hn _ ih =>
    exact .head (.drop _ record rest hk rfl fun e hf he => entryOf_eq_none hn hf he) ih
  | mark l record rest e timedOut l' he hd _ ih =>
    obtain ⟨hf, hl, ht⟩ := entryOf_eq_some he
    rw [view_markLost] at ih
    exact .head (.giveUp _ record rest e hk rfl hf hl ht) ih
  | count l records stats l' _ ih => exact ih

lemma receivedVia_run (hk : f.receives) (hl : lane ≠ .media) (hr : ReceivedVia (f.data lane) lane l l') :
    LinkRun f (l.view h) (l'.view h) := by
  obtain ⟨s, ms, budget, stats, due, hr, rfl⟩ := hr
  rw [view_received]
  exact .recv hk hl hr rfl

lemma setPeerPaused_eq (l : ReliableLink) (lane : Lane) (s : Stream) (paused : Bool) (now : TimePoint) :
    ∃ paused' time interval stalled, l.setPeerPaused lane s paused now =
      { l.setStream lane (s.tuned paused' s.ackSerial time interval) with mStalledSince := stalled } := by
  unfold setPeerPaused
  split
  · exact ⟨s.peerPaused, s.probeAt, s.probeInterval, l.mStalledSince, rfl⟩
  · cases paused with
    | true =>
      obtain ⟨stalled, he⟩ := updateProgressClock_eq (l.setStream lane { s with
        peerPaused := true
        probeInterval := max (l.mRtt.rto.tdiv 1000) MinPauseProbeInterval
        probeAt := some (now + fromMillis (max (l.mRtt.rto.tdiv 1000) MinPauseProbeInterval)) }) now false
      exact ⟨true, _, _, stalled, he⟩
    | false =>
      obtain ⟨stalled, he⟩ :=
        updateProgressClock_eq (l.setStream lane { s with peerPaused := false, probeAt := none })
        now false
      exact ⟨false, none, s.probeInterval, stalled, he⟩

lemma noteSerial_eq (l : ReliableLink) (lane : Lane) (s : Stream) (header : PacketHeader) (ack : AckBody)
    (now : TimePoint) :
    s.ackSerial.all (isLaterSerial ack.serial) = false ∧ l.noteSerial lane s header ack now = l ∨
      s.ackSerial.all (isLaterSerial ack.serial) = true ∧ ∃ paused time interval stalled,
        l.noteSerial lane s header ack now =
          { l.setStream lane (s.tuned paused (some ack.serial) time interval) with
            mStats := { l.mStats with mediaReceivedByPeer := ack.mediaReceived }
            mStalledSince := stalled } := by
  rw [noteSerial]
  split
  next hs =>
    obtain ⟨paused, time, interval, stalled, he⟩ := setPeerPaused_eq
      { l with mStats := { l.mStats with mediaReceivedByPeer := ack.mediaReceived } } lane
      { s with ackSerial := some ack.serial } header.flags.isPaused now
    exact .inr ⟨hs, paused, time, interval, stalled, he⟩
  next hs => exact .inl ⟨Bool.eq_false_iff.mpr hs, rfl⟩

lemma view_noteSerial {s : Stream} (hs : l.mStreams lane = some s) (header : PacketHeader) (ack : AckBody)
    (now : TimePoint) : ∃ paused serial time interval, (l.noteSerial lane s header ack now).view h =
      (l.view h).set lane (s.tuned paused serial time interval) := by
  rcases noteSerial_eq l lane s header ack now with ⟨-, he⟩ | ⟨-, paused, time, interval, stalled, he⟩
  · refine ⟨s.peerPaused, s.ackSerial, s.probeAt, s.probeInterval, ?_⟩
    obtain rfl := streamFor_of_some l lane s hs
    rw [he]
    exact ((l.view h).set_streams lane).symm
  · refine ⟨paused, some ack.serial, time, interval, ?_⟩
    rw [he, ← view_setStream]
    rfl

lemma release_run (v : LinkView) (lane : Lane) (start : ℕ) (seqs : List ℕ) (scan : AckScan) (hk : f.releases)
    (ha : ∀ seq ∈ seqs, f.acked lane seq) :
    LinkRun f (v.set lane scan.stream) (v.set lane (seqs.foldl (AckScan.release start) scan).stream) := by
  induction seqs generalizing scan with
  | nil => exact .refl _
  | cons seq seqs ih =>
    rw [List.foldl_cons]
    refine LinkRun.trans ?_ (ih _ fun t ht => ha t (List.mem_cons_of_mem _ ht))
    unfold AckScan.release SequenceBuffer.take
    cases hf : scan.stream.inFlight.find seq with
    | none => exact .refl _
    | some e =>
      have hm := LinkMove.release (v.set lane scan.stream) lane seq e hk (ha seq (List.mem_cons_self ..))
        (by simpa using hf)
      simpa using LinkRun.single hm

end ReliableLink

section AdvanceBase

variable (inFlight : SequenceBuffer InFlight)

lemma le_advanceBase (n base : ℕ) : base ≤ advanceBase inFlight n base := by
  induction n generalizing base with
  | zero => exact le_rfl
  | succ n ih =>
    unfold advanceBase
    split
    · exact le_rfl
    · exact (Nat.le_succ _).trans (ih _)

lemma advanceBase_le (n base : ℕ) : advanceBase inFlight n base ≤ base + n := by
  induction n generalizing base with
  | zero => exact le_rfl
  | succ n ih =>
    unfold advanceBase
    split
    · omega
    · exact (ih _).trans (by omega)

lemma not_contains_below_advanceBase (n base seq : ℕ) (hlo : base ≤ seq)
    (hhi : seq < advanceBase inFlight n base) : ¬inFlight.contains seq := by
  induction n generalizing base with
  | zero => exact absurd hhi (by simpa [advanceBase] using hlo)
  | succ n ih =>
    unfold advanceBase at hhi
    split at hhi
    · omega
    · next hc =>
      rcases Nat.eq_or_lt_of_le hlo with rfl | hlt
      · exact hc
      · exact ih (base + 1) hlt hhi

lemma advanceBase_stops (n base : ℕ) :
    advanceBase inFlight n base = base + n ∨ inFlight.contains (advanceBase inFlight n base) := by
  induction n generalizing base with
  | zero => exact .inl rfl
  | succ n ih =>
    unfold advanceBase
    split
    · next hc =>
      exact .inr hc
    · rcases ih (base + 1) with he | hc
      · exact .inl (by omega)
      · exact .inr hc

end AdvanceBase

lemma mem_interval {a b seq : ℕ} : seq ∈ interval a b ↔ a ≤ seq ∧ seq ≤ b := by
  simp only [interval, List.mem_range'_1]
  omega

lemma Stream.mem_ackedSeqs {s : Stream} {header : PacketHeader} {ack : AckBody} {seq : ℕ}
    (hm : seq ∈ s.ackedSeqs header ack) : s.sendBase ≤ seq ∧ seq ≤ s.nextSendSeq - 1 ∧
    (seq ≤ header.seq ∨ ∃ r ∈ ack.ranges, r.first ≤ seq ∧ seq ≤ r.last) := by
  simp only [ackedSeqs, List.mem_append, List.mem_flatMap, mem_interval, Nat.le_min] at hm
  rcases hm with ⟨hb, hs, hl⟩ | ⟨r, hr, hm⟩
  · exact ⟨hb, hl, .inl hs⟩
  · split at hm
    · simp at hm
    · simp only [mem_interval, Nat.max_le, Nat.le_min] at hm
      exact ⟨hm.1.2, hm.2.2, .inr ⟨r, hr, hm.1.1, hm.2.1⟩⟩

namespace ReliableLink

variable {f : Feed} {l : ReliableLink} {h : Host} {lane : Lane} {header : PacketHeader} {ack : AckBody}

lemma acknowledge_run (v : LinkView) (lane : Lane) (header : PacketHeader) (ack : AckBody) (start largest : ℕ)
    (hk : f.releases) (ha : ∀ seq ∈ (v.streams lane).ackedSeqs header ack, f.acked lane seq) :
    LinkRun f v (v.set lane ((v.streams lane).acknowledge header ack start largest).stream) := by
  have hr := release_run v lane start _ { stream := v.streams lane, largestAcked := largest } hk ha
  rw [LinkView.set_streams] at hr
  unfold Stream.acknowledge
  dsimp only
  generalize ((v.streams lane).ackedSeqs header ack).foldl (AckScan.release start)
    { stream := v.streams lane, largestAcked := largest } = scan at hr ⊢
  have hm := LinkMove.advance (f := f) (v.set lane scan.stream) lane
    (advanceBase scan.stream.inFlight (scan.stream.nextSendSeq - scan.stream.sendBase) scan.stream.sendBase)
  simp only [LinkView.streams_set, LinkView.set_set] at hm
  have hle := advanceBase_le scan.stream.inFlight
    (scan.stream.nextSendSeq - scan.stream.sendBase) scan.stream.sendBase
  exact hr.tail (hm hk (le_advanceBase ..) (by omega) (not_contains_below_advanceBase _ _ _))

lemma noteAcked_eq (scan : AckScan) (now : TimePoint) :
    ∃ rtt timeouts, l.noteAcked scan now = { l with mRtt := rtt, mTimeoutsInARow := timeouts } := by
  unfold noteAcked
  dsimp only
  split <;> exact ⟨_, _, rfl⟩

lemma growWindow_eq (l : ReliableLink) (lane : Lane) (losses : Bool) (counted : ℕ) :
    ∃ cwnd, l.growWindow lane losses counted = { l with mCongestionWindow := cwnd } := by
  unfold growWindow
  dsimp only
  split <;> exact ⟨_, rfl⟩

lemma afterAck_swept (l : ReliableLink) (lane : Lane) (scan : AckScan) (now : TimePoint) :
    ∃ due rtt timeouts l', Swept due { l with mRtt := rtt, mTimeoutsInARow := timeouts } l.mSent l' ∧
      ∃ stalled cwnd, l.afterAck lane scan now =
        { l' with mStalledSince := stalled, mCongestionWindow := cwnd } := by
  obtain ⟨rtt, timeouts, hl⟩ := noteAcked_eq (l := l) scan now
  refine ⟨_, rtt, timeouts, _, detectLoop_swept _ _ false, ?_⟩
  unfold afterAck detectLosses
  rw [hl]
  dsimp only
  obtain ⟨stalled, he⟩ := updateProgressClock_eq
    (detectLoop l.mSent { l with mRtt := rtt, mTimeoutsInARow := timeouts } false).2 now (scan.acked > 0)
  rw [he]
  obtain ⟨cwnd, hg⟩ := growWindow_eq { (detectLoop l.mSent
    { l with mRtt := rtt, mTimeoutsInARow := timeouts } false).2 with mStalledSince := stalled } lane
    (detectLoop l.mSent { l with mRtt := rtt, mTimeoutsInARow := timeouts } false).1 scan.counted
  exact ⟨stalled, cwnd, hg⟩

lemma afterAck_run (hk : f.sweeps) (scan : AckScan) (now : TimePoint) :
    LinkRun f (l.view h) ((l.afterAck lane scan now).view h) := by
  obtain ⟨_, rtt, timeouts, l', hs, stalled, cwnd, he⟩ := afterAck_swept l lane scan now
  have hr := swept_run (h := h) hk hs
  rw [he]
  exact hr

lemma applyAck_run {now : TimePoint} (hr : f.releases) (hw : f.sweeps)
    (ha : ∀ seq, (seq ≤ header.seq ∨ ∃ r ∈ ack.ranges, r.first ≤ seq ∧ seq ≤ r.last) → f.acked lane seq) :
    LinkRun f (l.view h) ((l.applyAck lane header ack now).view h) := by
  refine LinkRun.trans ?_ (afterAck_run hw ..)
  rw [view_setStream]
  exact acknowledge_run _ lane header ack _ _ hr fun seq hm => ha seq (Stream.mem_ackedSeqs hm).2.2

lemma noteSerial_run {s : Stream} (header : PacketHeader) (ack : AckBody) (now : TimePoint)
    (hs : l.mStreams lane = some s) :
    LinkRun f (l.view h) ((l.noteSerial lane s header ack now).view h) := by
  obtain ⟨paused, serial, time, interval, hv⟩ := view_noteSerial (h := h) hs header ack now
  rw [hv, ← streamFor_of_some l lane s hs]
  exact .single (.tune (l.view h) lane paused serial time interval)

lemma handleMedia_run (body : List UInt8) : LinkRun f (l.view h) ((l.handleMedia header body).view h) := by
  unfold handleMedia
  dsimp only
  split
  · exact .refl _
  · next message _ =>
    have hm := LinkMove.deliverMedia (f := f) (l.view h) ⟨.media, message.tag, message.body⟩ rfl
    rw [view, List.append_assoc] at hm
    exact .single hm

end ReliableLink

def Packet.feed (packet : Packet) : Feed where
  source _ _ := False
  data lane header body :=
    packet.header.flags.kind = .data ∧ packet.header.flags.lane = lane ∧ header = packet.header ∧
      body = packet.body
  acked := packet.acks
  stray := packet.header.flags.kind = .ack ∧ packet.header.flags.lane = .media
  receives := packet.header.flags.kind = .data
  releases := packet.header.flags.kind = .ack
  sweeps := packet.header.flags.kind = .ack

namespace ReliableLink

variable {l : ReliableLink} {h : Host} {lane : Lane}

lemma onAck_run {packet : Packet} {now : TimePoint} (hk : packet.header.flags.kind = .ack) :
    LinkRun packet.feed (l.view h) ((l.onAck packet now).view h) := by
  unfold onAck
  dsimp only
  split
  · next s ack hs ha =>
    exact (noteSerial_run packet.header ack now hs).trans (applyAck_run hk hk fun seq hc => ⟨hk, rfl, ack, ha, hc⟩)
  · exact .refl _

lemma dispatch_run (packet : Packet) (now : TimePoint) :
    LinkRun packet.feed (l.view h) ((l.dispatch packet now).view h) := by
  unfold dispatch
  dsimp only
  cases hk : packet.header.flags.kind with
  | data =>
    dsimp only
    split
    · exact handleMedia_run _
    · next hm =>
      exact receivedVia_run hk hm (handleData_received hm ⟨hk, rfl, rfl, rfl⟩)
  | ack =>
    exact (checkIndex_run (f := packet.feed) l h packet.header.flags.lane fun hl => ⟨hk, hl⟩).trans (onAck_run hk)
  | ping => exact .refl _
  | beacon => exact .refl _

lemma onPacket_cases (l : ReliableLink) (packet : Packet) (now : TimePoint) :
    (∃ stats, l.onPacket packet now = { l with mStats := stats }) ∨ ∃ remote last,
      l.onPacket packet now = { l with mRemoteStreamID := remote, mLastReceived := last }.dispatch packet now := by
  unfold onPacket
  dsimp only
  split
  · exact .inl ⟨l.mStats, rfl⟩
  split
  · exact .inl ⟨_, rfl⟩
  · exact .inr ⟨_, _, rfl⟩

lemma onPacket_run (packet : Packet) (now : TimePoint) :
    LinkRun packet.feed (l.view h) ((l.onPacket packet now).view h) := by
  rcases onPacket_cases l packet now with ⟨stats, he⟩ | ⟨remote, last, he⟩
  · rw [he]
    exact .refl _
  · rw [he]
    have hr := dispatch_run (l := { l with mRemoteStreamID := remote, mLastReceived := last }) (h := h) packet now
    exact hr

lemma retried_run {f : Feed} (hk : f.receives) (hl : lane ≠ .media) :
    LinkRun f (l.view h) ((if (l.mStreams lane).isSome then l.retryRefused lane else l).view h) := by
  split
  · next hs =>
    exact receivedVia_run hk hl (retryRefused_received hs)
  · exact .refl _

lemma makeAck_run {f : Feed} (hk : f.receives) (hl : lane ≠ .media) :
    LinkRun f (l.view h) ((l.makeAck lane).2.view h) :=
  retried_run hk hl

lemma makeAck_tells {other : Lane} {seq : ℕ} (ha : (l.makeAck lane).1.acks other seq) :
    ((l.makeAck lane).2.streamFor other).Tells seq := by
  unfold makeAck at ha ⊢
  dsimp only at ha ⊢
  generalize (if (l.mStreams lane).isSome then l.retryRefused lane else l) = l₁ at ha ⊢
  obtain ⟨-, hlane, ack, hack, hseq⟩ := ha
  simp only [makeDatagram, PacketHeader.onWire, makeHeader, PacketFlags.lane_ack] at hlane hseq
  subst hlane
  obtain rfl := Option.some.inj hack
  change (l₁.streamFor lane).Tells seq
  have hcov := covers_toRanges (((l₁.mStreams lane).map fun s =>
    if s.reorder.isEmpty then [] else s.reorder.entries.map (·.1)).getD [])
  rcases hseq with hle | ⟨r, hr, hlo, hhi⟩
  · left
    cases hs : l₁.mStreams lane with
    | none =>
      simp only [hs, Option.map_none, Option.getD_none] at hle
      exact hle.trans (Nat.zero_le _)
    | some s =>
      rw [streamFor_of_some l₁ lane s hs]
      simpa [hs] using hle
  · right
    have hmem := (hcov r (List.mem_of_mem_take hr)).2 seq hlo hhi
    cases hs : l₁.mStreams lane with
    | none => simp [hs] at hmem
    | some s =>
      rw [streamFor_of_some l₁ lane s hs]
      simp only [hs, Option.map_some, Option.getD_some] at hmem
      split at hmem
      · simp at hmem
      · exact hmem

lemma seq_makeAck (l : ReliableLink) (lane : Lane) :
    (l.makeAck lane).1.header.seq ≤
      ((l.makeAck lane).2.streamFor (l.makeAck lane).1.header.flags.lane).nextExpected - 1 := by
  unfold makeAck
  dsimp only
  generalize (if (l.mStreams lane).isSome then l.retryRefused lane else l) = l₁
  simp only [makeDatagram, PacketHeader.onWire, makeHeader, PacketFlags.lane_ack]
  change _ ≤ (l₁.streamFor lane).nextExpected - 1
  cases hs : l₁.mStreams lane with
  | none => exact Nat.zero_le _
  | some s =>
    rw [streamFor_of_some l₁ lane s hs]
    exact le_rfl

lemma fillAck_run {f : Feed} (hk : f.receives) (hl : lane ≠ .media) :
    LinkRun f (l.view h) ((l.fillAck lane).view h) := by
  unfold fillAck
  split
  · refine (makeAck_run hk hl).tail (.queue _ (l.makeAck lane).1 ?_ (fun other seq => makeAck_tells)
      fun _ => seq_makeAck l lane)
    simp [makeAck, makeDatagram, PacketHeader.onWire, makeHeader]
  · exact .refl _

lemma fillPing_run {f : Feed} : LinkRun f (l.view h) ((l.fillPing lane).view h) := by
  unfold fillPing
  split
  · refine .single (.queue _ (l.makePing lane).1 ?_ (fun other seq ha => ?_) fun ha => ?_)
    · simp [makePing, makeDatagram, PacketHeader.onWire, makeHeader]
    · simp [Packet.acks, makePing, makeDatagram, PacketHeader.onWire, makeHeader] at ha
    · simp [makePing, makeDatagram, PacketHeader.onWire, makeHeader] at ha
  · exact .refl _

lemma foldl_run {f : Feed} {g : ReliableLink → Lane → ReliableLink} {lanes : List Lane}
    (hg : ∀ l, ∀ lane ∈ lanes, LinkRun f (l.view h) ((g l lane).view h)) :
    LinkRun f (l.view h) ((lanes.foldl g l).view h) := by
  induction lanes generalizing l with
  | nil => exact .refl _
  | cons lane lanes ih =>
    exact (hg l lane (List.mem_cons_self ..)).trans (ih fun l other ho => hg l other (List.mem_cons_of_mem _ ho))

lemma ne_media_of_mem_streamLanes (hm : lane ∈ StreamLanes) : lane ≠ .media := by
  rintro rfl
  simp [StreamLanes] at hm

lemma peekAck_run {f : Feed} (hk : f.receives) : LinkRun f (l.view h) (l.peekAck.2.view h) := by
  unfold peekAck
  split
  · exact .refl _
  · dsimp only
    split
    · have hr : LinkRun f (l.view h) (l.fillAcks.view h) := foldl_run fun l lane hm =>
        (fillAck_run hk (ne_media_of_mem_streamLanes hm)).trans fillPing_run
      exact hr
    · exact .refl _

lemma probe_run {f : Feed} (now : TimePoint) : LinkRun f (l.view h) ((probe now l lane).view h) := by
  unfold probe
  split
  · exact .refl _
  · next s hs =>
    split
    · dsimp only
      rw [view_setStream]
      obtain rfl := streamFor_of_some l lane s hs
      exact .single (.tune (l.view h) lane _ _ _ _)
    · exact .refl _

lemma keepAlive_eq (now : TimePoint) :
    ∃ due pinged, l.keepAlive now = { l with mPingDue := due, mPingedAt := pinged } := by
  unfold keepAlive
  split <;> exact ⟨_, _, rfl⟩

lemma backOff_eq (expired : Bool) : ∃ n, l.backOff expired = { l with mTimeoutsInARow := n } := by
  unfold backOff
  split <;> exact ⟨_, rfl⟩

lemma onTimer_swept (l : ReliableLink) (now : TimePoint) : l.onTimer now = l ∨ l.onTimer now = l.fail ∨
    ∃ late due pinged l', Swept late { l with mPingDue := due, mPingedAt := pinged } l.mSent l' ∧
      ∃ n, l.onTimer now = StreamLanes.foldl (probe now) { l' with mTimeoutsInARow := n } := by
  unfold onTimer
  split
  · exact .inl rfl
  split
  · exact .inr (.inl rfl)
  obtain ⟨due, pinged, hk⟩ := keepAlive_eq (l := l) now
  rw [hk]
  dsimp only
  generalize hl : timeoutLoop (l.mRtt.timeoutFor l.mTimeoutsInARow) now l.mSent
    { l with mPingDue := due, mPingedAt := pinged } false = r
  obtain ⟨n, hb⟩ := backOff_eq (l := r.2) r.1
  exact .inr (.inr ⟨_, due, pinged, r.2, hl ▸ timeoutLoop_swept .., n, by rw [hb]⟩)

lemma onTimer_run {f : Feed} (hk : f.sweeps) (now : TimePoint) :
    l.onTimer now = l.fail ∨ LinkRun f (l.view h) ((l.onTimer now).view h) := by
  rcases onTimer_swept l now with he | he | ⟨_, due, pinged, l', hs, n, he⟩
  · rw [he]
    exact .inr (.refl _)
  · exact .inl he
  · rw [he]
    have hr := swept_run (h := h) hk hs
    exact .inr (LinkRun.trans hr (foldl_run (l := { l' with mTimeoutsInARow := n }) fun l lane _ => probe_run now))

end ReliableLink

end NetLink.Channel
