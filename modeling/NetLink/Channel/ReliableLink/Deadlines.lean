import Mathlib.Algebra.Order.Group.Int
import Mathlib.Algebra.Order.Group.Unbundled.Basic
import NetLink.Channel.ReliableLink.Clocks
import NetLink.Channel.ReliableLink.Guarantees

/-! `nextDeadline` and `onTimer` agree: nothing happens before the deadline, and none is left behind. -/

namespace NetLink.Channel

namespace ReliableLink

variable {l l' : ReliableLink} {lane : Lane} {s : Stream} {now : TimePoint}

def frontDeadline (l : ReliableLink) : Option TimePoint :=
  l.mSent.head?.bind fun record =>
    ((l.mStreams record.lane).bind fun s => s.inFlight.find record.seq).map fun entry =>
      entry.sentAt + fromMicros (l.mRtt.timeoutFor l.mTimeoutsInARow)

def silenceDeadlines (l : ReliableLink) : List TimePoint :=
  (l.mStalledSince.map (· + fromMillis l.mTimings.peerTimeout)).toList ++
    (l.mLastReceived.map (· + fromMillis l.mTimings.peerTimeout)).toList

def pingDeadline (l : ReliableLink) : Option TimePoint :=
  l.mLastReceived.bind fun t => l.mRemoteStreamID.map fun _ => max t l.mPingedAt + fromMillis l.mTimings.keepAlive

def probeDeadlines (l : ReliableLink) : List TimePoint :=
  StreamLanes.filterMap fun lane => (l.mStreams lane).bind fun s => if s.peerPaused then s.probeAt else none

def deadlines (l : ReliableLink) : List TimePoint :=
  l.frontDeadline.toList ++ l.silenceDeadlines ++ l.pingDeadline.toList ++ l.probeDeadlines

lemma nextDeadline_eq (l : ReliableLink) : l.nextDeadline = l.deadlines.foldl earliest none := by
  rw [deadlines, silenceDeadlines, ← List.append_assoc]
  rfl

lemma lt_foldl_earliest (times : List TimePoint) (next : Option TimePoint) :
    (∀ d ∈ times.foldl earliest next, now < d) ↔ (∀ d ∈ next, now < d) ∧ ∀ d ∈ times, now < d := by
  induction times generalizing next with
  | nil => simp
  | cons time times ih =>
    have he : (∀ d ∈ earliest next time, now < d) ↔ (∀ d ∈ next, now < d) ∧ now < time := by
      cases next with
      | none => simp [earliest]
      | some n =>
        rw [earliest]
        split
        · next h => simpa using fun ht => lt_trans ht h
        · next h => simpa using fun hn => lt_of_lt_of_le hn (not_lt.mp h)
    rw [List.foldl_cons, ih, he, List.forall_mem_cons, and_assoc]

lemma isSome_foldl_earliest (times : List TimePoint) (next : Option TimePoint) :
    (times.foldl earliest next).isSome = (next.isSome || !times.isEmpty) := by
  induction times generalizing next with
  | nil => simp
  | cons time times ih =>
    have he : (earliest next time).isSome = true := by
      cases next with
      | none => rfl
      | some n =>
        rw [earliest]
        split <;> rfl
    rw [List.foldl_cons, ih, he]
    simp

def Quiet (l : ReliableLink) (now : TimePoint) : Prop := ∀ d ∈ l.deadlines, now < d

lemma quiet_iff : (∀ d ∈ l.nextDeadline, now < d) ↔ l.Quiet now := by
  rw [nextDeadline_eq, lt_foldl_earliest]
  simp [Quiet]

lemma quiet_parts : l.Quiet now ↔ (∀ d ∈ l.frontDeadline, now < d) ∧ (∀ d ∈ l.silenceDeadlines, now < d) ∧
    (∀ d ∈ l.pingDeadline, now < d) ∧ ∀ d ∈ l.probeDeadlines, now < d := by
  simp only [Quiet, deadlines, List.mem_append, Option.mem_toList, or_imp, forall_and, and_assoc, Option.mem_def]

lemma peerTimedOut_iff : l.peerTimedOut now = false ↔ ∀ d ∈ l.silenceDeadlines, now < d := by
  rw [peerTimedOut, Bool.or_eq_false_iff, silenceDeadlines]
  cases l.mStalledSince <;> cases l.mLastReceived <;> simp [sub_lt_iff_lt_add']

lemma keepAliveDue_iff : l.keepAliveDue now = false ↔ ∀ d ∈ l.pingDeadline, now < d := by
  rw [keepAliveDue, pingDeadline]
  cases l.mRemoteStreamID <;> cases l.mLastReceived <;> simp [sub_lt_iff_lt_add']

lemma probeDeadlines_iff : (∀ d ∈ l.probeDeadlines, now < d) ↔ ∀ lane ∈ StreamLanes, l.ProbeQuiet now lane := by
  have hlane : ∀ lane, ((l.mStreams lane).bind fun s => if s.peerPaused then s.probeAt else none) =
      if (l.streamFor lane).peerPaused then (l.streamFor lane).probeAt else none := by
    intro lane
    rw [streamFor]
    cases l.mStreams lane <;> simp [Stream.new]
  simp only [probeDeadlines, hlane, List.mem_filterMap, forall_exists_index, and_imp]
  constructor
  · intro h lane hl hp d hd
    exact h d lane hl (by rw [if_pos hp]; exact hd)
  · intro h d lane hl hd
    split at hd
    · next hp => exact h lane hl hp d hd
    · cases hd

lemma find_of_entryOf {record : SentRecord} {e : InFlight} (h : l.entryOf record = some e) :
    ((l.mStreams record.lane).bind fun s => s.inFlight.find record.seq) = some e := by
  rw [entryOf] at h
  split at h
  · cases h
  · next s hs =>
    rw [hs]
    exact (Option.filter_eq_some_iff.mp h).1

lemma foldl_probe_of_lt (h : ∀ d ∈ l.probeDeadlines, now < d) : StreamLanes.foldl (probe now) l = l := by
  rw [probeDeadlines_iff] at h
  have hfold : ∀ lanes : List Lane, (∀ lane ∈ lanes, lane ∈ StreamLanes) → lanes.foldl (probe now) l = l := by
    intro lanes
    induction lanes with
    | nil => exact fun _ => rfl
    | cons lane lanes ih =>
      intro hl
      rw [List.foldl_cons, probe_of_quiet (h lane (hl lane (List.mem_cons_self ..)))]
      exact ih fun other ho => hl other (List.mem_cons_of_mem _ ho)
  exact hfold StreamLanes fun _ => id

lemma entryOf_front {h : Host} {record : SentRecord} (hfront : FrontLive (l.view h))
    (hr : l.mSent.head? = some record) :
    ∃ e, l.entryOf record = some e := by
  obtain ⟨e, hf, hlost, ht⟩ := hfront record hr
  cases hn : l.entryOf record with
  | none => exact absurd ht (entryOf_eq_none hn hf hlost)
  | some e' => exact ⟨e', rfl⟩

def expire (l : ReliableLink) (now : TimePoint) : Bool × ReliableLink :=
  timeoutLoop (l.mRtt.timeoutFor l.mTimeoutsInARow) now l.mSent l false

lemma onTimer_live (hl : l.mFailed = false) (ht : l.peerTimedOut now = false) : l.onTimer now =
    StreamLanes.foldl (probe now) (((l.keepAlive now).expire now).2.backOff ((l.keepAlive now).expire now).1) := by
  rw [onTimer, if_neg (by rw [hl]; exact Bool.false_ne_true), if_neg (by rw [ht]; exact Bool.false_ne_true)]
  rfl

lemma expire_of_lt {h : Host} (hfront : FrontLive (l.view h)) (hq : ∀ d ∈ l.frontDeadline, now < d) :
    ∃ n, l.expire now = (false, { l with mStats := { l.mStats with timerWork := n } }) := by
  rw [expire]
  cases hm : l.mSent with
  | nil => exact ⟨l.mStats.timerWork, by rw [timeoutLoop, ← hm]⟩
  | cons record rest =>
    obtain ⟨e, he⟩ := entryOf_front hfront (congrArg List.head? hm)
    have hlt : now < e.sentAt + fromMicros (l.mRtt.timeoutFor l.mTimeoutsInARow) := by
      refine hq _ ?_
      rw [frontDeadline, hm, List.head?_cons, Option.bind_some, find_of_entryOf he]
      rfl
    refine ⟨l.mStats.timerWork + 1, ?_⟩
    have he : ({ l with mStats := { l.mStats with timerWork := l.mStats.timerWork + 1 } } :
      ReliableLink).entryOf record =
      some e := he
    rw [timeoutLoop]
    dsimp only
    rw [he]
    dsimp only
    rw [if_pos hlt, ← hm]

lemma onTimer_of_quiet {h : Host} (hl : l.mFailed = false) (hfront : FrontLive (l.view h)) (hq : l.Quiet now) :
    ∃ n, l.onTimer now = { l with mStats := { l.mStats with timerWork := n } } := by
  obtain ⟨hsent, hsilent, hping, hprobe⟩ := quiet_parts.mp hq
  obtain ⟨n, hloop⟩ := expire_of_lt hfront hsent
  have hk : l.keepAlive now = l := by
    rw [keepAlive, if_neg (by rw [keepAliveDue_iff.mpr hping]; exact Bool.false_ne_true)]
  refine ⟨n, ?_⟩
  rw [onTimer_live hl (peerTimedOut_iff.mpr hsilent), hk, hloop]
  exact foldl_probe_of_lt (l := { l with mStats := { l.mStats with timerWork := n } }) hprobe

lemma foldl_probe_eq (now : TimePoint) (lanes : List Lane) (l : ReliableLink) : ∃ streams due,
    lanes.foldl (probe now) l = { l with mStreams := streams, mPingDue := due } ∧
      ∀ lane, (streams lane).map (·.inFlight) = (l.mStreams lane).map (·.inFlight) := by
  induction lanes generalizing l with
  | nil => exact ⟨l.mStreams, l.mPingDue, rfl, fun _ => rfl⟩
  | cons lane lanes ih =>
    obtain ⟨streams, due, he, hs⟩ := ih (probe now l lane)
    rw [List.foldl_cons, he]
    rcases probe_cases now l lane with ⟨hp, -⟩ | ⟨s, hs', -, -, hp⟩
    · rw [hp] at hs ⊢
      exact ⟨streams, due, rfl, hs⟩
    · rw [hp] at hs ⊢
      refine ⟨streams, due, rfl, fun other => (hs other).trans ?_⟩
      by_cases ho : other = lane
      · subst ho
        simp [setStream, hs', probed]
      · simp [setStream, duePing, ho]

lemma frontDeadline_foldl_probe (now : TimePoint) (lanes : List Lane) (l : ReliableLink) :
    (lanes.foldl (probe now) l).frontDeadline = l.frontDeadline := by
  obtain ⟨streams, due, he, hs⟩ := foldl_probe_eq now lanes l
  have hfind : ∀ lane seq, ((streams lane).bind fun s => s.inFlight.find seq) =
      (l.mStreams lane).bind fun s => s.inFlight.find seq := by
    intro lane seq
    have h := congrArg (fun b => b.bind fun b : SequenceBuffer InFlight => b.find seq) (hs lane)
    simpa [Option.bind_map, Function.comp_def] using h
  rw [he, frontDeadline, frontDeadline]
  simp only [hfind]

lemma probeQuiet_probe (hc : l.Clocked) (hmax : 0 < l.mTimings.maxRto) (now : TimePoint) (lane : Lane) :
    (probe now l lane).ProbeQuiet now lane := by
  rcases probe_cases now l lane with ⟨hp, hq⟩ | ⟨s, hs, hpaused, -, hp⟩
  · rw [hp]
    exact hq
  · rw [hp, ProbeQuiet, streamFor_setStream_self]
    intro _ d hd
    have hpos := (hc.probes lane (by rw [streamFor_of_some l lane s hs]; exact hpaused)).2 hmax
    rw [streamFor_of_some l lane s hs] at hpos
    have hlt : 0 < fromMillis (min (s.probeInterval * 2) l.mTimings.maxRto) := by
      have : 0 < min (s.probeInterval * 2) l.mTimings.maxRto := lt_min (by omega) hmax
      rw [fromMillis]
      omega
    rw [← Option.some.inj hd]
    exact lt_add_of_pos_right now hlt

lemma ProbeQuiet.probe {other : Lane} (hq : l.ProbeQuiet now other) (hc : l.Clocked) (hmax : 0 < l.mTimings.maxRto)
    (lane : Lane) : (probe now l lane).ProbeQuiet now other := by
  by_cases ho : other = lane
  · subst ho
    exact probeQuiet_probe hc hmax now other
  · rcases probe_cases now l lane with ⟨hp, -⟩ | ⟨s, hs, -, -, hp⟩
    · rwa [hp]
    · rw [hp, ProbeQuiet, streamFor_setStream, Function.update_of_ne ho]
      exact hq

lemma timings_probe (now : TimePoint) (l : ReliableLink) (lane : Lane) :
    (probe now l lane).mTimings = l.mTimings := by
  rcases probe_cases now l lane with ⟨hp, -⟩ | ⟨s, -, -, -, hp⟩
  · rw [hp]
  · rw [hp]
    rfl

lemma probeQuiet_foldl_probe (lanes : List Lane) (hc : l.Clocked) (hmax : 0 < l.mTimings.maxRto) {other : Lane}
    (h : other ∈ lanes ∨ l.ProbeQuiet now other) : (lanes.foldl (probe now) l).ProbeQuiet now other := by
  induction lanes generalizing l with
  | nil => exact h.resolve_left (List.not_mem_nil)
  | cons lane lanes ih =>
    rw [List.foldl_cons]
    refine ih (hc.probe now lane) (by rw [timings_probe]; exact hmax) ?_
    rcases h with h | h
    · rcases List.mem_cons.mp h with rfl | h
      · exact .inr (probeQuiet_probe hc hmax now other)
      · exact .inl h
    · exact .inr (h.probe hc hmax lane)

lemma timeoutLoop_front (timeout : ℤ) (now : TimePoint) (records : List SentRecord) (l : ReliableLink)
    (expired : Bool) :
    ∀ record ∈ (timeoutLoop timeout now records l expired).2.mSent.head?,
      ∃ e, (timeoutLoop timeout now records l expired).2.entryOf record = some e ∧
        now < e.sentAt + fromMicros timeout := by
  induction records generalizing l expired with
  | nil => simp [timeoutLoop]
  | cons record rest ih =>
    rw [timeoutLoop]
    dsimp only
    split
    · exact ih _ _
    · next e he =>
      split
      · next hlt =>
        intro r hr
        obtain rfl : record = r := by simpa using hr
        exact ⟨e, he, hlt⟩
      · exact ih _ _

lemma expire_eq (now : TimePoint) (l : ReliableLink) : ∃ streams stats window start, (l.expire now).2 = { l with
    mStreams := streams, mStats := stats, mCongestionWindow := window, mRecoveryStart := start
    mSent := (l.expire now).2.mSent } ∧ (l.expire now).2.pausing = l.pausing :=
  swept_eq (timeoutLoop_swept ..)

lemma failed_onTimer (hl : l.mFailed = false) (now : TimePoint) :
    (l.onTimer now).mFailed = l.peerTimedOut now := by
  cases hout : l.peerTimedOut now with
  | true =>
    rw [onTimer, if_neg (by rw [hl]; exact Bool.false_ne_true), if_pos hout]
    rfl
  | false =>
    obtain ⟨due, pinged, hk⟩ := keepAlive_eq (l := l) now
    obtain ⟨streams, stats, window, start, he, -⟩ := expire_eq now (l.keepAlive now)
    obtain ⟨n, hb⟩ := backOff_eq (l := ((l.keepAlive now).expire now).2) ((l.keepAlive now).expire now).1
    obtain ⟨streams', due', hp, -⟩ := foldl_probe_eq now StreamLanes
      (((l.keepAlive now).expire now).2.backOff ((l.keepAlive now).expire now).1)
    rw [onTimer_live hl hout, hp, hb, he, hk]
    exact hl

lemma frontDeadline_expire (now : TimePoint) (l : ReliableLink) :
    ∀ d ∈ (l.expire now).2.frontDeadline, now < d := by
  obtain ⟨streams, stats, window, start, he, -⟩ := expire_eq now l
  have hrtt : (l.expire now).2.mRtt = l.mRtt := by rw [he]
  have htimeouts : (l.expire now).2.mTimeoutsInARow = l.mTimeoutsInARow := by rw [he]
  intro d hd
  rw [frontDeadline, Option.mem_def, Option.bind_eq_some_iff] at hd
  obtain ⟨record, hrec, hd⟩ := hd
  obtain ⟨e, hf, rfl⟩ := Option.map_eq_some_iff.mp hd
  obtain ⟨e', he', hlt⟩ := timeoutLoop_front _ now l.mSent l false record hrec
  obtain rfl : e' = e := Option.some.inj ((find_of_entryOf he').symm.trans hf)
  rwa [hrtt, htimeouts]

lemma pingDeadline_keepAlive (hpos : 0 < l.mTimings.keepAlive) (now : TimePoint) :
    ∀ d ∈ (l.keepAlive now).pingDeadline, now < d := by
  rw [keepAlive]
  split
  · intro d hd
    have hlt : 0 < fromMillis l.mTimings.keepAlive := by rw [fromMillis]; omega
    simp only [pingDeadline, duePing, Option.mem_def, Option.bind_eq_some_iff, Option.map_eq_some_iff] at hd
    obtain ⟨t, -, -, -, rfl⟩ := hd
    exact lt_of_le_of_lt (le_max_right t now) (lt_add_of_pos_right _ hlt)
  · next hn => exact keepAliveDue_iff.mp (Bool.eq_false_iff.mpr hn)

lemma frontDeadline_backOff (hr : l.mRtt.Within l.mTimings) (hle : l.mTimings.minRto ≤ l.mTimings.maxRto)
    (hpos : 0 < l.mTimings.minRto) (expired : Bool) (hq : ∀ d ∈ l.frontDeadline, now < d) :
    ∀ d ∈ (l.backOff expired).frontDeadline, now < d := by
  rw [backOff]
  split
  · intro d hd
    rw [frontDeadline, Option.mem_def, Option.bind_eq_some_iff] at hd
    obtain ⟨record, hrec, hd⟩ := hd
    obtain ⟨e, hf, rfl⟩ := Option.map_eq_some_iff.mp hd
    have hlt := hq (e.sentAt + fromMicros (l.mRtt.timeoutFor l.mTimeoutsInARow)) (by
      rw [frontDeadline, Option.mem_def, Option.bind_eq_some_iff]
      exact ⟨record, hrec, Option.map_eq_some_iff.mpr ⟨e, hf, rfl⟩⟩)
    have hmono : fromMicros (l.mRtt.timeoutFor l.mTimeoutsInARow) ≤
        fromMicros (l.mRtt.timeoutFor (l.mTimeoutsInARow + 1)) :=
      Int.mul_le_mul_of_nonneg_right (hr.timeoutFor_le_succ hle hpos l.mTimeoutsInARow) (by decide)
    exact lt_of_lt_of_le hlt (Int.add_le_add_left hmono _)
  · exact hq

lemma silenceDeadlines_congr (hs : l'.mStalledSince = l.mStalledSince) (hr : l'.mLastReceived = l.mLastReceived)
    (ht : l'.mTimings = l.mTimings) : l'.silenceDeadlines = l.silenceDeadlines := by
  rw [silenceDeadlines, silenceDeadlines, hs, hr, ht]

lemma pingDeadline_congr (hi : l'.mRemoteStreamID = l.mRemoteStreamID) (hr : l'.mLastReceived = l.mLastReceived)
    (hp : l'.mPingedAt = l.mPingedAt) (ht : l'.mTimings = l.mTimings) : l'.pingDeadline = l.pingDeadline := by
  rw [pingDeadline, pingDeadline, hi, hr, hp, ht]

end ReliableLink

structure LinkTimings.Valid (t : LinkTimings) : Prop where
  rto : t.minRto ≤ t.maxRto
  minRto : 0 < t.minRto
  maxRto : 0 < t.maxRto
  keepAlive : 0 < t.keepAlive
  peerTimeout : 0 < t.peerTimeout

namespace ReliableLink

variable {l : ReliableLink} {now : TimePoint}

lemma nextDeadline_fail : l.fail.nextDeadline = none := rfl

lemma quiet_onTimer (hc : l.Clocked) (ht : l.mTimings.Valid) (hl : l.mFailed = false) (now : TimePoint) :
    l.onTimer now = l.fail ∨ (l.onTimer now).Quiet now := by
  cases hout : l.peerTimedOut now with
  | true =>
    left
    rw [onTimer, if_neg (by rw [hl]; exact Bool.false_ne_true), if_pos hout]
  | false =>
    right
    rw [onTimer_live hl hout]
    obtain ⟨due, pinged, hk⟩ := keepAlive_eq (l := l) now
    have hck : (l.keepAlive now).Clocked := by
      rw [hk]
      exact hc.congr rfl rfl rfl
    have hping := pingDeadline_keepAlive ht.keepAlive now
    obtain ⟨streams, stats, window, start, he, hpausing⟩ := expire_eq now (l.keepAlive now)
    have hfront := frontDeadline_expire now (l.keepAlive now)
    generalize hx : (l.keepAlive now).expire now = x at he hpausing hfront
    have hcx : x.2.Clocked := hck.congr hpausing (by rw [he]) (by rw [he])
    have htx : x.2.mTimings = l.mTimings := by rw [he, hk]
    obtain ⟨n, hb⟩ := backOff_eq (l := x.2) x.1
    have hcy : (x.2.backOff x.1).Clocked := by
      rw [hb]
      exact hcx.congr rfl rfl rfl
    have hty : (x.2.backOff x.1).mTimings = l.mTimings := by rw [hb, htx]
    obtain ⟨streams', due', hz, -⟩ := foldl_probe_eq now StreamLanes (x.2.backOff x.1)
    refine quiet_parts.mpr ⟨?_, ?_, ?_, ?_⟩
    · rw [frontDeadline_foldl_probe]
      exact frontDeadline_backOff hcx.rtt (htx ▸ ht.rto) (htx ▸ ht.minRto) x.1 hfront
    · rw [silenceDeadlines_congr (l := l)]
      · exact peerTimedOut_iff.mp hout
      · rw [hz, hb, he, hk]
      · rw [hz, hb, he, hk]
      · rw [hz, hb, he, hk]
    · rw [pingDeadline_congr (l := l.keepAlive now)]
      · exact hping
      · rw [hz, hb, he]
      · rw [hz, hb, he]
      · rw [hz, hb, he]
      · rw [hz, hb, he]
    · exact probeDeadlines_iff.mpr fun lane hm =>
        probeQuiet_foldl_probe StreamLanes hcy (by rw [hty]; exact ht.maxRto) (.inl hm)

lemma isSome_nextDeadline {lane : Lane} (hp : l.Paced) (hlane : lane ∈ StreamLanes)
    (h : (l.streamFor lane).inFlight.isEmpty = false ∨ (l.streamFor lane).peerPaused = true) :
    l.nextDeadline.isSome = true := by
  have hmem : ∃ d, d ∈ l.deadlines := by
    cases hpaused : (l.streamFor lane).peerPaused with
    | true =>
      obtain ⟨d, hd⟩ := Option.isSome_iff_exists.mp (hp.probes lane hpaused).1
      refine ⟨d, List.mem_append_right _ (List.mem_filterMap.mpr ⟨lane, hlane, ?_⟩)⟩
      rw [streamFor] at hpaused hd
      cases hs : l.mStreams lane with
      | none => simp [hs, Stream.new] at hpaused
      | some s =>
        rw [hs, Option.getD_some] at hpaused hd
        rw [Option.bind_some, if_pos hpaused, hd]
    | false =>
      have hempty := h.resolve_right (by rw [hpaused]; exact Bool.false_ne_true)
      have hs := hp.stalled.trans (waiting_iff.mpr ⟨lane, hlane, hpaused, hempty⟩)
      obtain ⟨t, ht⟩ := Option.isSome_iff_exists.mp hs
      refine ⟨t + fromMillis l.mTimings.peerTimeout, ?_⟩
      simp [deadlines, silenceDeadlines, ht]
  obtain ⟨d, hd⟩ := hmem
  rw [nextDeadline_eq, isSome_foldl_earliest]
  cases hl : l.deadlines with
  | nil => simp [hl] at hd
  | cons => rfl

end ReliableLink

namespace Host

theorem timers_exact {source : Lane → OutboundMessage → Prop} {incoming : Packet → Prop} {h : Host}
    (hr : (system source incoming).Reachable h) (ht : h.link.mTimings.Valid) (hf : h.link.mFailed = false) :
    (∀ now, (∀ d ∈ h.link.nextDeadline, now < d) →
        ∃ n, h.link.onTimer now = { h.link with mStats := { h.link.mStats with timerWork := n } }) ∧
      (∀ now, ((h.link.onTimer now).mFailed = true ∧ (h.link.onTimer now).nextDeadline = none) ∨
        ∀ d ∈ (h.link.onTimer now).nextDeadline, now < d) ∧
      ((∃ lane ∈ StreamLanes, (h.link.streamFor lane).inFlight.isEmpty = false ∨
          (h.link.streamFor lane).peerPaused = true) → h.link.nextDeadline.isSome = true) := by
  have hp := paced hr
  refine ⟨fun now hq => ?_, fun now => ?_, ?_⟩
  · exact ReliableLink.onTimer_of_quiet hf (sound hr).settled.front (ReliableLink.quiet_iff.mp hq)
  · rcases ReliableLink.quiet_onTimer hp.toClocked ht hf now with he | hq
    · rw [he]
      exact .inl ⟨rfl, ReliableLink.nextDeadline_fail⟩
    · exact .inr (ReliableLink.quiet_iff.mpr hq)
  · rintro ⟨lane, hlane, h⟩
    exact ReliableLink.isSome_nextDeadline hp hlane h

lemma valid_default : ({} : LinkTimings).Valid := ⟨by decide, by decide, by decide, by decide, by decide⟩

theorem timers_exact_controlSent : controlSent.link.nextDeadline = some 100000000 ∧
    (∃ n, controlSent.link.onTimer 99999999 =
      { controlSent.link with mStats := { controlSent.link.mStats with timerWork := n } }) ∧
    ∀ d ∈ (controlSent.link.onTimer 100000000).nextDeadline, 100000000 < d := by
  obtain ⟨hquiet, hafter, -⟩ := timers_exact controlSent_reachable valid_default rfl
  have hd : controlSent.link.nextDeadline = some 100000000 := by decide
  refine ⟨hd, hquiet 99999999 ?_, (hafter 100000000).resolve_left ?_⟩
  · rw [hd]
    decide
  · decide

end Host

end NetLink.Channel
