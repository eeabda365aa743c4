import Mathlib.Algebra.Order.Floor.Ring
import Mathlib.Data.Rat.Floor
import NetLink.Channel.ReliableLink.Deadlines
import NetLink.Channel.ReliableLink.Timed

/-! The window that Reliable and Bulk share: it keeps its bounds, holds what they have on the wire, and is halved
once per round of losses. -/

namespace NetLink.Channel

open SequenceBuffer

namespace ReliableLink

variable {due : InFlight → Bool} {l l' : ReliableLink} {lane : Lane} {seq : ℕ} {e : InFlight} {record : SentRecord}
  {records : List SentRecord} {now : TimePoint}

def sharedWire (l : ReliableLink) : ℕ := (l.streamFor .reliable).onTheWire + (l.streamFor .bulk).onTheWire

lemma onTheWire_streamFor (l : ReliableLink) (lane : Lane) :
    (l.streamFor lane).onTheWire = ((l.mStreams lane).map (·.onTheWire)).getD 0 := by
  rw [streamFor]
  cases l.mStreams lane <;> rfl

lemma congestionWindowOpen_eq (l : ReliableLink) (lane : Lane) :
    l.congestionWindowOpen lane =
      (!sharesCongestionWindow lane || decide (l.sharedWire < l.congestionWindow)) := by
  rw [congestionWindowOpen, sharedWire, onTheWire_streamFor, onTheWire_streamFor]

lemma sharedWire_le (h : ∀ lane, (l'.streamFor lane).onTheWire ≤ (l.streamFor lane).onTheWire) :
    l'.sharedWire ≤ l.sharedWire :=
  Nat.add_le_add (h .reliable) (h .bulk)

section Pace

variable {heard : Option TimePoint}

lemma sharedWire_of_pace (h : l'.pace = { l.pace with heard := heard }) : l'.sharedWire = l.sharedWire := by
  have hwire : ∀ lane, (l'.streamFor lane).onTheWire = (l.streamFor lane).onTheWire := fun lane =>
    congrArg Stream.Outward.onTheWire (congrFun (congrArg Pace.outward h) lane)
  rw [sharedWire, sharedWire, hwire, hwire]

lemma congestionWindow_of_pace (h : l'.pace = { l.pace with heard := heard }) :
    l'.congestionWindow = l.congestionWindow := by
  have hw : l'.mCongestionWindow = l.mCongestionWindow := congrArg Pace.window h
  rw [congestionWindow, congestionWindow, hw]

lemma congestionWindowOpen_of_pace (h : l'.pace = l.pace) (lane : Lane) :
    l'.congestionWindowOpen lane = l.congestionWindowOpen lane := by
  rw [congestionWindowOpen_eq, congestionWindowOpen_eq, sharedWire_of_pace h, congestionWindow_of_pace h]

end Pace

lemma open_of_peek {next : Option OutboundMessage} (hl : lane ≠ .media)
    (hp : (l.peek Host.single lane next).1.isSome) :
    l.congestionWindowOpen lane = true := by
  rw [peek] at hp
  split at hp
  · cases hp
  rw [checkIndex_of_ne_media l lane hl] at hp
  dsimp only at hp
  split at hp
  · by_contra ho
    rw [if_neg ho] at hp
    cases hp
  · next s hs =>
    have hlost : (l.setStream lane s.nextLost.2).pace = l.pace := pace_setStream_some (t := s.nextLost.2) hs rfl
    rw [← congestionWindowOpen_of_pace hlost]
    by_contra ho
    rw [Bool.not_eq_true] at ho
    split at hp
    · next hn =>
      rw [hn] at ho
      simp [ho] at hp
    · next hn =>
      rw [hn] at ho
      simp [ho] at hp

structure Steady (l l' : ReliableLink) : Prop where
  start : l'.mRecoveryStart = l.mRecoveryStart
  window : l'.mCongestionWindow = l.mCongestionWindow ∨
    ∃ counted : ℕ, l'.mCongestionWindow = min (l.mCongestionWindow + counted / l.mCongestionWindow)
      MaxCongestionWindow

structure Halved (l l' : ReliableLink) : Prop where
  start : l'.mRecoveryStart = l.mTransmissions
  window : l'.mCongestionWindow = max (l.mCongestionWindow / 2) MinCongestionWindow
  number : l'.mTransmissions = l.mTransmissions
  lost : ∃ lane seq e e', sharesCongestionWindow lane = true ∧ l.entry lane seq = some e ∧ e.lost = false ∧
    l.mRecoveryStart < e.transmission ∧ l'.entry lane seq = some e' ∧ e'.lost = true ∧
      e'.transmission = e.transmission

def Numbered (l : ReliableLink) : Prop :=
  ∀ lane seq e, l.entry lane seq = some e → e.lost = false → e.transmission ≤ l.mTransmissions

lemma numbered_of_view {h : Host} (hi : ViewInv (l.view h)) : l.Numbered := fun lane seq e he hlive =>
  hi.order.bound _ ((hi.send lane).live seq e he hlive)

lemma markLost_halved (l : ReliableLink) (record : SentRecord) (e : InFlight) (timedOut : Bool) :
    (l.markLost record e timedOut).mRecoveryStart = l.mRecoveryStart ∧
        (l.markLost record e timedOut).mCongestionWindow = l.mCongestionWindow ∨
      sharesCongestionWindow record.lane = true ∧ l.mRecoveryStart < e.transmission ∧
        (l.markLost record e timedOut).mRecoveryStart = l.mTransmissions ∧
        (l.markLost record e timedOut).mCongestionWindow = max (l.mCongestionWindow / 2) MinCongestionWindow := by
  rw [markLost]
  dsimp only
  have hbranch : ∀ {shared fixed late : Bool}, ¬(!shared || fixed || late) = true → shared = true ∧
    late = false := by decide
  cases timedOut <;> simp only [Bool.false_eq_true, if_true, if_false] <;> split
  case false.isTrue | true.isTrue => exact .inl ⟨rfl, rfl⟩
  case false.isFalse hc | true.isFalse hc =>
    obtain ⟨hshared, hlate⟩ := hbranch hc
    exact .inr ⟨hshared, not_le.mp (of_decide_eq_false hlate), rfl, rfl⟩

lemma transmissions_markLost (l : ReliableLink) (record : SentRecord) (e : InFlight) (timedOut : Bool) :
    (l.markLost record e timedOut).mTransmissions = l.mTransmissions :=
  congrArg Aside.transmissions (aside_markLost record e timedOut)

lemma live_of_markLost (hw : l.Sending) (he : l.entryOf record = some e) {timedOut : Bool} {e' : InFlight}
    (hf : (l.markLost record e timedOut).entry lane seq = some e') (hlive : e'.lost = false) :
    l.entry lane seq = some e' ∧ ¬(lane = record.lane ∧ seq = record.seq) := by
  by_cases hsame : lane = record.lane ∧ seq = record.seq
  · obtain ⟨rfl, rfl⟩ := hsame
    rw [entry_markLost hw he, Option.some.injEq] at hf
    rw [← hf] at hlive
    cases hlive
  · rw [entry_markLost_of_ne hw hsame] at hf
    exact ⟨hf, hsame⟩

lemma Numbered.markLost (h : l.Numbered) (hw : l.Sending) (he : l.entryOf record = some e) (timedOut : Bool) :
    (l.markLost record e timedOut).Numbered := by
  intro lane seq e' hf hlive
  rw [transmissions_markLost]
  exact h lane seq e' (live_of_markLost hw he hf hlive).1 hlive

lemma swept_lost (hs : Swept due l records l') (hw : l.Sending) (hf : l.entry lane seq = some e)
    (he : e.lost = true) : l'.entry lane seq = some e := by
  refine (hs.keeps (P := fun k => k.entry lane seq = some e ∧ k.Sending) ⟨hf, hw⟩ ?_ fun k sent stats hk => hk).1
  rintro k record e₁ timedOut he₁ ⟨hf, hw⟩
  refine ⟨?_, hw.markLost record e₁ timedOut⟩
  rw [entry_markLost_of_ne hw]
  · exact hf
  · rintro ⟨rfl, rfl⟩
    obtain ⟨hf₁, hlive, -⟩ := entryOf_eq_some he₁
    have hf₁ : k.entry record.lane record.seq = some e₁ := hf₁
    obtain rfl : e = e₁ := Option.some.inj (hf.symm.trans hf₁)
    simp [he] at hlive

lemma swept_transmissions (hs : Swept due l records l') : l'.mTransmissions = l.mTransmissions := by
  obtain ⟨streams, stats, window, start, he, -⟩ := swept_eq hs
  rw [he]

lemma swept_window (hs : Swept due l records l') (hw : l.Sending) (hn : l.Numbered) :
    l'.mRecoveryStart = l.mRecoveryStart ∧ l'.mCongestionWindow = l.mCongestionWindow ∨ l.Halved l' := by
  induction hs with
  | done l => exact .inl ⟨rfl, rfl⟩
  | stop l record rest e he hd => exact .inl ⟨rfl, rfl⟩
  | drop l record rest l' hnone _ ih => exact ih hw hn
  | count l records stats l' _ ih =>
    refine (ih hw hn).imp_right fun hh => ⟨hh.start, hh.window, hh.number, hh.lost⟩
  | mark l record rest e timedOut l' he hd hs ih =>
    have hw' := hw.markLost record e timedOut
    have hlost : (l.markLost record e timedOut).entry record.lane record.seq = some { e with lost := true } :=
      entry_markLost hw he timedOut
    obtain ⟨hf, hlive, hnumber⟩ := entryOf_eq_some he
    rcases markLost_halved l record e timedOut with ⟨hstart, hwindow⟩ | ⟨hshared, hlate, hstart, hwindow⟩
    · rcases ih hw' (hn.markLost hw he timedOut) with ⟨hs', hw''⟩ | hh
      · exact .inl ⟨hs'.trans hstart, hw''.trans hwindow⟩
      · obtain ⟨lane, seq, e₁, e₂, hshared, hf₁, hlive₁, hlate, hrest⟩ := hh.lost
        refine .inr ⟨hh.start.trans (transmissions_markLost ..), hwindow ▸ hh.window,
          hh.number.trans (transmissions_markLost ..), lane, seq, e₁, e₂, hshared, ?_, hlive₁,
            hstart ▸ hlate, hrest⟩
        exact (live_of_markLost hw he hf₁ hlive₁).1
    · rcases ih hw' (hn.markLost hw he timedOut) with ⟨hs', hw''⟩ | hh
      · exact .inr ⟨hs'.trans hstart, hw''.trans hwindow,
          (swept_transmissions hs).trans (transmissions_markLost ..),
          record.lane, record.seq, e, _, hshared, hf, hlive, hlate, swept_lost hs hw' hlost rfl, rfl, rfl⟩
      · -- a second halving would need a packet with a number that was not given out yet
        obtain ⟨lane, seq, e₁, e₂, -, hf₁, hlive₁, hlate₁, -⟩ := hh.lost
        have hle := hn lane seq e₁ (live_of_markLost hw he hf₁ hlive₁).1 hlive₁
        rw [hstart] at hlate₁
        exact absurd hlate₁ (not_lt.mpr hle)

lemma swept_wire (hs : Swept due l records l') (lane : Lane) :
    (l'.streamFor lane).onTheWire ≤ (l.streamFor lane).onTheWire := by
  refine hs.keeps (P := fun k => (k.streamFor lane).onTheWire ≤ (l.streamFor lane).onTheWire) le_rfl ?_
    fun k sent stats hk => hk
  intro k record e timedOut he hk
  refine le_trans ?_ hk
  obtain ⟨stats, window, start, hm⟩ := k.markLost_eq record e timedOut
  rw [hm]
  change ((k.setStream record.lane ((k.streamFor record.lane).givenUp record.seq e)).streamFor lane).onTheWire ≤ _
  rw [streamFor_setStream]
  by_cases hl : lane = record.lane
  · subst hl
    rw [Function.update_self]
    exact Nat.sub_le ..
  · rw [Function.update_of_ne hl]

structure Eased (l l' : ReliableLink) : Prop where
  start : l'.mRecoveryStart = l.mRecoveryStart
  window : l'.mCongestionWindow = l.mCongestionWindow
  number : l'.mTransmissions = l.mTransmissions
  entries : ∀ lane seq e, l'.entry lane seq = some e → l.entry lane seq = some e
  wire : ∀ lane, (l'.streamFor lane).onTheWire ≤ (l.streamFor lane).onTheWire

namespace Eased

variable {k : ReliableLink}

lemma trans (h : l.Eased l') (h' : l'.Eased k) : l.Eased k where
  start := h'.start.trans h.start
  window := h'.window.trans h.window
  number := h'.number.trans h.number
  entries lane seq e he := h.entries lane seq e (h'.entries lane seq e he)
  wire lane := (h'.wire lane).trans (h.wire lane)

lemma of_pace {t : Option TimePoint} (h : l'.pace = { l.pace with heard := t }) : l.Eased l' where
  start := congrArg Pace.recovery h
  window := congrArg Pace.window h
  number := congrArg Pace.transmissions h
  entries lane seq e he := by
    have hin : (l'.streamFor lane).inFlight = (l.streamFor lane).inFlight :=
      congrArg Stream.Outward.inFlight (congrFun (congrArg Pace.outward h) lane)
    rwa [entry, hin] at he
  wire lane := (congrArg Stream.Outward.onTheWire (congrFun (congrArg Pace.outward h) lane)).le

variable (lane) in
lemma setStream {s : Stream} (he : ∀ seq e, s.inFlight.find seq = some e → l.entry lane seq = some e)
    (hw : s.onTheWire ≤ (l.streamFor lane).onTheWire) : l.Eased (l.setStream lane s) where
  start := rfl
  window := rfl
  number := rfl
  entries other seq e hf := by
    by_cases ho : other = lane
    · subst ho
      rw [entry_setStream] at hf
      exact he seq e hf
    · rwa [entry_setStream_of_ne ho] at hf
  wire other := by
    rw [streamFor_setStream]
    by_cases ho : other = lane
    · subst ho
      rwa [Function.update_self]
    · rw [Function.update_of_ne ho]

lemma numbered (h : l.Eased l') (hn : l.Numbered) : l'.Numbered := by
  intro lane seq e he hlive
  rw [h.number]
  exact hn lane seq e (h.entries lane seq e he) hlive

lemma halved (h : l.Eased l') (hh : l'.Halved k) : l.Halved k where
  start := hh.start.trans h.number
  window := h.window ▸ hh.window
  number := hh.number.trans h.number
  lost := by
    obtain ⟨lane, seq, e, e', hshared, he, hlive, hlate, hrest⟩ := hh.lost
    exact ⟨lane, seq, e, e', hshared, h.entries lane seq e he, hlive, h.start ▸ hlate, hrest⟩

lemma steady (h : l.Eased l') (hs : l'.Steady k) : l.Steady k :=
  ⟨hs.start.trans h.start, h.window ▸ hs.window⟩

end Eased

lemma eased_noteSerial {s : Stream} (hs : l.mStreams lane = some s) (header : PacketHeader) (ack : AckBody)
    (now : TimePoint) : l.Eased (l.noteSerial lane s header ack now) := by
  rcases noteSerial_eq l lane s header ack now with ⟨-, he⟩ | ⟨-, paused, time, interval, stalled, he⟩
  · rw [he]
    exact .of_pace (t := l.mLastReceived) rfl
  · have hst := streamFor_of_some l lane s hs
    have hset : l.Eased (l.setStream lane (s.tuned paused (some ack.serial) time interval)) :=
      .setStream lane (fun seq e hf => by rw [entry, hst]; exact hf) (by rw [hst]; exact le_rfl)
    rw [he]
    exact ⟨hset.start, hset.window, hset.number, hset.entries, hset.wire⟩

end ReliableLink

lemma AckScan.wire_foldl (start : ℕ) (seqs : List ℕ) (scan : AckScan) :
    (seqs.foldl (AckScan.release start) scan).stream.onTheWire ≤ scan.stream.onTheWire := by
  induction seqs generalizing scan with
  | nil => exact le_rfl
  | cons seq seqs ih =>
    refine (ih _).trans ?_
    rw [AckScan.release]
    split
    · exact le_rfl
    · dsimp only [Stream.released]
      split
      · exact le_rfl
      · exact Nat.sub_le ..

namespace ReliableLink

variable {l l' : ReliableLink} {lane : Lane} {now : TimePoint}

variable (lane) in
lemma eased_acknowledged (hw : l.Sending) (header : PacketHeader) (ack : AckBody) :
    l.Eased (l.acknowledged lane header ack) := by
  obtain ⟨-, hsub, -⟩ := (l.streamFor lane).acknowledge_spec header ack l.mRecoveryStart l.mLargestAcked (hw lane)
  have hwire : ((l.streamFor lane).acknowledge header ack l.mRecoveryStart l.mLargestAcked).stream.onTheWire ≤
      (l.streamFor lane).onTheWire := AckScan.wire_foldl ..
  have hset := Eased.setStream (l := l) lane hsub hwire
  exact ⟨hset.start, hset.window, hset.number, hset.entries, hset.wire⟩

lemma detectLoop_true (records : List SentRecord) (l : ReliableLink) : (detectLoop records l true).1 = true := by
  induction records generalizing l with
  | nil => rfl
  | cons record rest ih =>
    rw [detectLoop]
    split
    · exact ih l
    · split
      · rfl
      · exact ih _

lemma detectLoop_false (records : List SentRecord) (l : ReliableLink)
    (h : (detectLoop records l false).1 = false) :
    (detectLoop records l false).2.mRecoveryStart = l.mRecoveryStart ∧
      (detectLoop records l false).2.mCongestionWindow = l.mCongestionWindow := by
  induction records generalizing l with
  | nil => exact ⟨rfl, rfl⟩
  | cons record rest ih =>
    rw [detectLoop] at h ⊢
    split at h
    · exact ih l h
    · split at h
      · next hlt => simp only [hlt, if_true, and_self]
      · rw [detectLoop_true] at h
        cases h

lemma growWindow_cases (l : ReliableLink) (lane : Lane) (losses : Bool) (counted : ℕ) :
    l.growWindow lane losses counted = l ∨ losses = false ∧ l.growWindow lane losses counted = { l with
      mCongestionWindow := min (l.mCongestionWindow + counted / l.mCongestionWindow) MaxCongestionWindow } := by
  rw [growWindow]
  split
  · next hc =>
    simp only [Bool.and_eq_true, Bool.not_eq_true'] at hc
    exact .inr ⟨hc.1.1.2, rfl⟩
  · exact .inl rfl

lemma afterAck_window (hw : l.Sending) (hn : l.Numbered) (lane : Lane) (scan : AckScan) (now : TimePoint) :
    l.Steady (l.afterAck lane scan now) ∨ l.Halved (l.afterAck lane scan now) := by
  obtain ⟨rtt, timeouts, hm⟩ := noteAcked_eq (l := l) scan now
  have he : l.afterAck lane scan now = ((l.noteAcked scan now).detectLosses.2.updateProgressClock now
    (scan.acked > 0)).growWindow lane (l.noteAcked scan now).detectLosses.1 scan.counted := rfl
  have heased : l.Eased { l with mRtt := rtt, mTimeoutsInARow := timeouts } :=
    ⟨rfl, rfl, rfl, fun _ _ _ => id, fun _ => le_rfl⟩
  have hw' : ({ l with mRtt := rtt, mTimeoutsInARow := timeouts } : ReliableLink).Sending := hw
  rw [he, hm]
  generalize ({ l with mRtt := rtt, mTimeoutsInARow := timeouts } : ReliableLink) = m at heased hw'
  obtain ⟨stalled, hc⟩ := m.detectLosses.2.updateProgressClock_eq now (scan.acked > 0)
  rw [hc]
  rcases growWindow_cases { m.detectLosses.2 with mStalledSince := stalled } lane m.detectLosses.1
    scan.counted with
    hg | ⟨hl, hg⟩
  · rw [hg]
    rcases swept_window (detectLoop_swept m.mSent m false) hw' (heased.numbered hn) with ⟨hstart, hwindow⟩ | hh
    · exact .inl ⟨hstart.trans heased.start, .inl (hwindow.trans heased.window)⟩
    · have hh := heased.halved hh
      exact .inr ⟨hh.start, hh.window, hh.number, hh.lost⟩
  · rw [hg]
    obtain ⟨hstart, hwindow⟩ := detectLoop_false m.mSent m hl
    refine .inl ⟨hstart.trans heased.start, .inr ⟨scan.counted, ?_⟩⟩
    rw [← heased.window, ← hwindow]
    rfl

lemma afterAck_wire (l : ReliableLink) (lane : Lane) (scan : AckScan) (now : TimePoint) (other : Lane) :
    ((l.afterAck lane scan now).streamFor other).onTheWire ≤ (l.streamFor other).onTheWire := by
  obtain ⟨_, rtt, timeouts, l', hs, stalled, window, he⟩ := afterAck_swept l lane scan now
  have hwire := swept_wire hs other
  rw [he]
  exact hwire

variable (lane) in
lemma applyAck_window (hw : l.Sending) (hn : l.Numbered) (header : PacketHeader) (ack : AckBody)
    (now : TimePoint) :
    (l.Steady (l.applyAck lane header ack now) ∨ l.Halved (l.applyAck lane header ack now)) ∧
      (l.applyAck lane header ack now).sharedWire ≤ l.sharedWire := by
  have he : l.applyAck lane header ack now = (l.acknowledged lane header ack).afterAck lane
    ((l.streamFor lane).acknowledge header ack l.mRecoveryStart l.mLargestAcked) now := rfl
  have heased := eased_acknowledged lane hw header ack
  rw [he]
  refine ⟨?_, ?_⟩
  · exact (afterAck_window hw.acknowledged (heased.numbered hn) lane _ now).imp heased.steady heased.halved
  · exact (sharedWire_le (afterAck_wire _ lane _ now)).trans (sharedWire_le heased.wire)

lemma onPacket_window (hw : l.Sending) (hn : l.Numbered) (packet : Packet) (now : TimePoint) :
    (l.Steady (l.onPacket packet now) ∨ l.Halved (l.onPacket packet now)) ∧
      (l.onPacket packet now).sharedWire ≤ l.sharedWire := by
  rcases onPacket_pace l packet now with ⟨heard, hp⟩ | ⟨-, ack, -, k, s, ⟨heard, hk⟩, hs, he⟩
  · have heased := Eased.of_pace hp
    exact ⟨.inl ⟨heased.start, .inl heased.window⟩, sharedWire_le heased.wire⟩
  · have hsend : k.Sending := by
      intro lane
      have hin : (k.streamFor lane).inFlight = (l.streamFor lane).inFlight :=
        congrArg Stream.Outward.inFlight (congrFun (congrArg Pace.outward hk) lane)
      rw [hin]
      exact hw lane
    have heased := (Eased.of_pace hk).trans (eased_noteSerial hs packet.header ack now)
    obtain ⟨hcases, hwire⟩ := applyAck_window packet.header.flags.lane
      ((sameSending_noteSerial hs packet.header ack now).sending hsend) (heased.numbered hn) packet.header ack now
    rw [he, handleAck]
    exact ⟨hcases.imp heased.steady heased.halved, hwire.trans (sharedWire_le heased.wire)⟩

lemma onTheWire_probe (now : TimePoint) (l : ReliableLink) (other lane : Lane) :
    ((probe now l other).streamFor lane).onTheWire = (l.streamFor lane).onTheWire := by
  rcases probe_cases now l other with ⟨hp, -⟩ | ⟨s, hs, -, -, hp⟩
  · rw [hp]
  · rw [hp, streamFor_setStream]
    by_cases hl : lane = other
    · subst hl
      rw [Function.update_self, streamFor_of_some l lane s hs]
      rfl
    · rw [Function.update_of_ne hl]
      rfl

lemma onTheWire_foldl_probe (now : TimePoint) (lanes : List Lane) (l : ReliableLink) (lane : Lane) :
    ((lanes.foldl (probe now) l).streamFor lane).onTheWire = (l.streamFor lane).onTheWire := by
  induction lanes generalizing l with
  | nil => rfl
  | cons other lanes ih => rw [List.foldl_cons, ih, onTheWire_probe]

lemma onTimer_window (hw : l.Sending) (hn : l.Numbered) (now : TimePoint) : l.onTimer now = l.fail ∨
    (l.Steady (l.onTimer now) ∨ l.Halved (l.onTimer now)) ∧ (l.onTimer now).sharedWire ≤ l.sharedWire := by
  rcases onTimer_swept l now with he | he | ⟨_, due, pinged, l', hs, n, he⟩
  · rw [he]
    exact .inr ⟨.inl ⟨rfl, .inl rfl⟩, le_rfl⟩
  · exact .inl he
  · obtain ⟨streams, pings, hp, -⟩ := foldl_probe_eq now StreamLanes { l' with mTimeoutsInARow := n }
    have hentry : ∀ lane seq, (l.onTimer now).entry lane seq = l'.entry lane seq := fun lane seq => by
      rw [he, entry_foldl_probe]
      rfl
    have hwire : ∀ lane, ((l.onTimer now).streamFor lane).onTheWire ≤ (l.streamFor lane).onTheWire :=
      fun lane => by
      rw [he, onTheWire_foldl_probe]
      exact swept_wire hs lane
    have hstart : (l.onTimer now).mRecoveryStart = l'.mRecoveryStart := by rw [he, hp]
    have hwindow : (l.onTimer now).mCongestionWindow = l'.mCongestionWindow := by rw [he, hp]
    have hnumber : (l.onTimer now).mTransmissions = l'.mTransmissions := by rw [he, hp]
    refine .inr ⟨?_, sharedWire_le hwire⟩
    rcases swept_window hs hw hn with ⟨hs', hw'⟩ | hh
    · exact .inl ⟨hstart.trans hs', .inl (hwindow.trans hw')⟩
    · obtain ⟨lane, seq, e, e', hshared, hf, hlive, hlate, hf', hrest⟩ := hh.lost
      exact .inr ⟨hstart.trans hh.start, hwindow.trans hh.window, hnumber.trans hh.number, lane, seq, e, e',
        hshared, hf, hlive, hlate,
        (hentry lane seq).trans hf', hrest⟩

lemma commit_window (l : ReliableLink) (lane : Lane) (now : TimePoint) : l.Steady (l.commit lane now) ∧
    (l.commit lane now).mCongestionWindow = l.mCongestionWindow ∧
    (l.commit lane now).sharedWire ≤ l.sharedWire + if sharesCongestionWindow lane then 1 else 0 := by
  rcases commit_pace l lane now with hp | ⟨-, s, t, seq, e, hs, he, ht, -⟩
  · have heased := Eased.of_pace (t := l.mLastReceived) hp
    exact ⟨⟨heased.start, .inl heased.window⟩, heased.window,
      (sharedWire_le heased.wire).trans (Nat.le_add_right ..)⟩
  · obtain ⟨stats, stalled, htr⟩ := transmit_fields l lane t seq e now
    have hwire : t.onTheWire = (l.streamFor lane).onTheWire := by
      rw [streamFor_of_some l lane s hs]
      exact congrArg Stream.Outward.onTheWire ht
    rw [he, htr]
    have hu : (t.onWire seq (e.transmitted now (l.mTransmissions + 1))).onTheWire =
        (l.streamFor lane).onTheWire + 1 := congrArg (· + 1) hwire
    generalize t.onWire seq (e.transmitted now (l.mTransmissions + 1)) = u at hu
    refine ⟨⟨rfl, .inl rfl⟩, rfl, ?_⟩
    change ((l.setStream lane u).streamFor .reliable).onTheWire + ((l.setStream lane u).streamFor
      .bulk).onTheWire ≤ _
    rw [streamFor_setStream, sharedWire]
    cases lane <;> simp [Function.update, sharesCongestionWindow, hu] <;> omega

lemma timings_onPacket (l : ReliableLink) (packet : Packet) (now : TimePoint) :
    (l.onPacket packet now).mTimings = l.mTimings := by
  rcases onPacket_pace l packet now with ⟨heard, hp⟩ | ⟨-, ack, -, k, s, ⟨heard, hk⟩, hs, he⟩
  · exact congrArg Pace.timings hp
  · rw [he]
    refine (congrArg Aside.timings (aside_applyAck ..)).trans (Eq.trans ?_ (congrArg Pace.timings hk))
    rcases noteSerial_eq k packet.header.flags.lane s packet.header ack now with
      ⟨-, hn⟩ | ⟨-, paused, time, interval, stalled, hn⟩
    · rw [hn]
      rfl
    · rw [hn]
      rfl

lemma timings_onTimer (l : ReliableLink) (now : TimePoint) : (l.onTimer now).mTimings = l.mTimings := by
  rcases aside_onTimer (l := l) now with ha | he
  · exact congrArg Aside.timings ha
  · rw [he]
    rfl

lemma timings_commit (l : ReliableLink) (lane : Lane) (now : TimePoint) :
    (l.commit lane now).mTimings = l.mTimings := by
  obtain ⟨n, sent, resent, ha⟩ := aside_commit l lane now
  exact congrArg Aside.timings ha

end ReliableLink

namespace ReliableLink

variable {l l' : ReliableLink}

def Windowed (l : ReliableLink) : Prop :=
  (MinCongestionWindow : ℚ) ≤ l.mCongestionWindow ∧ l.mCongestionWindow ≤ MaxCongestionWindow

lemma windowed_initial {timings : LinkTimings} (h : timings.fixedCwnd = 0) :
    (MinCongestionWindow : ℚ) ≤ initialWindow timings ∧ initialWindow timings ≤ MaxCongestionWindow := by
  have hle : (MinCongestionWindow : ℚ) ≤ MaxCongestionWindow := by
    norm_num [MinCongestionWindow, MaxCongestionWindow]
  rw [initialWindow, if_neg (by omega)]
  split
  · exact ⟨le_rfl, hle⟩
  · next hmin =>
    split
    · exact ⟨hle, le_rfl⟩
    · next hmax => exact ⟨Nat.cast_le.mpr (not_lt.mp hmin), Nat.cast_le.mpr (not_lt.mp hmax)⟩

lemma Windowed.steady (h : l.Windowed) (hs : l.Steady l') : l.mCongestionWindow ≤ l'.mCongestionWindow ∧
    l'.Windowed := by
  obtain ⟨hleast, hmost⟩ := h
  rcases hs.window with hw | ⟨counted, hw⟩
  · exact ⟨hw.ge, hw ▸ hleast, hw ▸ hmost⟩
  · have hpos : (0 : ℚ) ≤ l.mCongestionWindow := le_trans (Nat.cast_nonneg _) hleast
    have hgrown : l.mCongestionWindow ≤ l'.mCongestionWindow := by
      rw [hw]
      exact le_min (le_add_of_nonneg_right (div_nonneg (Nat.cast_nonneg _) hpos)) hmost
    exact ⟨hgrown, hleast.trans hgrown, hw ▸ min_le_right ..⟩

lemma Windowed.halved (h : l.Windowed) (hh : l.Halved l') : l'.Windowed := by
  obtain ⟨hleast, hmost⟩ := h
  have hpos : (0 : ℚ) ≤ l.mCongestionWindow := le_trans (Nat.cast_nonneg _) hleast
  rw [Windowed, hh.window]
  exact ⟨le_max_right .., max_le ((half_le_self hpos).trans hmost) (hleast.trans hmost)⟩

lemma congestionWindow_le (h : l.Windowed) : l.congestionWindow ≤ MaxCongestionWindow := by
  have hfloor : ⌊l.mCongestionWindow⌋ ≤ (MaxCongestionWindow : ℤ) := Int.floor_le_iff.mpr (by
    have := h.2
    push_cast
    linarith)
  rw [congestionWindow]
  exact Int.toNat_le.mpr hfloor

lemma congestionWindow_eq (h : l.Windowed) : (l.congestionWindow : ℤ) = ⌊l.mCongestionWindow⌋ :=
  Int.toNat_of_nonneg (Int.floor_nonneg.mpr ((Nat.cast_nonneg _).trans h.1))

end ReliableLink

namespace Host

variable {source : Lane → OutboundMessage → Prop} {incoming : Packet → Prop} {h h' : Host}

lemma open_of_step (hs : Step source incoming h h') {lane : Lane} (hl : lane ≠ .media)
    (ho : h'.offered = some lane) :
    h'.link.congestionWindowOpen lane = true := by
  cases hs with
  | peek other next =>
    have hpace : (h.peek other next).link.pace = h.link.pace := ReliableLink.pace_peek ..
    have hsome : (h.link.peek single other next).1.isSome = true ∧ other = lane := by
      rw [peek] at ho
      dsimp only at ho
      obtain ⟨packet, hp, rfl⟩ := Option.map_eq_some_iff.mp ho
      exact ⟨Option.isSome_iff_exists.mpr ⟨packet, hp⟩, rfl⟩
    obtain ⟨hsome, rfl⟩ := hsome
    rw [ReliableLink.congestionWindowOpen_of_pace hpace]
    exact ReliableLink.open_of_peek hl hsome
  | _ => cases ho

lemma open_of_offered (hr : (system source incoming).Reachable h) {lane : Lane} (hl : lane ≠ .media)
    (ho : h.offered = some lane) : h.link.congestionWindowOpen lane = true := by
  refine hr.invariant (P := fun h => h.offered = some lane → h.link.congestionWindowOpen lane = true) ?_ ?_ ho
  · rintro h ⟨timings, id, budget, rfl⟩ ho
    cases ho
  · intro h h' _ _ (hs : Step source incoming h h')
    exact open_of_step hs hl

lemma Step.timings (hs : Step source incoming h h') : h'.link.mTimings = h.link.mTimings := by
  rcases hs.pace with ⟨heard, he⟩ | ⟨lane, now, -, he⟩ | ⟨packet, now, -, he⟩ | ⟨now, he⟩
  · exact congrArg ReliableLink.Pace.timings he
  · rw [he, ReliableLink.timings_commit]
  · rw [he, ReliableLink.timings_onPacket]
  · rw [he, ReliableLink.timings_onTimer]

lemma Step.window (hs : Step source incoming h h') (hsound : h.Sound) : h'.link = h.link.fail ∨
    (h.link.Steady h'.link ∨ h.link.Halved h'.link) ∧ (h'.link.sharedWire ≤ h.link.sharedWire ∨
      ∃ lane, h.offered = some lane ∧ sharesCongestionWindow lane = true ∧
        h'.link.mCongestionWindow = h.link.mCongestionWindow ∧ h'.link.sharedWire ≤ h.link.sharedWire + 1) := by
  have hw := Timed.sending_of_sound hsound
  have hn := ReliableLink.numbered_of_view hsound.view
  rcases hs.pace with ⟨heard, he⟩ | ⟨lane, now, ho, he⟩ | ⟨packet, now, -, he⟩ | ⟨now, he⟩
  · have heased := ReliableLink.Eased.of_pace he
    exact .inr ⟨.inl ⟨heased.start, .inl heased.window⟩, .inl (ReliableLink.sharedWire_le heased.wire)⟩
  · obtain ⟨hsteady, hwindow, hwire⟩ := ReliableLink.commit_window h.link lane now
    rw [he]
    cases hshared : sharesCongestionWindow lane with
    | false =>
      rw [hshared] at hwire
      exact .inr ⟨.inl hsteady, .inl hwire⟩
    | true =>
      rw [hshared] at hwire
      exact .inr ⟨.inl hsteady, .inr ⟨lane, ho, hshared, hwindow, hwire⟩⟩
  · obtain ⟨hcases, hwire⟩ := ReliableLink.onPacket_window hw hn packet now
    rw [he]
    exact .inr ⟨hcases, .inl hwire⟩
  · rw [he]
    exact (ReliableLink.onTimer_window hw hn now).imp_right fun ⟨hcases, hwire⟩ => ⟨hcases, .inl hwire⟩

lemma fits_of_offered (hr : (system source incoming).Reachable h) {lane : Lane} (ho : h.offered = some lane)
    (hshared : sharesCongestionWindow lane = true) : h.link.sharedWire < h.link.congestionWindow := by
  have hl : lane ≠ .media := by
    rintro rfl
    cases hshared
  have hopen := open_of_offered hr hl ho
  rw [ReliableLink.congestionWindowOpen_eq, hshared] at hopen
  exact of_decide_eq_true hopen

lemma windowed (hr : (system source incoming).Reachable h) (hc : h.link.mTimings.fixedCwnd = 0) :
    h.link.Windowed ∧ h.link.sharedWire ≤ MaxCongestionWindow := by
  refine hr.invariant (P := fun h => h.link.mTimings.fixedCwnd = 0 →
    h.link.Windowed ∧ h.link.sharedWire ≤ MaxCongestionWindow) ?_ ?_ hc
  · rintro h ⟨timings, id, budget, rfl⟩ hc
    exact ⟨ReliableLink.windowed_initial hc, Nat.zero_le _⟩
  · intro h h' hr ih (hs : Step source incoming h h') hc
    have hc' := hc
    rw [hs.timings] at hc'
    obtain ⟨hwindow, hwire⟩ := ih hc'
    rcases hs.window (sound hr) with he | ⟨hcases, hwire'⟩
    · rw [he]
      exact ⟨ReliableLink.windowed_initial hc', Nat.zero_le _⟩
    · refine ⟨hcases.elim (fun hst => (hwindow.steady hst).2) hwindow.halved, ?_⟩
      rcases hwire' with hle | ⟨lane, ho, hshared, -, hle⟩
      · exact hle.trans hwire
      · have hopen := fits_of_offered hr ho hshared
        have := ReliableLink.congestionWindow_le hwindow
        omega

def Halves (h h' : Host) : Prop := h'.link.mFailed = false ∧ h'.link.mRecoveryStart ≠ h.link.mRecoveryStart

lemma Step.halves (hs : Step source incoming h h') (hsound : h.Sound) (hf : h'.link.mFailed = false) :
    ¬h.Halves h' ∧ h.link.Steady h'.link ∨ h.Halves h' ∧ h.link.Halved h'.link := by
  rcases hs.window hsound with he | ⟨hst | hh, -⟩
  · rw [he] at hf
    cases hf
  · exact .inl ⟨fun hne => hne.2 hst.start, hst⟩
  · obtain ⟨lane, seq, e, e', -, he, hlive, hlate, -⟩ := hh.lost
    have hle := ReliableLink.numbered_of_view hsound.view lane seq e he hlive
    refine .inr ⟨⟨hf, ?_⟩, hh⟩
    rw [hh.start]
    omega

lemma start_le_of_steps (hr : (system source incoming).Reachable h) (hs : (system source incoming).Steps h h')
    (hf : h'.link.mFailed = false) : h.link.mRecoveryStart ≤ h'.link.mRecoveryStart := by
  have hmono : h'.link.mFailed = true ∨ h.link.mRecoveryStart ≤ h'.link.mRecoveryStart := by
    refine hr.persists (P := fun k => k.link.mFailed = true ∨ h.link.mRecoveryStart ≤ k.link.mRecoveryStart) ?_ hs
      (.inr le_rfl)
    intro k k' hr hk (hs : Step source incoming k k')
    cases hf' : k'.link.mFailed with
    | true => exact .inl rfl
    | false =>
      rcases run_of_step hs (sound hr).offers with hfails | hrun
      · rw [hfails] at hf'
        cases hf'
      · have hlive : k.link.mFailed = false := hrun.failed.symm.trans hf'
        have hle := hk.resolve_left (by rw [hlive]; exact Bool.false_ne_true)
        rcases hs.halves (sound hr) hf' with ⟨-, hst⟩ | ⟨-, hh⟩
        · exact .inr (hst.start ▸ hle)
        · obtain ⟨lane, seq, e, e', -, he, hlive, hlate, -⟩ := hh.lost
          have hnumber := ReliableLink.numbered_of_view (sound hr).view lane seq e he hlive
          rw [hh.start]
          exact .inr (by omega)
  exact hmono.resolve_left (by rw [hf]; exact Bool.false_ne_true)

theorem window_bounds (hr : (system source incoming).Reachable h) (hc : h.link.mTimings.fixedCwnd = 0) :
    ((MinCongestionWindow : ℚ) ≤ h.link.mCongestionWindow ∧ h.link.mCongestionWindow ≤ MaxCongestionWindow) ∧
    h.link.sharedWire ≤ MaxCongestionWindow ∧
    (∀ lane now, h.offered = some lane → sharesCongestionWindow lane = true →
      ((h.commit lane now).link.sharedWire : ℤ) ≤ ⌊(h.commit lane now).link.mCongestionWindow⌋) ∧
    (∀ h', Step source incoming h h' → h'.link.mFailed = false →
      (h.Halves h' → h'.link.mCongestionWindow = max (h.link.mCongestionWindow / 2) MinCongestionWindow) ∧
        (¬h.Halves h' → h.link.mCongestionWindow ≤ h'.link.mCongestionWindow)) ∧
    ∀ h₁ h₂ h₃, Step source incoming h h₁ → h.Halves h₁ → (system source incoming).Steps h₁ h₂ →
      Step source incoming h₂ h₃ → h₂.Halves h₃ → ∃ lane seq e e', sharesCongestionWindow lane = true ∧
        h₂.link.entry lane seq = some e ∧ e.lost = false ∧ h₁.link.mTransmissions < e.transmission ∧
        h₃.link.entry lane seq = some e' ∧ e'.lost = true ∧ e'.transmission = e.transmission := by
  obtain ⟨hwindow, hwire⟩ := windowed hr hc
  have hsound := sound hr
  refine ⟨hwindow, hwire, fun lane now ho hshared => ?_, fun h' hs hf => ?_, fun h₁ h₂ h₃ hs hh hrun hs' hh' => ?_⟩
  · obtain ⟨-, hsame, hle⟩ := ReliableLink.commit_window h.link lane now
    rw [hshared, if_pos rfl] at hle
    have hopen := fits_of_offered hr ho hshared
    change ((h.link.commit lane now).sharedWire : ℤ) ≤ ⌊(h.link.commit lane now).mCongestionWindow⌋
    rw [hsame, ← ReliableLink.congestionWindow_eq hwindow]
    exact Int.ofNat_le.mpr (hle.trans hopen)
  · rcases hs.halves hsound hf with ⟨hn, hst⟩ | ⟨hh, hhalved⟩
    · exact ⟨fun hh => absurd hh hn, fun _ => (hwindow.steady hst).1⟩
    · exact ⟨fun _ => hhalved.window, fun hn => absurd hh hn⟩
  · have hr₁ := hr.step hs
    have hr₂ := hr₁.steps hrun
    obtain ⟨-, hfirst⟩ := (hs.halves hsound hh.1).resolve_left fun h => h.1 hh
    obtain ⟨-, hsecond⟩ := (hs'.halves (sound hr₂) hh'.1).resolve_left fun h => h.1 hh'
    obtain ⟨lane, seq, e, e', hshared, he, hlive, hlate, hrest⟩ := hsecond.lost
    have hlive₂ : h₂.link.mFailed = false := by
      rcases run_of_step hs' (sound hr₂).offers with hfails | hrun'
      · have hf := hh'.1
        rw [hfails] at hf
        cases hf
      · exact hrun'.failed.symm.trans hh'.1
    have hmono := start_le_of_steps hr₁ hrun hlive₂
    refine ⟨lane, seq, e, e', hshared, he, hlive, ?_, hrest⟩
    rw [hfirst.number, ← hfirst.start]
    exact hmono.trans_lt hlate

def sentOnReliable : Host :=
  (Timed.run {} [(0, .peek .reliable (some { body := [1] })), (0, .commit .reliable 0)]).host

def timedOutOnce : Host := sentOnReliable.onTimer (fromMillis 100)

def sentAgain : Host := (timedOutOnce.peek .reliable none).commit .reliable (fromMillis 100)

theorem window_bounds_twice : ∃ lane seq e e', sharesCongestionWindow lane = true ∧
    sentAgain.link.entry lane seq = some e ∧ e.lost = false ∧ timedOutOnce.link.mTransmissions < e.transmission ∧
    (sentAgain.onTimer (fromMillis 1000)).link.entry lane seq = some e' ∧ e'.lost = true ∧
    e'.transmission = e.transmission := by
  have hr : (system (fun _ _ => True) fun _ => True).Reachable sentOnReliable :=
    Timed.reachable_host (Timed.run_reachable (by decide +kernel))
  obtain ⟨-, -, -, -, htwice⟩ := window_bounds hr (by decide +kernel)
  refine htwice timedOutOnce sentAgain _ (.onTimer _ _) ⟨by decide +kernel, by decide +kernel⟩ ?_ (.onTimer _ _)
    ⟨by decide +kernel, by decide +kernel⟩
  exact .tail (.single (.peek _ .reliable none fun _ _ => trivial)) (.commit _ .reliable _ (by decide +kernel))

end Host

end NetLink.Channel
