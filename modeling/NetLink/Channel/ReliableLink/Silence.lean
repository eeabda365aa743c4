import NetLink.Channel.ReliableLink.Deadlines
import NetLink.Channel.ReliableLink.Timed

/-! A link is given up for silence only: its two clocks run from the last sign of its peer. -/

namespace NetLink.Channel

open SequenceBuffer

namespace AckScan

lemma acked_le_release (start : ℕ) (scan : AckScan) (seq : ℕ) : scan.acked ≤ (scan.release start seq).acked := by
  rw [release]
  split
  · exact le_rfl
  · exact Nat.le_succ _

lemma acked_le_foldl (start : ℕ) (seqs : List ℕ) (scan : AckScan) :
    scan.acked ≤ (seqs.foldl (release start) scan).acked := by
  induction seqs generalizing scan with
  | nil => exact le_rfl
  | cons seq seqs ih => exact (acked_le_release start scan seq).trans (ih _)

lemma release_of_acked {start seq : ℕ} {scan : AckScan} (h : (scan.release start seq).acked = scan.acked) :
    scan.release start seq = scan := by
  rw [release] at h ⊢
  split at h
  · rfl
  · simp at h

lemma foldl_release_of_acked (start : ℕ) (seqs : List ℕ) (scan : AckScan)
    (h : (seqs.foldl (release start) scan).acked = scan.acked) : seqs.foldl (release start) scan = scan := by
  induction seqs generalizing scan with
  | nil => rfl
  | cons seq seqs ih =>
    rw [List.foldl_cons] at h ⊢
    have hle := acked_le_release start scan seq
    have hle' := acked_le_foldl start seqs (scan.release start seq)
    have hacked : (scan.release start seq).acked = scan.acked := by omega
    have hr := release_of_acked hacked
    rw [hr] at h ⊢
    exact ih scan h

end AckScan

section Moves

variable {f : Feed} {v w : LinkView} {lane other : Lane} {s : Stream} {seq : ℕ}

variable (lane) in
lemma contains_set (h : (v.streams lane).inFlight.contains seq = true → s.inFlight.contains seq = true)
    (hc : (v.streams other).inFlight.contains seq = true) :
    ((v.set lane s).streams other).inFlight.contains seq = true := by
  by_cases ho : other = lane
  · subst ho
    rw [LinkView.streams_set]
    exact h hc
  · simpa only [LinkView.set, Function.update_of_ne ho] using hc

lemma LinkMove.contains (hk : ¬f.releases) (hi : ViewInv v) (hm : LinkMove f v w)
    (hc : (v.streams other).inFlight.contains seq = true) : (w.streams other).inFlight.contains seq = true := by
  cases hm with
  | take lane m => exact contains_set lane id hc
  | takeMedia | deliverMedia | drop | queue | unqueue | fault => exact hc
  | recv lane ms t hr hl hm =>
    refine contains_set lane (fun h => ?_) hc
    cases hm <;> exact h
  | tune lane => exact contains_set lane id hc
  | scrub lane => exact contains_set lane id hc
  | retransmit lane t rest e now =>
    refine contains_set _ (fun h => ?_) hc
    rw [Stream.retransmitted, contains_assign (hi.send lane).wf]
    exact h
  | transmit lane c now hm hcur hr =>
    refine contains_set _ (fun h => ?_) hc
    rw [SequenceBuffer.contains, (hi.send lane).find_transmitted hr]
    split
    · rfl
    · exact h
  | release lane t e hr => exact absurd hr hk
  | advance lane base hr => exact absurd hr hk
  | giveUp record rest e =>
    refine contains_set record.lane (fun h => ?_) hc
    rw [Stream.givenUp, contains_assign (hi.send record.lane).wf]
    exact h

end Moves

namespace ReliableLink

variable {l l' : ReliableLink} {lane : Lane} {s : Stream} {records : List SentRecord} {now : TimePoint}
  {header : PacketHeader} {since : TimePoint} {ack : AckBody}

def Holds (l l' : ReliableLink) : Prop := ∀ lane seq, l.entry lane seq ≠ none → l'.entry lane seq ≠ none

lemma Holds.trans {l'' : ReliableLink} (h : l.Holds l') (h' : l'.Holds l'') : l.Holds l'' :=
  fun lane seq hf => h' lane seq (h lane seq hf)

lemma holds_of_eq (h : ∀ lane seq, l'.entry lane seq = l.entry lane seq) : l.Holds l' :=
  fun lane seq hf => by rwa [h]

lemma SameSending.holds (h : l.SameSending l') : l.Holds l' := holds_of_eq h.entry

lemma holds_of_pace {heard : Option TimePoint} (h : l'.pace = { l.pace with heard := heard }) : l.Holds l' := by
  refine holds_of_eq fun lane seq => ?_
  have hin : (l'.streamFor lane).inFlight = (l.streamFor lane).inFlight :=
    congrArg Stream.Outward.inFlight (congrFun (congrArg Pace.outward h) lane)
  rw [entry, entry, hin]

lemma swept_holds {due : InFlight → Bool} (h : Swept due l records l') (hw : l.Sending) : l.Holds l' := by
  refine (Swept.keeps (P := fun k => l.Holds k ∧ k.Sending) h ⟨holds_of_eq fun _ _ => rfl, hw⟩ ?_
    fun k sent stats hk => hk).1
  rintro k record e timedOut he ⟨hk, hw⟩
  refine ⟨hk.trans fun lane seq hf => ?_, hw.markLost record e timedOut⟩
  by_cases hsame : lane = record.lane ∧ seq = record.seq
  · obtain ⟨rfl, rfl⟩ := hsame
    rw [entry_markLost hw he]
    exact Option.some_ne_none _
  · rwa [entry_markLost_of_ne hw hsame]

lemma acknowledged_of_acked
    (h : ((l.streamFor lane).acknowledge header ack l.mRecoveryStart l.mLargestAcked).acked = 0) (other : Lane)
    (seq : ℕ) :
    (l.acknowledged lane header ack).entry other seq = l.entry other seq := by
  have hscan := AckScan.foldl_release_of_acked l.mRecoveryStart ((l.streamFor lane).ackedSeqs header ack)
    { stream := l.streamFor lane, largestAcked := l.mLargestAcked } h
  rw [acknowledged]
  by_cases ho : other = lane
  · subst ho
    rw [entry_setStream, Stream.acknowledge, hscan]
    rfl
  · rw [entry_setStream_of_ne ho]
    rfl

lemma updateProgressClock_since {progress : Bool}
    (h : (l.updateProgressClock now progress).mStalledSince = some since) :
    since = now ∨ progress = false ∧ l.mStalledSince = some since := by
  rw [updateProgressClock_stalled] at h
  split at h
  · cases h
  split at h
  · exact .inl (Option.some.inj h).symm
  · next hn =>
    rw [Bool.or_eq_true, not_or] at hn
    exact .inr ⟨Bool.eq_false_iff.mpr hn.1, h⟩

lemma noteSerial_since (h : (l.noteSerial lane s header ack now).mStalledSince = some since) :
    since = now ∨ l.mStalledSince = some since := by
  rw [noteSerial] at h
  split at h
  · rw [setPeerPaused] at h
    split at h
    · exact .inr h
    · exact (updateProgressClock_since h).imp_right And.right
  · exact .inr h

lemma afterAck_since {scan : AckScan}
    (h : (l.afterAck lane scan now).mStalledSince = some since) :
    since = now ∨ scan.acked = 0 ∧ l.mStalledSince = some since := by
  obtain ⟨window, he⟩ := afterAck_eq l lane scan now
  rw [he] at h
  refine (updateProgressClock_since h).imp_right fun ⟨hp, hs⟩ => ⟨by simpa using hp, ?_⟩
  obtain ⟨rtt, timeouts, hn⟩ := noteAcked_eq (l := l) scan now
  obtain ⟨streams, stats, window, start, hd, -⟩ := swept_eq (detectLoop_swept (l.noteAcked scan now).mSent
    (l.noteAcked scan now) false)
  rw [detectLosses, hd, hn] at hs
  exact hs

lemma afterAck_holds (hw : l.Sending) (scan : AckScan) (now : TimePoint) : l.Holds (l.afterAck lane scan now) := by
  obtain ⟨_, rtt, timeouts, l', hs, stalled, window, he⟩ := afterAck_swept l lane scan now
  have hl' := swept_holds hs hw
  rw [he]
  exact hl'

lemma handleAck_since (hw : l.Sending)
    (hs : l.mStreams lane = some s) (h : (l.handleAck lane s header ack now).mStalledSince = some since) :
    since = now ∨ l.mStalledSince = some since ∧ l.Holds (l.handleAck lane s header ack now) := by
  have hsame := sameSending_noteSerial hs header ack now
  rw [handleAck] at h ⊢
  have hwk := hsame.sending hw
  rcases afterAck_since (l := (l.noteSerial lane s header ack now).acknowledged lane header ack) h with h | ⟨ha, h⟩
  · exact .inl h
  · refine (noteSerial_since h).imp_right fun h => ⟨h, ?_⟩
    have hk : (l.noteSerial lane s header ack now).Holds
        ((l.noteSerial lane s header ack now).acknowledged lane header ack) :=
      holds_of_eq (acknowledged_of_acked ha)
    exact (hsame.holds.trans hk).trans (afterAck_holds (Sending.acknowledged hwk) _ now)

lemma onPacket_since {packet : Packet} (hw : l.Sending)
    (h : (l.onPacket packet now).mStalledSince = some since) :
    since = now ∨ l.mStalledSince = some since ∧ l.Holds (l.onPacket packet now) := by
  rcases onPacket_pace l packet now with ⟨heard, hp⟩ | ⟨-, ack, -, k, s, ⟨heard, hk⟩, hs, he⟩
  · exact .inr ⟨(congrArg Pace.stalled hp).symm.trans h, holds_of_pace hp⟩
  · rw [he] at h ⊢
    have hwk : k.Sending := fun lane => by
      rw [show (k.streamFor lane).inFlight = (l.streamFor lane).inFlight from
        congrArg Stream.Outward.inFlight (congrFun (congrArg Pace.outward hk) lane)]
      exact hw lane
    refine (handleAck_since hwk hs h).imp_right fun ⟨hst, hh⟩ => ⟨(congrArg Pace.stalled hk).symm.trans hst, ?_⟩
    exact (holds_of_pace hk).trans hh

lemma commit_since (h : (l.commit lane now).mStalledSince = some since) :
    since = now ∨ l.mStalledSince = some since := by
  rcases commit_pace l lane now with hp | ⟨-, s, t, seq, e, -, he, -⟩
  · exact .inr ((congrArg Pace.stalled hp).symm.trans h)
  · obtain ⟨stats, ht⟩ := transmit_eq l lane t seq e now
    rw [he, ht] at h
    exact (updateProgressClock_since h).imp_right And.right

lemma commit_holds {h : Host} (hi : ViewInv (l.view h)) (ho : l.Offers lane) (now : TimePoint) :
    l.Holds (l.commit lane now) := by
  by_cases hl : lane = .media
  · rcases commit_pace l lane now with hp | ⟨hne, -⟩
    · exact holds_of_pace hp
    · exact absurd hl hne
  · intro other seq hf
    obtain ⟨s, t, e, hs, -, hm, -⟩ := commit_move (f := { Host.feed (fun _ _ => True) fun _ => True with
      releases := False }) (h := h) hl ho now
    obtain rfl : l.streamFor lane = s := streamFor_of_some l lane s hs
    have hinv : ViewInv ((l.view h).set lane (l.streamFor lane).nextLost.2) :=
      hi.set (hi.send lane).nextLost ((hi.recv lane).congr rfl rfl)
    have hc := contains_set (v := l.view h) lane (s := (l.streamFor lane).nextLost.2) id
      (Option.isSome_iff_ne_none.mpr hf)
    exact Option.isSome_iff_ne_none.mp (hm.contains id hinv hc)

lemma onTimer_since (hw : l.Sending) (h : (l.onTimer now).mStalledSince = some since) :
    l.mStalledSince = some since ∧ l.Holds (l.onTimer now) := by
  rcases onTimer_swept l now with he | he | ⟨_, due, pinged, l', hs, n, he⟩
  · rw [he] at h ⊢
    exact ⟨h, holds_of_eq fun _ _ => rfl⟩
  · rw [he] at h
    cases h
  · obtain ⟨streams, stats, window, start, hl', -⟩ := swept_eq hs
    have hst : l'.mStalledSince = l.mStalledSince := by rw [hl']
    rw [he] at h ⊢
    rw [(waiting_foldl_probe { l' with mTimeoutsInARow := n } now StreamLanes).2] at h
    have hl' := swept_holds hs hw
    have hl' : l.Holds l' := hl'
    refine ⟨hst.symm.trans h, hl'.trans (holds_of_eq fun lane seq => ?_)⟩
    exact entry_foldl_probe ..

lemma lastReceived_commit (l : ReliableLink) (lane : Lane) (now : TimePoint) :
    (l.commit lane now).mLastReceived = l.mLastReceived := by
  obtain ⟨n, sent, resent, ha⟩ := aside_commit l lane now
  exact congrArg Aside.heard ha

lemma lastReceived_handleAck (s : Stream) (header : PacketHeader) (ack : AckBody) (now : TimePoint) :
    (l.handleAck lane s header ack now).mLastReceived = l.mLastReceived := by
  refine (congrArg Aside.heard (aside_applyAck ..)).trans ?_
  rcases noteSerial_eq l lane s header ack now with ⟨-, he⟩ | ⟨-, paused, time, interval, stalled, he⟩
  · rw [he]
    rfl
  · rw [he]
    rfl

lemma lastReceived_dispatch (l : ReliableLink) (packet : Packet) (now : TimePoint) :
    (l.dispatch packet now).mLastReceived = l.mLastReceived := by
  rcases dispatch_pace l packet now with hp | ⟨-, ack, -, k, s, hk, -, he⟩
  · exact congrArg Pace.heard hp
  · rw [he, lastReceived_handleAck]
    exact congrArg Pace.heard hk

lemma lastReceived_onTimer (l : ReliableLink) (now : TimePoint) :
    (l.onTimer now).mLastReceived = l.mLastReceived ∨ (l.onTimer now).mLastReceived = none := by
  rcases aside_onTimer (l := l) now with ha | he
  · exact .inl (congrArg Aside.heard ha)
  · exact .inr (by rw [he]; rfl)

end ReliableLink

namespace Host

namespace Happening

def Hears (x : Happening) : Prop := ∃ packet now, x.call = some (.onPacket packet now) ∧ x.before.Takes packet

def Supervises (x : Happening) : Prop := ∃ now, x.call = some (.supervise now)

def Acknowledges (x : Happening) : Prop := ∃ lane seq, x.before.entry lane seq ≠ none ∧
    x.after.entry lane seq = none

lemma not_hears {x : Happening} (h : ∀ packet now, x.call ≠ some (.onPacket packet now)) : ¬x.Hears := by
  rintro ⟨packet, now, hc, -⟩
  exact h packet now hc

lemma not_acknowledges {x : Happening} (h : x.before.Holds x.after) : ¬x.Acknowledges := by
  rintro ⟨lane, seq, hf, hn⟩
  exact h lane seq hf hn

end Happening

namespace Timed

variable {source : Lane → OutboundMessage → Prop} {incoming : Packet → Prop} {t t' : Timed}

lemma Step.history (hs : Step source incoming t t') :
    ∃ c, t'.history = t.history ++ [⟨t'.clock, c, t.host.link, t'.host.link⟩] := by
  cases hs with
  | call c now => exact ⟨_, rfl⟩
  | exchangeBudget budget now => exact ⟨_, rfl⟩

lemma Step.since {since : TimePoint} (hs : Step source incoming t t') (hsound : t.host.Sound)
    (h : t'.host.link.mStalledSince = some since) :
    since = t'.clock ∨ t.host.link.mStalledSince = some since ∧ t.host.link.Holds t'.host.link := by
  have hw := sending_of_sound hsound
  rcases hs.pace with ⟨heard, he⟩ | ⟨lane, ho, he⟩ | ⟨packet, -, he⟩ | he
  · exact .inr ⟨(congrArg ReliableLink.Pace.stalled he).symm.trans h, ReliableLink.holds_of_pace he⟩
  · rw [he] at h ⊢
    exact (ReliableLink.commit_since h).imp_right fun h =>
      ⟨h, ReliableLink.commit_holds (h := t.host) hsound.view (hsound.offers lane ho) _⟩
  · rw [he] at h ⊢
    exact ReliableLink.onPacket_since hw h
  · rw [he] at h ⊢
    exact .inr (ReliableLink.onTimer_since hw h)

lemma Step.heard (hs : Step source incoming t t') : ∃ x, t'.history = t.history ++ [x] ∧ x.time = t'.clock ∧
    (t'.host.link.mLastReceived = none ∨ t'.host.link.mLastReceived = t.host.link.mLastReceived ∧ ¬x.Hears ∨
      t'.host.link.mLastReceived = some t'.clock ∧ (t.host.link.mLastReceived.isSome = true ∨ x.Supervises)) := by
  cases hs with
  | exchangeBudget budget now => exact ⟨_, rfl, rfl, .inr (.inl ⟨rfl, Happening.not_hears (by simp)⟩)⟩
  | call c now hc hn ht =>
    refine ⟨_, rfl, rfl, ?_⟩
    cases c with
    | peek lane next =>
      exact .inr (.inl ⟨congrArg ReliableLink.Pace.heard (ReliableLink.pace_peek ..),
        Happening.not_hears (by simp)⟩)
    | commit lane time => exact .inr (.inl ⟨ReliableLink.lastReceived_commit .., Happening.not_hears (by simp)⟩)
    | peekAck =>
      exact .inr (.inl ⟨congrArg ReliableLink.Pace.heard ReliableLink.pace_peekAck, Happening.not_hears (by simp)⟩)
    | commitAck => exact .inr (.inl ⟨rfl, Happening.not_hears (by simp)⟩)
    | setPaused paused =>
      exact .inr (.inl ⟨congrArg ReliableLink.Pace.heard (ReliableLink.pace_setPaused paused),
        Happening.not_hears (by simp)⟩)
    | takeDelivered => exact .inr (.inl ⟨rfl, Happening.not_hears (by simp)⟩)
    | supervise time =>
      obtain rfl := ht time rfl
      exact .inr (.inr ⟨rfl, .inr ⟨time, rfl⟩⟩)
    | onTimer time =>
      rcases ReliableLink.lastReceived_onTimer t.host.link time with h | h
      · exact .inr (.inl ⟨h, Happening.not_hears (by simp)⟩)
      · exact .inl h
    | onPacket packet time =>
      obtain rfl := ht time rfl
      by_cases hp : t.host.link.Takes packet
      · have hl : (t.host.link.onPacket packet time).mLastReceived = t.host.link.mLastReceived.map
          fun _ => time := by
          rw [ReliableLink.onPacket_of_takes hp, ReliableLink.lastReceived_dispatch]
        cases hlast : t.host.link.mLastReceived with
        | none => exact .inl (hl.trans (by rw [hlast]; rfl))
        | some since => exact .inr (.inr ⟨hl.trans (by rw [hlast]; rfl), .inl rfl⟩)
      · obtain ⟨n, hl⟩ := ReliableLink.onPacket_of_not_takes time hp
        have hlast : (t.host.link.onPacket packet time).mLastReceived = t.host.link.mLastReceived := by rw [hl]
        refine .inr (.inl ⟨hlast, ?_⟩)
        rintro ⟨packet', time', h, hp'⟩
        obtain ⟨rfl, rfl⟩ := Call.onPacket.inj (Option.some.inj h)
        exact hp hp'

structure Silent (t : Timed) : Prop where
  past : ∀ x ∈ t.history, x.time ≤ t.clock
  stalled : ∀ since, t.host.link.mStalledSince = some since → ∃ old x recent, t.history = old ++ x :: recent ∧
    x.time = since ∧ x.after.waiting = true ∧ ∀ r ∈ recent, r.after.waiting = true ∧ ¬r.Acknowledges
  heard : ∀ since, t.host.link.mLastReceived = some since →
    (∃ x ∈ t.history, x.Supervises ∧ x.time ≤ since) ∧ ∀ x ∈ t.history, x.Hears → x.time ≤ since

lemma Step.silent (hs : Step source incoming t t') (hsound : t.host.Sound) (hp : t'.host.link.Paced)
    (h : t.Silent) :
    t'.Silent where
  past x hx := by
    obtain ⟨c, hh⟩ := hs.history
    rw [hh, List.mem_append, List.mem_singleton] at hx
    rcases hx with hx | rfl
    · exact (h.past x hx).trans hs.clock_le
    · exact le_rfl
  stalled since hst := by
    obtain ⟨c, hh⟩ := hs.history
    have hwait : t'.host.link.waiting = true := by rw [← hp.stalled, hst]; rfl
    rcases hs.since hsound hst with rfl | ⟨hold, hholds⟩
    · exact ⟨t.history, _, [], hh, rfl, hwait, by simp⟩
    · obtain ⟨old, x, recent, he, ht, hx, hrecent⟩ := h.stalled since hold
      refine ⟨old, x, recent ++ [⟨t'.clock, c, t.host.link, t'.host.link⟩], by
        rw [hh, he]; simp, ht, hx, fun r hr => ?_⟩
      rcases List.mem_append.mp hr with hr | hr
      · exact hrecent r hr
      · rw [List.mem_singleton] at hr
        subst hr
        exact ⟨hwait, Happening.not_acknowledges hholds⟩
  heard since hsince := by
    obtain ⟨x, hh, ht, hcase⟩ := hs.heard
    rw [hh]
    rcases hcase with hn | ⟨hsame, hx⟩ | ⟨hnow, hstart⟩
    · rw [hn] at hsince
      cases hsince
    · obtain ⟨⟨y, hy, hy'⟩, hall⟩ := h.heard since (hsame.symm.trans hsince)
      refine ⟨⟨y, List.mem_append_left _ hy, hy'⟩, fun r hr hhears => ?_⟩
      rcases List.mem_append.mp hr with hr | hr
      · exact hall r hr hhears
      · rw [List.mem_singleton] at hr
        exact absurd (hr ▸ hhears) hx
    · obtain rfl : t'.clock = since := Option.some.inj (hnow.symm.trans hsince)
      have hpast : ∀ r ∈ t.history ++ [x], r.time ≤ t'.clock := by
        intro r hr
        rcases List.mem_append.mp hr with hr | hr
        · exact (h.past r hr).trans hs.clock_le
        · rw [List.mem_singleton.mp hr, ht]
      refine ⟨?_, fun r hr _ => hpast r hr⟩
      rcases hstart with hsome | hsup
      · obtain ⟨since, hlast⟩ := Option.isSome_iff_exists.mp hsome
        obtain ⟨y, hy, hsup, -⟩ := (h.heard since hlast).1
        exact ⟨y, List.mem_append_left _ hy, hsup, hpast y (List.mem_append_left _ hy)⟩
      · exact ⟨x, by simp, hsup, hpast x (by simp)⟩

lemma silent (hr : (system source incoming).Reachable t) : t.Silent := by
  refine hr.invariant (P := Silent) ?_ ?_
  · rintro t ⟨⟨timings, id, budget, he⟩, hh⟩
    refine ⟨by simp [hh], fun since hs => ?_, fun since hs => ?_⟩
    all_goals
      rw [he] at hs
      cases hs
  · intro t t' hr h (hs : Step source incoming t t')
    exact hs.silent (sound (reachable_host hr)) (hs.host.paced (paced (reachable_host hr))) h

theorem given_up_for_silence (hr : (system source incoming).Reachable t) :
    (∀ now, t.clock ≤ now → t.host.link.mFailed = false → (t.host.link.onTimer now).mFailed = true →
      (∃ old x recent, t.history = old ++ x :: recent ∧
        x.time ≤ now - fromMillis t.host.link.mTimings.peerTimeout ∧ x.after.waiting = true ∧
        ∀ r ∈ recent, r.after.waiting = true ∧ ¬r.Acknowledges) ∨
      (∃ x ∈ t.history, x.Supervises ∧ x.time ≤ now - fromMillis t.host.link.mTimings.peerTimeout) ∧
        ∀ x ∈ t.history, x.Hears → x.time ≤ now - fromMillis t.host.link.mTimings.peerTimeout) ∧
    (t.host.link.mStalledSince.isSome = true ↔ ∃ lane ∈ StreamLanes, ∃ s, t.host.link.mStreams lane = some s ∧
      s.inFlight.isEmpty = false ∧ s.peerPaused = false) := by
  have hs := silent hr
  refine ⟨fun now _ hl hf => ?_, ?_⟩
  · have hout : t.host.link.peerTimedOut now = true := (ReliableLink.failed_onTimer hl now).symm.trans hf
    rw [ReliableLink.peerTimedOut, Bool.or_eq_true, Option.any_eq_true, Option.any_eq_true] at hout
    rcases hout with ⟨since, hst, hle⟩ | ⟨since, hlast, hle⟩
    · obtain ⟨old, x, recent, he, ht, hx, hrecent⟩ := hs.stalled since hst
      exact .inl ⟨old, x, recent, he, ht ▸ le_sub_comm.mp (of_decide_eq_true hle), hx, hrecent⟩
    · obtain ⟨⟨x, hx, hsup, ht⟩, hall⟩ := hs.heard since hlast
      have hle : since ≤ now - fromMillis t.host.link.mTimings.peerTimeout :=
        le_sub_comm.mp (of_decide_eq_true hle)
      exact .inr ⟨⟨x, hx, hsup, ht.trans hle⟩, fun y hy hh => (hall y hy hh).trans hle⟩
  · rw [(paced (reachable_host hr)).stalled, ReliableLink.waiting, List.any_eq_true]
    simp only [Option.any_eq_true, Bool.and_eq_true, Bool.not_eq_true',
      and_comm (a := Stream.peerPaused _ = false)]

theorem given_up_for_silence_sentOnce : (sentOnce.host.link.onTimer 5000000000).mFailed = true ∧
    ∃ x ∈ sentOnce.history, x.time ≤ 0 ∧ x.after.waiting = true := by
  obtain ⟨hgiven, -⟩ := given_up_for_silence (t := sentOnce) (run_reachable (by decide))
  have hfails : (sentOnce.host.link.onTimer 5000000000).mFailed = true := by decide
  refine ⟨hfails, ?_⟩
  rcases hgiven 5000000000 (by decide) rfl hfails with ⟨old, x, recent, he, ht, hx, -⟩ | ⟨⟨x, hx, ⟨now, hc⟩, -⟩, -⟩
  · exact ⟨x, he ▸ by simp, ht, hx⟩
  · simp only [sentOnce, run, made, next, List.foldl_cons, List.foldl_nil, List.nil_append, List.cons_append,
      List.mem_cons, List.not_mem_nil, or_false] at hx
    rcases hx with rfl | rfl <;> simp at hc

end Timed

end Host

end NetLink.Channel
