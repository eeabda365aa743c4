import NetLink.Channel.ReliableLink.Deadlines
import NetLink.Channel.ReliableLink.Timed

/-! The sweeps of the record look only at its front, and still find every packet that is due: the record is in
order, by number and by time. -/

namespace NetLink.Channel

open SequenceBuffer

namespace ReliableLink

variable {l l' : ReliableLink} {lane : Lane} {seq : ℕ} {e : InFlight} {record : SentRecord}
  {records : List SentRecord} {due : InFlight → Bool} {h : Host}

lemma entryOf_eq (l : ReliableLink) (record : SentRecord) : l.entryOf record =
    (l.entry record.lane record.seq).filter fun e => !e.lost && e.transmission == record.transmission := by
  rw [entryOf, entry, streamFor]
  cases l.mStreams record.lane with
  | none => simp [Stream.new]
  | some s => rfl

lemma lost_markLost (l : ReliableLink) (record : SentRecord) (e : InFlight) (timedOut : Bool) (lane : Lane) :
    ((l.markLost record e timedOut).streamFor lane).lost =
      (l.streamFor lane).lost ++ if record.lane = lane then [record.seq] else [] := by
  obtain ⟨stats, window, start, hm⟩ := l.markLost_eq record e timedOut
  rw [hm]
  change ((l.setStream record.lane ((l.streamFor record.lane).givenUp record.seq e)).streamFor lane).lost = _
  rw [streamFor_setStream]
  by_cases hl : record.lane = lane
  · subst hl
    rw [Function.update_self, if_pos rfl]
    rfl
  · rw [Function.update_of_ne (Ne.symm hl), if_neg hl, List.append_nil]

lemma entryOf_markLost (hw : l.Sending) (he : l.entryOf record = some e) {r : SentRecord}
    (hr : r.transmission ≠ record.transmission) (timedOut : Bool) :
    (l.markLost record e timedOut).entryOf r = l.entryOf r := by
  rw [entryOf_eq, entryOf_eq]
  by_cases hsame : r.lane = record.lane ∧ r.seq = record.seq
  · obtain ⟨hf, -, ht⟩ := entryOf_eq_some he
    have hf : l.entry record.lane record.seq = some e := hf
    rw [hsame.1, hsame.2, entry_markLost hw he, hf]
    simp [Option.filter, ht, Ne.symm hr]
  · rw [entry_markLost_of_ne hw hsame]

structure Marks (l : ReliableLink) (marked : List SentRecord) (l' : ReliableLink) : Prop where
  entries : ∀ lane seq, l'.entry lane seq = (l.entry lane seq).map fun e =>
    if (⟨e.transmission, seq, lane⟩ : SentRecord) ∈ marked then { e with lost := true } else e
  lost : ∀ lane, (l'.streamFor lane).lost =
    (l.streamFor lane).lost ++ (marked.filter fun r => r.lane = lane).map (·.seq)

lemma marks_nil (he : ∀ lane seq, l'.entry lane seq = l.entry lane seq)
    (hl : ∀ lane, (l'.streamFor lane).lost = (l.streamFor lane).lost) : l.Marks [] l' where
  entries lane seq := by simp [he]
  lost lane := by simp [hl]

lemma Marks.cons {marked : List SentRecord} {timedOut : Bool} (hw : l.Sending) (he : l.entryOf record = some e)
    (h : (l.markLost record e timedOut).Marks marked l') : l.Marks (record :: marked) l' where
  entries lane seq := by
    obtain ⟨hf, -, ht⟩ := entryOf_eq_some he
    have hf : l.entry record.lane record.seq = some e := hf
    rw [h.entries]
    by_cases hsame : lane = record.lane ∧ seq = record.seq
    · obtain ⟨rfl, rfl⟩ := hsame
      rw [entry_markLost hw he, hf]
      simp only [Option.map_some, ht, List.mem_cons, true_or, if_true, ite_self]
    · rw [entry_markLost_of_ne hw hsame]
      refine congrArg (fun g => Option.map g (l.entry lane seq)) (funext fun e' => ?_)
      have hne : (⟨e'.transmission, seq, lane⟩ : SentRecord) ≠ record := by
        rintro rfl
        exact hsame ⟨rfl, rfl⟩
      simp only [List.mem_cons, hne, false_or]
  lost lane := by
    rw [h.lost, lost_markLost, List.append_assoc, List.filter_cons]
    by_cases hl : record.lane = lane <;> simp [hl]

lemma swept_marks (hs : Swept due l records l') (hw : l.Sending)
    (hsorted : records.Pairwise fun a b => a.transmission < b.transmission)
    (hdue : records.Pairwise fun a b => ∀ e e', l.entryOf a = some e → l.entryOf b = some e' → due e' = true →
      due e = true) :
    l.Marks (records.filter fun r => (l.entryOf r).any due) l' := by
  induction hs with
  | done l => exact marks_nil (fun _ _ => rfl) fun _ => rfl
  | count l records stats l' _ ih =>
    have hm := ih hw hsorted hdue
    exact ⟨hm.entries, hm.lost⟩
  | stop l record rest e he hd =>
    rw [List.filter_eq_nil_iff.mpr]
    · exact marks_nil (fun _ _ => rfl) fun _ => rfl
    · intro r hr hany
      rcases List.mem_cons.mp hr with rfl | hr
      · simp [he, hd] at hany
      · rw [Option.any_eq_true] at hany
        obtain ⟨e', he', hd'⟩ := hany
        have := (List.pairwise_cons.mp hdue).1 r hr e e' he he' hd'
        simp [hd] at this
  | drop l record rest l' hn _ ih =>
    rw [List.filter_cons_of_neg (by simp [hn])]
    exact ih hw (List.pairwise_cons.mp hsorted).2 (List.pairwise_cons.mp hdue).2
  | mark l record rest e timedOut l' he hd _ ih =>
    obtain ⟨hlt, hsorted'⟩ := List.pairwise_cons.mp hsorted
    have hsame : ∀ r ∈ rest, (l.markLost record e timedOut).entryOf r = l.entryOf r := fun r hr =>
      entryOf_markLost hw he (ne_of_gt (hlt r hr)) timedOut
    have hdue' : rest.Pairwise fun a b => ∀ e₁ e₂, (l.markLost record e timedOut).entryOf a = some e₁ →
        (l.markLost record e timedOut).entryOf b = some e₂ → due e₂ = true → due e₁ = true := by
      refine (List.pairwise_cons.mp hdue).2.imp_of_mem fun {a b} ha hb hab => ?_
      rw [hsame a ha, hsame b hb]
      exact hab
    have hm := ih (hw.markLost record e timedOut) hsorted' hdue'
    rw [List.filter_congr fun r hr => by rw [hsame r hr]] at hm
    rw [List.filter_cons_of_pos (by simp [he, hd])]
    exact hm.cons hw he

/-- What a scan of all that is in flight would do: every entry that is due and not given up yet is given up now,
and queued behind what waits already, in the order of transmission. -/
structure GivesUp (due : InFlight → Bool) (l l' : ReliableLink) : Prop where
  entries : ∀ lane seq, l'.entry lane seq = (l.entry lane seq).map fun e =>
    if e.lost = false ∧ due e = true then { e with lost := true } else e
  queued : ∃ marked : List SentRecord, marked.Pairwise (fun a b => a.transmission < b.transmission) ∧
    (∀ r, r ∈ marked ↔ ∃ e, l.entry r.lane r.seq = some e ∧ e.lost = false ∧ due e = true ∧
      e.transmission = r.transmission) ∧
    ∀ lane, (l'.streamFor lane).lost = (l.streamFor lane).lost ++ (marked.filter fun r =>
      r.lane = lane).map (·.seq)

lemma GivesUp.congr {k : ReliableLink} (h : GivesUp due l l')
    (he : ∀ lane seq, k.entry lane seq = l'.entry lane seq)
    (hl : ∀ lane, (k.streamFor lane).lost = (l'.streamFor lane).lost) : GivesUp due l k where
  entries lane seq := (he lane seq).trans (h.entries lane seq)
  queued := by
    obtain ⟨marked, hsorted, hmem, hlost⟩ := h.queued
    exact ⟨marked, hsorted, hmem, fun lane => (hl lane).trans (hlost lane)⟩

lemma swept_givesUp (hi : ViewInv (l.view h)) (hs : Swept due l l.mSent l')
    (hdue : ∀ lane seq e lane' seq' e', l.entry lane seq = some e → l.entry lane' seq' = some e' →
      e.transmission ≤ e'.transmission → due e' = true → due e = true) : GivesUp due l l' := by
  have hsorted : l.mSent.Pairwise fun a b => a.transmission < b.transmission := hi.order.sorted
  have hm := swept_marks hs (fun lane => (hi.send lane).wf) hsorted
    (hsorted.imp fun {a b} hlt e e' he he' hd => by
    obtain ⟨hf, -, ht⟩ := entryOf_eq_some he
    obtain ⟨hf', -, ht'⟩ := entryOf_eq_some he'
    exact hdue a.lane a.seq e b.lane b.seq e' hf hf' (by omega) hd)
  -- every live entry has its record
  have hmem : ∀ r : SentRecord, r ∈ l.mSent.filter (fun r => (l.entryOf r).any due) ↔
      ∃ e, l.entry r.lane r.seq = some e ∧ e.lost = false ∧ due e = true ∧ e.transmission = r.transmission := by
    intro r
    rw [List.mem_filter, Option.any_eq_true]
    constructor
    · rintro ⟨-, e, he, hd⟩
      obtain ⟨hf, hlost, ht⟩ := entryOf_eq_some he
      exact ⟨e, hf, hlost, hd, ht⟩
    · rintro ⟨e, hf, hlost, hd, ht⟩
      have hr := (hi.send r.lane).live r.seq e hf hlost
      rw [ht] at hr
      refine ⟨hr, e, ?_, hd⟩
      rw [entryOf_eq, hf]
      simp [Option.filter, hlost, ht]
  refine ⟨fun lane seq => ?_, _, hsorted.filter _, hmem, hm.lost⟩
  rw [hm.entries]
  cases hf : l.entry lane seq with
  | none => rfl
  | some e =>
    have hiff : (⟨e.transmission, seq, lane⟩ : SentRecord) ∈ l.mSent.filter (fun r => (l.entryOf r).any due) ↔
        e.lost = false ∧ due e = true := by
      rw [hmem]
      constructor
      · rintro ⟨e', hf', hlost, hd, -⟩
        obtain rfl : e = e' := Option.some.inj (hf.symm.trans hf')
        exact ⟨hlost, hd⟩
      · rintro ⟨hlost, hd⟩
        exact ⟨e, hf, hlost, hd, rfl⟩
    simp only [Option.map_some, hiff]

lemma detectLosses_givesUp (hi : ViewInv (l.view h)) :
    GivesUp (overtaken l.mLargestAcked) l l.detectLosses.2 := by
  refine swept_givesUp hi (detectLoop_swept l.mSent l false) fun lane seq e lane' seq' e' _ _ hle hd => ?_
  have hd := of_decide_eq_true hd
  exact decide_eq_true (by omega)

lemma onTimer_givesUp {clock now : TimePoint} (hi : ViewInv (l.view h)) (ho : l.InOrder clock)
    (hl : l.mFailed = false) (hn : (l.onTimer now).mFailed = false) :
    GivesUp (overdue (l.mRtt.timeoutFor l.mTimeoutsInARow) now) l (l.onTimer now) := by
  have hout : l.peerTimedOut now = false := (failed_onTimer hl now).symm.trans hn
  obtain ⟨due, pinged, hk⟩ := keepAlive_eq (l := l) now
  have hscan : GivesUp (overdue (l.mRtt.timeoutFor l.mTimeoutsInARow) now) (l.keepAlive now)
      ((l.keepAlive now).expire now).2 := by
    rw [hk]
    refine swept_givesUp (h := h) hi (timeoutLoop_swept ..) fun lane seq e lane' seq' e' hf hf' hle hd => ?_
    have hsent := ho.mono lane seq e lane' seq' e' hf hf' hle
    exact decide_eq_true ((Int.add_le_add_right hsent _).trans (of_decide_eq_true hd))
  have hstart : GivesUp (overdue (l.mRtt.timeoutFor l.mTimeoutsInARow) now) l
    ((l.keepAlive now).expire now).2 := by
    rw [hk] at hscan ⊢
    exact ⟨hscan.entries, hscan.queued⟩
  obtain ⟨n, hb⟩ := backOff_eq (l := ((l.keepAlive now).expire now).2) ((l.keepAlive now).expire now).1
  rw [onTimer_live hl hout, hb]
  exact hstart.congr (fun lane seq => entry_foldl_probe ..) fun lane => lost_foldl_probe ..

def ackApplied (l : ReliableLink) (lane : Lane) (stream : Stream) (header : PacketHeader) (ack : AckBody)
    (now : TimePoint) : ReliableLink :=
  let k := l.noteSerial lane stream header ack now
  (k.acknowledged lane header ack).noteAcked
    ((k.streamFor lane).acknowledge header ack k.mRecoveryStart k.mLargestAcked) now

lemma handleAck_eq (l : ReliableLink) (lane : Lane) (stream : Stream) (header : PacketHeader) (ack : AckBody)
    (now : TimePoint) : ∃ progress counted, l.handleAck lane stream header ack now =
      ((l.ackApplied lane stream header ack now).detectLosses.2.updateProgressClock now progress).growWindow lane
        (l.ackApplied lane stream header ack now).detectLosses.1 counted :=
  ⟨_, _, rfl⟩

lemma viewInv_ackApplied {s : Stream} (hi : ViewInv (l.view h)) (hs : l.mStreams lane = some s)
    (header : PacketHeader) (ack : AckBody) (now : TimePoint) :
    ViewInv ((l.ackApplied lane s header ack now).view h) := by
  have hk := hi.run (noteSerial_run (f := Host.feed (fun _ _ => True) fun _ => True) header ack now hs)
  rw [ackApplied]
  generalize l.noteSerial lane s header ack now = k at hk
  have hrun := acknowledge_run (f := { Host.feed (fun _ _ => True) fun _ => True with
    releases := True, acked := fun _ _ => True }) (k.view h) lane header ack k.mRecoveryStart
      k.mLargestAcked trivial
    fun _ _ => trivial
  have ha := hk.run hrun
  obtain ⟨rtt, timeouts, hn⟩ := noteAcked_eq (l := k.acknowledged lane header ack)
    ((k.streamFor lane).acknowledge header ack k.mRecoveryStart k.mLargestAcked) now
  rw [hn]
  rw [← view_setStream] at ha
  exact ha

end ReliableLink

namespace Host.Timed

theorem losses_found {source : Lane → OutboundMessage → Prop} {incoming : Packet → Prop} {t : Timed}
    (hr : (system source incoming).Reachable t) (hf : t.host.link.mFailed = false) :
    (∀ remote last lane s header ack now, t.host.link.mStreams lane = some s →
      let m := { t.host.link with mRemoteStreamID := remote, mLastReceived := last }.ackApplied lane s
        header ack now
      ReliableLink.GivesUp (ReliableLink.overtaken m.mLargestAcked) m m.detectLosses.2) ∧
    ∀ now, (t.host.link.onTimer now).mFailed = false → ReliableLink.GivesUp
      (ReliableLink.overdue (t.host.link.mRtt.timeoutFor t.host.link.mTimeoutsInARow) now) t.host.link
      (t.host.link.onTimer now) := by
  have hi := (sound (reachable_host hr)).view
  refine ⟨fun remote last lane s header ack now hs => ?_, fun now hn => ?_⟩
  · exact ReliableLink.detectLosses_givesUp (h := t.host) (ReliableLink.viewInv_ackApplied
      (l := { t.host.link with mRemoteStreamID := remote, mLastReceived := last }) hi hs header ack now)
  · exact ReliableLink.onTimer_givesUp (h := t.host) hi (inOrder hr) hf hn

/-- The record of the first Reliable packet is stale: the packet has been acknowledged. -/
def severalLanes : Timed :=
  run {} (([.control, .reliable, .bulk, .control, .control, .control] : List Lane).flatMap (sendOne 0) ++
    sendOne 90000000 .reliable ++ [(90000000, .onPacket (ackFor .reliable 1 []) 90000000)])

def lost (l : ReliableLink) : List (Option Bool) :=
  [(Lane.control, 1), (.bulk, 1), (.reliable, 2)].map fun place => (l.entry place.1 place.2).map (·.lost)

theorem losses_found_severalLanes :
    severalLanes.host.link.mSent.length = 7 ∧ severalLanes.host.link.entry .reliable 1 = none ∧
    lost (severalLanes.host.link.ackApplied .control (severalLanes.host.link.streamFor .control)
      (ackFor .control 0 []).header { ranges := [⟨2, 3⟩] } 100000000).detectLosses.2 =
        [some true, some true, some false] ∧
    lost (severalLanes.host.link.onTimer 270000000) = [some true, some true, some false] := by
  obtain ⟨hack, htimer⟩ := losses_found (t := severalLanes) (run_reachable (by decide +kernel)) (by decide +kernel)
  have hsome : (severalLanes.host.link.mStreams .control).isSome = true := by decide +kernel
  obtain ⟨s, hs⟩ := Option.isSome_iff_exists.mp hsome
  have hfound := hack severalLanes.host.link.mRemoteStreamID severalLanes.host.link.mLastReceived .control
    (severalLanes.host.link.streamFor .control) (ackFor .control 0 []).header { ranges := [⟨2, 3⟩] } 100000000
    (by rw [ReliableLink.streamFor, hs]; rfl)
  have hexpired := htimer 270000000 (by decide +kernel)
  refine ⟨by decide +kernel, by decide +kernel, ?_, ?_⟩
  · simp only [lost, List.map_cons, List.map_nil, hfound.entries]
    decide +kernel
  · simp only [lost, List.map_cons, List.map_nil, hexpired.entries]
    decide +kernel

end Host.Timed

end NetLink.Channel
