import NetLink.Channel.ReliableLink.Aside
import NetLink.Channel.ReliableLink.Ends

/-! What a link tells about the Media datagrams it received, and what it was told. -/

namespace NetLink.Channel

namespace ReliableLink

structure Reports where
  serial : ℕ
  received : ℕ
  acks : ℕ
  counted : ℕ
  told : ℕ
  latest : Lane → Option ℕ

def Aside.reports (a : Aside) : Reports where
  serial := a.serial
  received := a.received
  acks := a.acks
  counted := a.counted
  told := a.told
  latest lane := (a.inward lane).ackSerial

def reports (l : ReliableLink) : Reports := l.aside.reports

variable {l l' : ReliableLink} {lane : Lane} {s : Stream}

lemma reports_of_aside (h : l'.aside = l.aside) : l'.reports = l.reports := congrArg Aside.reports h

lemma reports_commit (l : ReliableLink) (lane : Lane) (now : TimePoint) :
    (l.commit lane now).reports = l.reports := by
  obtain ⟨n, sent, resent, ha⟩ := aside_commit l lane now
  have hr := congrArg Aside.reports ha
  exact hr

lemma reports_setStream_eq (l : ReliableLink) (lane : Lane) (s : Stream) : (l.setStream lane s).reports =
    { l.reports with latest := Function.update l.reports.latest lane s.ackSerial } := by
  have hlatest : (fun other => ((l.setStream lane s).streamFor other).ackSerial) =
      Function.update (fun other => (l.streamFor other).ackSerial) lane s.ackSerial := by
    funext other
    rw [streamFor_setStream]
    exact Function.apply_update (fun _ t => Stream.ackSerial t) _ _ _ _
  exact congrArg (fun latest => { l.reports with latest := latest }) hlatest

lemma reports_setStream (h : s.ackSerial = (l.streamFor lane).ackSerial) :
    (l.setStream lane s).reports = l.reports := by
  rw [reports_setStream_eq, h]
  exact congrArg (fun latest => { l.reports with latest := latest })
    (Function.update_eq_self lane l.reports.latest)

variable (l lane s) in
lemma reports_acceptInOrder (header : PacketHeader) (body : List UInt8)
    (h : s.ackSerial = (l.streamFor lane).ackSerial) :
    (l.acceptInOrder lane s header body).2.reports = l.reports := by
  rw [acceptInOrder]
  split
  · exact reports_setStream h
  · have hs : ∀ budget assembler, ({ l with mBudget := budget }.setStream lane
        { s with assembler := assembler }).reports = l.reports := fun budget assembler => by
      rw [reports_setStream]
      · rfl
      · exact h
    dsimp only
    split
    · apply hs
    · exact hs _ _

lemma reports_drainLoop (lane : Lane) (n : ℕ) (l : ReliableLink) : (drainLoop lane n l).reports = l.reports := by
  induction n generalizing l with
  | zero => rfl
  | succ n ih =>
    rw [drainLoop]
    dsimp only
    split
    · rfl
    · next b hb =>
      have ha := reports_acceptInOrder l lane (l.streamFor lane) b.header b.body rfl
      split
      · next hr =>
        rw [hr] at ha
        exact ha
      · next hr =>
        rw [hr] at ha
        rw [ih, reports_setStream]
        · exact ha
        · rfl

lemma reports_retryRefused (lane : Lane) : (l.retryRefused lane).reports = l.reports := by
  rw [retryRefused]
  split
  · rfl
  · exact (reports_drainLoop lane _ _).trans (reports_setStream rfl)

lemma reports_handleData (header : PacketHeader) (body : List UInt8) :
    (l.handleData lane header body).reports = l.reports := by
  rw [handleData]
  dsimp only
  have hr : (((l.checkIndex lane).setStream lane ((l.checkIndex lane).streamFor lane)).retryRefused lane).reports =
      l.reports := by
    rw [reports_retryRefused, reports_setStream rfl, reports_of_aside (aside_checkIndex lane)]
  generalize ((l.checkIndex lane).setStream lane ((l.checkIndex lane).streamFor lane)).retryRefused
    lane = k at hr ⊢
  have hdue : (k.dueAck lane).reports = k.reports := rfl
  split
  · exact hr
  split
  · exact hr
  split
  · rw [reports_setStream, hdue, hr]
    rfl
  · have ha := reports_acceptInOrder (k.dueAck lane) lane (k.streamFor lane) header body rfl
    split
    · next he =>
      rw [he] at ha
      exact ha.trans (hdue.trans hr)
    · next he =>
      rw [he] at ha
      rw [drainReorderBuffer, reports_drainLoop, reports_setStream]
      · exact ha.trans (hdue.trans hr)
      · rfl

lemma reports_handleMedia (header : PacketHeader) (body : List UInt8) :
    (l.handleMedia header body).reports = { l.reports with
      received := (l.mMediaReceived + 1) % 2 ^ 32
      counted := l.mStats.mediaReceived + 1 } := by
  rw [handleMedia]
  dsimp only
  split <;> rfl

instance (l : ReliableLink) (p : Packet) : Decidable (l.Takes p) :=
  inferInstanceAs (Decidable (l.mFailed = false ∧ (_ ∨ _) ∧ (_ ∨ _)))

def processed (l : ReliableLink) (p : Packet) : Option AckBody :=
  if l.Takes p ∧ p.header.flags.kind = .ack ∧ (l.mStreams p.header.flags.lane).isSome then p.ack else none

def isNewest (l : ReliableLink) (lane : Lane) (ack : AckBody) : Bool :=
  (l.streamFor lane).ackSerial.all (isLaterSerial ack.serial)

def Reports.noted (r : Reports) (lane : Lane) (ack : AckBody) : Reports :=
  { r with told := ack.mediaReceived, latest := Function.update r.latest lane (some ack.serial) }

lemma reports_noteSerial (hs : l.mStreams lane = some s) (header : PacketHeader) (ack : AckBody)
    (now : TimePoint) :
    (l.noteSerial lane s header ack now).reports =
      if l.isNewest lane ack then l.reports.noted lane ack else l.reports := by
  rw [isNewest, streamFor_of_some l lane s hs]
  rcases noteSerial_eq l lane s header ack now with ⟨hold, he⟩ | ⟨hnew, paused, time, interval, stalled, he⟩
  · rw [he, hold]
    rfl
  · have hset := reports_setStream_eq (l := l) lane (s.tuned paused (some ack.serial) time interval)
    rw [he, hnew, if_pos rfl, Reports.noted]
    exact congrArg (fun r => { r with told := ack.mediaReceived }) hset

lemma reports_onAck (p : Packet) (now : TimePoint) : (l.onAck p now).reports =
    ((l.mStreams p.header.flags.lane).bind fun _ => p.ack).elim l.reports fun ack =>
      if l.isNewest p.header.flags.lane ack then l.reports.noted p.header.flags.lane ack else l.reports := by
  rw [onAck]
  split
  · next s ack hs ha =>
    rw [hs, ha, handleAck]
    exact (congrArg Aside.reports (aside_applyAck ..)).trans (reports_noteSerial hs p.header ack now)
  · next hnone =>
    have hn : (l.mStreams p.header.flags.lane).bind (fun _ => p.ack) = none := by
      rw [Option.bind_eq_none_iff]
      intro s hs
      by_contra ha
      obtain ⟨ack, ha⟩ := Option.ne_none_iff_exists'.mp ha
      exact hnone s ack hs ha
    rw [hn]
    rfl

lemma reports_onPacket (p : Packet) (now : TimePoint) :
    l.processed p = none ∧ ((l.onPacket p now).reports = l.reports ∨ (l.onPacket p now).reports = { l.reports with
        received := (l.mMediaReceived + 1) % 2 ^ 32
        counted := l.mStats.mediaReceived + 1 }) ∨
      ∃ ack, l.processed p = some ack ∧ (l.onPacket p now).reports =
        if l.isNewest p.header.flags.lane ack then l.reports.noted p.header.flags.lane ack else l.reports := by
  by_cases ht : l.Takes p
  · rw [onPacket_of_takes ht]
    have hp : l.processed p = if p.header.flags.kind = .ack then
        (l.mStreams p.header.flags.lane).bind fun _ => p.ack else none := by
      rw [processed]
      cases l.mStreams p.header.flags.lane <;> simp [ht]
    generalize hk : ({ l with
      mRemoteStreamID := some p.header.srcStreamID
      mLastReceived := l.mLastReceived.map fun _ => now } : ReliableLink) = k
    have hr : k.reports = l.reports := by rw [← hk]; rfl
    rw [dispatch]
    cases hkind : p.header.flags.kind with
    | data =>
      refine .inl ⟨by simp [hp, hkind], ?_⟩
      dsimp only
      split
      · right
        rw [reports_handleMedia, ← hk]
        rfl
      · left
        rw [reports_handleData, hr]
    | ack =>
      simp only [hkind, if_true] at hp
      obtain ⟨fault, hc⟩ : ∃ fault, k.checkIndex p.header.flags.lane = { k with indexFault := fault } := by
        rw [checkIndex]
        split
        · exact ⟨k.indexFault, rfl⟩
        · exact ⟨true, rfl⟩
      have hon : ((k.checkIndex p.header.flags.lane).onAck p now).reports = (l.processed p).elim
        l.reports fun ack =>
          if l.isNewest p.header.flags.lane ack then l.reports.noted p.header.flags.lane ack else l.reports := by
        rw [reports_onAck, hp, hc, ← hk]
        rfl
      dsimp only
      cases hpr : l.processed p with
      | none => exact .inl ⟨rfl, .inl (by rw [hon, hpr]; rfl)⟩
      | some ack => exact .inr ⟨ack, rfl, by rw [hon, hpr]; rfl⟩
    | ping => exact .inl ⟨by simp [hp, hkind], .inl hr⟩
    | beacon => exact .inl ⟨by simp [hp, hkind], .inl hr⟩
  · obtain ⟨n, he⟩ := onPacket_of_not_takes now ht
    rw [he]
    exact .inl ⟨by simp [processed, ht], .inl rfl⟩

lemma reports_retried (lane : Lane) :
    (if (l.mStreams lane).isSome then l.retryRefused lane else l).reports = l.reports := by
  split
  · exact reports_retryRefused lane
  · rfl

lemma reports_makeAck (lane : Lane) :
    (l.makeAck lane).2.reports =
        { l.reports with serial := (l.reports.serial + 1) % 2 ^ 32, acks := l.reports.acks + 1 } ∧
      ∃ ranges, (l.makeAck lane).1.ack = some ⟨(l.reports.serial + 1) % 2 ^ 32, l.reports.received, ranges⟩ := by
  have hr := reports_retried (l := l) lane
  rw [← hr]
  exact ⟨rfl, _, rfl⟩

structure Reporting (r : Reports) (failed : Bool) (made : List AckBody) : Prop where
  serial : r.acks < 2 ^ 32 → r.serial = r.acks
  received : failed = false → r.counted < 2 ^ 32 → r.received = r.counted
  past : r.acks < 2 ^ 32 → r.counted < 2 ^ 32 → ∀ a ∈ made, a.serial ≤ r.acks ∧ a.mediaReceived ≤ r.counted
  sorted : r.acks < 2 ^ 32 → r.counted < 2 ^ 32 →
    made.Pairwise fun a b => a.serial < b.serial ∧ a.mediaReceived ≤ b.mediaReceived

namespace Reporting

variable {r : Reports} {failed : Bool} {made made' : List AckBody}

lemma noted (h : Reporting r failed made) (lane : Lane) (ack : AckBody) :
    Reporting (r.noted lane ack) failed made :=
  ⟨h.serial, h.received, h.past, h.sorted⟩

lemma counted (h : Reporting r failed made) :
    Reporting { r with received := (r.received + 1) % 2 ^ 32, counted := r.counted + 1 } failed made where
  serial := h.serial
  received hf hc := by
    have hreceived := h.received hf (Nat.lt_of_succ_lt hc)
    dsimp only at hc ⊢
    omega
  past hn hc a ha := by
    have hpast := h.past hn (Nat.lt_of_succ_lt hc) a ha
    exact ⟨hpast.1, Nat.le_succ_of_le hpast.2⟩
  sorted hn hc := h.sorted hn (Nat.lt_of_succ_lt hc)

lemma fail (h : Reporting r failed made) (n : ℕ) (latest : Lane → Option ℕ) (hs : made' <+: made) :
    Reporting { r with received := n, latest := latest } true made' where
  serial := h.serial
  received hf := by simp at hf
  past hn hc a ha := h.past hn hc a (hs.subset ha)
  sorted hn hc := (h.sorted hn hc).sublist hs.sublist

lemma makeAck (h : Reporting r false made) (ranges : List SeqRange) :
    Reporting { r with serial := (r.serial + 1) % 2 ^ 32, acks := r.acks + 1 } false
      (made ++ [⟨(r.serial + 1) % 2 ^ 32, r.received, ranges⟩]) := by
  have hserial : r.acks + 1 < 2 ^ 32 → (r.serial + 1) % 2 ^ 32 = r.acks + 1 := fun hn => by
    have := h.serial (Nat.lt_of_succ_lt hn)
    omega
  refine ⟨hserial, h.received, fun hn hc a ha => ?_, fun hn hc => ?_⟩
  · rcases List.mem_append.mp ha with ha | ha
    · have hpast := h.past (Nat.lt_of_succ_lt hn) hc a ha
      exact ⟨Nat.le_succ_of_le hpast.1, hpast.2⟩
    · rw [List.mem_singleton.mp ha]
      exact ⟨(hserial hn).le, (h.received rfl hc).le⟩
  · refine List.pairwise_append.mpr ⟨h.sorted (Nat.lt_of_succ_lt hn) hc, List.pairwise_singleton _ _,
      fun a ha b hb => ?_⟩
    have hpast := h.past (Nat.lt_of_succ_lt hn) hc a ha
    rw [List.mem_singleton.mp hb]
    dsimp only
    rw [hserial hn, h.received rfl hc]
    exact ⟨Nat.lt_succ_of_le hpast.1, hpast.2⟩

lemma weaken (h : Reporting r false made) (failed : Bool) : Reporting r failed made :=
  ⟨h.serial, fun _ => h.received rfl, h.past, h.sorted⟩

end Reporting

structure Reports.Kept (I : Reports → Bool → List AckBody → Prop) : Prop where
  noted : ∀ {r failed made}, I r failed made → ∀ lane ack, I (r.noted lane ack) failed made
  counted : ∀ {r failed made}, I r failed made →
    I { r with received := (r.received + 1) % 2 ^ 32, counted := r.counted + 1 } failed made
  fail : ∀ {r failed made made'}, I r failed made → ∀ n latest, made' <+: made →
    I { r with received := n, latest := latest } true made'
  makeAck : ∀ {r made}, I r false made → ∀ ranges,
    I { r with serial := (r.serial + 1) % 2 ^ 32, acks := r.acks + 1 } false
      (made ++ [⟨(r.serial + 1) % 2 ^ 32, r.received, ranges⟩])
  weaken : ∀ {r made}, I r false made → ∀ failed, I r failed made

lemma kept_reporting : Reports.Kept Reporting where
  noted := Reporting.noted
  counted := Reporting.counted
  fail := Reporting.fail
  makeAck := Reporting.makeAck
  weaken := Reporting.weaken

namespace Reports.Kept

variable {I : Reports → Bool → List AckBody → Prop} {wire : List Packet}

lemma fillAck (hI : Reports.Kept I) (h : I l.reports false ((wire ++ l.mPendingAcks).filterMap Packet.ack))
    (lane : Lane) :
    I (l.fillAck lane).reports false ((wire ++ (l.fillAck lane).mPendingAcks).filterMap Packet.ack) := by
  rw [ReliableLink.fillAck]
  split
  · obtain ⟨hreports, ranges, hack⟩ := reports_makeAck (l := l) lane
    have hpending : (l.makeAck lane).2.mPendingAcks = l.mPendingAcks := congrArg (·.2.2) (ends_makeAck lane)
    have hmade : (wire ++ ((l.makeAck lane).2.mPendingAcks ++ [(l.makeAck lane).1])).filterMap Packet.ack =
        (wire ++ l.mPendingAcks).filterMap Packet.ack ++ [⟨(l.reports.serial + 1) % 2 ^ 32, l.reports.received,
          ranges⟩] := by
      rw [hpending, ← List.append_assoc, List.filterMap_append, List.filterMap_cons, hack]
      rfl
    have hnew := hI.makeAck h ranges
    rw [← hreports, ← hmade] at hnew
    exact hnew
  · exact h

lemma fillPing (h : I l.reports false ((wire ++ l.mPendingAcks).filterMap Packet.ack)) (lane : Lane) :
    I (l.fillPing lane).reports false ((wire ++ (l.fillPing lane).mPendingAcks).filterMap Packet.ack) := by
  rw [ReliableLink.fillPing]
  split
  · have hmade : (wire ++ (l.mPendingAcks ++ [(l.makePing lane).1])).filterMap Packet.ack =
        (wire ++ l.mPendingAcks).filterMap Packet.ack := by
      rw [← List.append_assoc, List.filterMap_append]
      exact List.append_nil _
    rw [← hmade] at h
    exact h
  · exact h

lemma fillAcks (hI : Reports.Kept I) (h : I l.reports false ((wire ++ l.mPendingAcks).filterMap Packet.ack)) :
    I l.fillAcks.reports false ((wire ++ l.fillAcks.mPendingAcks).filterMap Packet.ack) := by
  rw [ReliableLink.fillAcks]
  generalize StreamLanes = lanes
  induction lanes generalizing l with
  | nil => exact h
  | cons lane lanes ih => exact ih (fillPing (hI.fillAck h lane) lane)

end Reports.Kept

structure Reports.Quiet (r r' : Reports) : Prop where
  acks : r.acks ≤ r'.acks
  counted : r'.counted = r.counted
  told : r'.told = r.told
  latest : ∀ lane n, r'.latest lane = some n → r.latest lane = some n

namespace Reports.Quiet

variable {r r' r'' : Reports}

lemma refl (r : Reports) : r.Quiet r := ⟨le_rfl, rfl, rfl, fun _ _ => id⟩

lemma of_eq (h : r' = r) : r.Quiet r' := h ▸ refl r'

lemma trans (h : r.Quiet r') (h' : r'.Quiet r'') : r.Quiet r'' :=
  ⟨h.acks.trans h'.acks, h'.counted.trans h.counted, h'.told.trans h.told,
    fun lane n hn => h.latest lane n (h'.latest lane n hn)⟩

end Reports.Quiet

lemma quiet_fillAck (lane : Lane) : l.reports.Quiet (l.fillAck lane).reports := by
  rw [fillAck]
  split
  · have hr := (reports_makeAck (l := l) lane).1
    have hq : l.reports.Quiet (l.makeAck lane).2.reports := by
      rw [hr]
      exact ⟨Nat.le_succ _, rfl, rfl, fun _ _ => id⟩
    exact hq
  · exact .refl _

lemma quiet_fillPing (lane : Lane) : l.reports.Quiet (l.fillPing lane).reports := by
  rw [fillPing]
  split <;> exact .refl _

lemma quiet_fillAcks : l.reports.Quiet l.fillAcks.reports := by
  rw [fillAcks]
  generalize StreamLanes = lanes
  induction lanes generalizing l with
  | nil => exact .refl _
  | cons lane lanes ih => exact ((quiet_fillAck lane).trans (quiet_fillPing lane)).trans ih

lemma quiet_peekAck : l.reports.Quiet l.peekAck.2.reports := by
  rw [peekAck]
  split
  · exact .refl _
  · dsimp only
    split
    · exact quiet_fillAcks
    · exact .refl _

lemma quiet_fail : l.reports.Quiet l.fail.reports := ⟨le_rfl, rfl, rfl, fun _ _ h => by cases h⟩

end ReliableLink

open ReliableLink

def Host.made (h : Host) : List AckBody := (h.wire ++ h.link.mPendingAcks).filterMap Packet.ack

def Host.Reporting (h : Host) : Prop := ReliableLink.Reporting h.link.reports h.link.mFailed h.made

variable {source : Lane → OutboundMessage → Prop} {incoming : Packet → Prop} {h h' : Host}

lemma Host.quiet_of_step (ht : Step source incoming h h') :
    h.link.reports.Quiet h'.link.reports ∨ ∃ packet now, incoming packet ∧ h' = h.onPacket packet now := by
  cases ht with
  | peek lane next hs => exact .inl (.of_eq (reports_of_aside (aside_peek _ _)))
  | commit lane now hoff => exact .inl (.of_eq (reports_commit h.link lane now))
  | peekAck => exact .inl quiet_peekAck
  | commitAck => exact .inl (.refl _)
  | onPacket packet now hp => exact .inr ⟨packet, now, hp, rfl⟩
  | setPaused paused => exact .inl (.of_eq (reports_of_aside (aside_setPaused paused)))
  | onTimer now =>
    left
    rcases aside_onTimer (l := h.link) now with ha | hf
    · exact .of_eq (reports_of_aside ha)
    · rw [Host.onTimer, hf]
      exact quiet_fail
  | supervise now => exact .inl (.refl _)
  | takeDelivered => exact .inl (.refl _)
  | exchangeBudget budget => exact .inl (.refl _)

lemma Host.counts_of_step (ht : Step source incoming h h') :
    h.link.reports.acks ≤ h'.link.reports.acks ∧ h.link.reports.counted ≤ h'.link.reports.counted := by
  rcases quiet_of_step ht with hq | ⟨packet, now, -, rfl⟩
  · exact ⟨hq.acks, hq.counted.ge⟩
  · rcases reports_onPacket (l := h.link) packet now with ⟨-, he | he⟩ | ⟨ack, -, he⟩
    · rw [Host.onPacket, he]
      exact ⟨le_rfl, le_rfl⟩
    · rw [Host.onPacket, he]
      exact ⟨le_rfl, Nat.le_succ _⟩
    · rw [Host.onPacket, he]
      split <;> exact ⟨le_rfl, le_rfl⟩

namespace Host

variable {I : Reports → Bool → List AckBody → Prop}

def Tells (I : Reports → Bool → List AckBody → Prop) (h : Host) : Prop := I h.link.reports h.link.mFailed h.made

namespace Tells

lemma congr (hr : h.Tells I) (he : h'.link.reports = h.link.reports) (hf : h'.link.mFailed = h.link.mFailed)
    (hm : h'.made = h.made) : h'.Tells I := by
  rw [Tells, he, hf, hm]
  exact hr

lemma of_aside (hr : h.Tells I) (he : h'.link.aside = h.link.aside) (hw : h'.wire = h.wire) : h'.Tells I := by
  have hp : h'.link.mPendingAcks = h.link.mPendingAcks := congrArg Aside.pending he
  exact hr.congr (reports_of_aside he) (congrArg Aside.failed he) (by rw [made, made, hp, hw])

lemma fail (hI : Reports.Kept I) (hr : h.Tells I) : Tells I { h with link := h.link.fail, offered := none } := by
  refine hI.fail hr 0 (fun _ => none) ?_
  simp only [made]
  rw [List.filterMap_append, List.filterMap_append]
  exact (List.prefix_append_right_inj _).mpr List.nil_prefix

lemma peekAck (hI : Reports.Kept I) (hr : h.Tells I) : h.peekAck.Tells I := by
  rw [Host.peekAck, ReliableLink.peekAck]
  split
  · exact hr.congr rfl rfl rfl
  · next hf =>
    rw [Tells, Bool.eq_false_of_not_eq_true hf] at hr
    dsimp only
    split
    · exact hI.weaken (hI.fillAcks hr) _
    · exact hI.weaken hr _

lemma commitAck (hr : h.Tells I) : h.commitAck.Tells I := by
  refine hr.congr rfl rfl ?_
  rw [made, made]
  cases hp : h.link.mPendingAcks <;> simp [Host.commitAck, ReliableLink.commitAck, hp]

lemma onPacket (hI : Reports.Kept I) (hr : h.Tells I) (packet : Packet) (now : TimePoint) :
    (h.onPacket packet now).Tells I := by
  by_cases ht : h.link.Takes packet
  · have hpending : (h.link.onPacket packet now).mPendingAcks = h.link.mPendingAcks :=
      congrArg (·.2.2) (ends_onPacket _ ht)
    have hmade : (h.onPacket packet now).made = h.made := by rw [made, Host.onPacket, hpending, made]
    rw [Tells, ht.1] at hr
    rw [Tells, hmade]
    refine hI.weaken ?_ _
    rcases reports_onPacket (l := h.link) packet now with ⟨-, he | he⟩ | ⟨ack, -, he⟩
    · rw [Host.onPacket, he]
      exact hr
    · rw [Host.onPacket, he]
      exact hI.counted hr
    · rw [Host.onPacket, he]
      split
      · exact hI.noted hr _ ack
      · exact hr
  · obtain ⟨n, he⟩ := onPacket_of_not_takes now ht
    rw [Host.onPacket, he]
    exact hr.congr rfl rfl rfl

lemma step (hI : Reports.Kept I) (hr : h.Tells I) (ho : ∀ lane, h.offered = some lane → h.link.Offers lane)
    (ht : Step source incoming h h') : h'.Tells I := by
  cases ht with
  | peek lane next hs => exact hr.of_aside (aside_peek _ _) rfl
  | commit lane now hoff =>
    obtain ⟨-, seq, e, hpeeked, -⟩ := ho lane hoff
    obtain ⟨n, sent, resent, ha⟩ := aside_commit h.link lane now
    have hp : (h.link.commit lane now).mPendingAcks = h.link.mPendingAcks := congrArg Aside.pending ha
    refine hr.congr (reports_commit h.link lane now) (congrArg Aside.failed ha) ?_
    simp only [made, Host.commit, hp, hpeeked, List.filterMap_append]
    rw [List.append_assoc]
    rfl
  | peekAck => exact hr.peekAck hI
  | commitAck => exact hr.commitAck
  | onPacket packet now hp => exact hr.onPacket hI packet now
  | setPaused paused => exact hr.of_aside (aside_setPaused paused) rfl
  | onTimer now =>
    rcases aside_onTimer (l := h.link) now with ha | hf
    · exact hr.of_aside ha rfl
    · rw [Host.onTimer, hf]
      exact hr.fail hI
  | supervise now => exact hr.congr rfl rfl rfl
  | takeDelivered => exact hr.congr rfl rfl rfl
  | exchangeBudget budget => exact hr.congr rfl rfl rfl

end Tells

lemma Reporting.step (hr : h.Reporting) (ho : ∀ lane, h.offered = some lane → h.link.Offers lane)
    (ht : Step source incoming h h') : h'.Reporting :=
  Tells.step kept_reporting hr ho ht

end Host

end NetLink.Channel
