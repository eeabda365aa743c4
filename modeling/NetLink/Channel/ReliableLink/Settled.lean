import NetLink.Channel.ReliableLink.Invariant

/-! What holds of a link between two calls, and not in the middle of one: the front of the record is a live
transmission, the window starts at an unacknowledged packet, and only the budget holds up a head packet. -/

namespace NetLink.Channel

open SequenceBuffer

def BaseHeld (s : Stream) : Prop := s.sendBase = s.nextSendSeq ∨ s.inFlight.contains s.sendBase

def FrontLive (v : LinkView) : Prop :=
  ∀ r, v.sent.head? = some r →
    ∃ e, (v.streams r.lane).inFlight.find r.seq = some e ∧ e.lost = false ∧ e.transmission = r.transmission

structure Settled (v : LinkView) : Prop where
  front : FrontLive v
  base : ∀ lane, BaseHeld (v.streams lane)
  head : ∀ lane, HeadRefused (v.streams lane)

section Moves

variable {f : Feed} {v w : LinkView} {lane : Lane} {s t : Stream}

lemma HeadRefused.congr (h : HeadRefused s) (h₁ : t.reorder = s.reorder) (h₂ : t.nextExpected = s.nextExpected)
    (h₃ : t.budgetPaused = s.budgetPaused) (h₄ : t.refusedLength = s.refusedLength) : HeadRefused t := by
  unfold HeadRefused at h ⊢
  rwa [h₁, h₂, h₃, h₄]

lemma forall_set {P : Stream → Prop} {streams : Lane → Stream} (h : ∀ lane, P (streams lane)) (hs : P s)
    (other : Lane) : P (Function.update streams lane s other) :=
  (Function.forall_update_iff streams fun _ s => P s).mpr ⟨hs, fun other _ => h other⟩ other

lemma LinkMove.headRefused (hk : ¬f.receives) (hm : LinkMove f v w) (h : ∀ lane, HeadRefused (v.streams lane)) :
    ∀ lane, HeadRefused (w.streams lane) := by
  cases hm with
  | take lane m => exact forall_set h ((h lane).congr rfl rfl rfl rfl)
  | takeMedia | deliverMedia | drop | queue | unqueue | fault => exact h
  | recv lane ms t hr => exact absurd hr hk
  | tune lane => exact forall_set h ((h lane).congr rfl rfl rfl rfl)
  | scrub lane => exact forall_set h ((h lane).congr rfl rfl rfl rfl)
  | retransmit lane => exact forall_set h ((h lane).congr rfl rfl rfl rfl)
  | transmit lane => exact forall_set h ((h lane).congr rfl rfl rfl rfl)
  | release lane => exact forall_set h ((h lane).congr rfl rfl rfl rfl)
  | advance lane => exact forall_set h ((h lane).congr rfl rfl rfl rfl)
  | giveUp record => exact forall_set h ((h record.lane).congr rfl rfl rfl rfl)

lemma LinkMove.baseHeld (hk : ¬f.releases) (hi : ViewInv v) (hm : LinkMove f v w)
    (h : ∀ lane, BaseHeld (v.streams lane)) : ∀ lane, BaseHeld (w.streams lane) := by
  cases hm with
  | take lane m => exact forall_set h (h lane)
  | takeMedia | deliverMedia | drop | queue | unqueue | fault => exact h
  | recv lane ms t hr hl hm =>
    refine forall_set h ?_
    cases hm <;> exact h lane
  | tune lane => exact forall_set h (h lane)
  | scrub lane => exact forall_set h (h lane)
  | retransmit lane seq rest e now =>
    refine forall_set h ((h lane).imp_right fun hc => ?_)
    rw [Stream.retransmitted, contains_assign (hi.send lane).wf]
    exact hc
  | transmit lane c now hm hc hr =>
    refine forall_set h (.inr ?_)
    rw [contains, (hi.send lane).find_transmitted hr]
    split
    · rfl
    · next hne =>
      exact (h lane).resolve_left hne
  | release lane seq e hr => exact absurd hr hk
  | advance lane base hr => exact absurd hr hk
  | giveUp record rest e =>
    refine forall_set h ((h record.lane).imp_right fun hc => ?_)
    rw [Stream.givenUp, contains_assign (hi.send record.lane).wf]
    exact hc

lemma FrontLive.set (h : FrontLive v) (hs : s.inFlight = (v.streams lane).inFlight) :
    FrontLive (v.set lane s) := by
  intro r hr
  obtain ⟨e, hf, he⟩ := h r hr
  refine ⟨e, ?_, he⟩
  by_cases hl : r.lane = lane
  · subst hl
    rwa [LinkView.streams_set, hs]
  · simpa [LinkView.set, hl] using hf

lemma FrontLive.append {n seq : ℕ} {e : InFlight} (h : FrontLive v) (hf : s.inFlight.find seq = some e)
    (he : e.lost = false) (hn : e.transmission = n)
    (hold : ∀ t e, (v.streams lane).inFlight.find t = some e → e.lost = false → s.inFlight.find t = some e) :
    FrontLive { v.set lane s with sent := v.sent ++ [⟨n, seq, lane⟩], transmissions := n } := by
  intro r hr
  simp only [List.head?_append, Option.or_eq_some_iff, List.head?_cons, Option.some.injEq] at hr
  rcases hr with hr | ⟨-, rfl⟩
  · obtain ⟨e', hf', he', hn'⟩ := h r hr
    refine ⟨e', ?_, he', hn'⟩
    by_cases hl : r.lane = lane
    · subst hl
      simpa [LinkView.set] using hold _ _ hf' he'
    · simpa [LinkView.set, hl] using hf'
  · exact ⟨e, by simpa [LinkView.set] using hf, he, hn⟩

lemma LinkMove.frontLive (hk : ¬f.releases) (hw : ¬f.sweeps) (hi : ViewInv v) (hm : LinkMove f v w)
    (h : FrontLive v) : FrontLive w := by
  cases hm with
  | take lane m => exact h.set (s := (v.streams lane).took m) rfl
  | takeMedia | deliverMedia | queue | unqueue | fault => exact h
  | recv lane ms t hr hl hm => 
    have hs : t.inFlight = (v.streams lane).inFlight := by cases hm <;> rfl
    exact h.set hs
  | tune lane => exact h.set rfl
  | scrub lane => exact h.set rfl
  | retransmit lane seq rest e now hm hl hf he =>
    have hwf := (hi.send lane).wf
    have hc : (v.streams lane).inFlight.contains seq := by simp [contains, hf]
    refine h.append (e := e.transmitted now (v.transmissions + 1)) ?_ rfl rfl fun t e' hf' he' => ?_
    · simp [Stream.retransmitted, find_assign hwf, hc]
    · rw [Stream.retransmitted, find_assign hwf, if_neg]
      · exact hf'
      · rintro ⟨rfl, -⟩
        rw [hf, Option.some.injEq] at hf'
        simp [← hf', he] at he'
  | transmit lane c now hm hc hr =>
    refine h.append (e := (fragmentAt c).transmitted now (v.transmissions + 1)) ?_ rfl rfl fun t e' hf' he' => ?_
    · rw [(hi.send lane).find_transmitted hr, if_pos rfl]
    · rw [(hi.send lane).find_transmitted hr, if_neg]
      · exact hf'
      · rintro rfl
        rw [(hi.send lane).find_nextSendSeq] at hf'
        cases hf'
  | release lane seq e hr => exact absurd hr hk
  | advance lane base hr => exact absurd hr hk
  | giveUp record rest e hs => exact absurd hs hw
  | drop record rest hs => exact absurd hs hw

end Moves

def Feed.quiet (source : Lane → OutboundMessage → Prop) : Feed where
  source := source
  data _ _ _ := False
  acked _ _ := False
  stray := False
  receives := False
  releases := False
  sweeps := False

def Feed.any : Feed where
  source _ _ := True
  data _ _ _ := True
  acked _ _ := True
  stray := True
  receives := True
  releases := True
  sweeps := True

section Runs

variable {f : Feed} {v w : LinkView}

lemma LinkRun.headRefused (hk : ¬f.receives) (hr : LinkRun f v w) (h : ∀ lane, HeadRefused (v.streams lane)) :
    ∀ lane, HeadRefused (w.streams lane) :=
  hr.invariant (P := fun v => ∀ lane, HeadRefused (v.streams lane)) (fun _ _ h hm => hm.headRefused hk h) h

lemma LinkRun.baseHeld (hk : ¬f.releases) (hi : ViewInv v) (hr : LinkRun f v w)
    (h : ∀ lane, BaseHeld (v.streams lane)) : ∀ lane, BaseHeld (w.streams lane) :=
  (hr.invariant (P := fun v => ViewInv v ∧ ∀ lane, BaseHeld (v.streams lane))
    (fun _ _ h hm => ⟨h.1.move hm, hm.baseHeld hk h.1 h.2⟩) ⟨hi, h⟩).2

lemma LinkRun.frontLive (hk : ¬f.releases) (hw : ¬f.sweeps) (hi : ViewInv v) (hr : LinkRun f v w)
    (h : FrontLive v) : FrontLive w :=
  (hr.invariant (P := fun v => ViewInv v ∧ FrontLive v)
    (fun _ _ h hm => ⟨h.1.move hm, hm.frontLive hk hw h.1 h.2⟩) ⟨hi, h⟩).2

lemma LinkRun.settled (source : Lane → OutboundMessage → Prop) (hi : ViewInv v) (hr : LinkRun (.quiet source) v w)
    (h : Settled v) : Settled w :=
  ⟨hr.frontLive id id hi h.front, hr.baseHeld id hi h.base, hr.headRefused id h.head⟩

end Runs

namespace ReliableLink

variable {l l' : ReliableLink} {h : Host} {lane : Lane} {records : List SentRecord} {due : InFlight → Bool}
  {now : TimePoint} {packet : Packet} {header : PacketHeader}

lemma swept_front (hs : Swept due l records l') : FrontLive (l'.view h) := by
  induction hs with
  | done l =>
    intro r hr
    simp [view] at hr
  | stop l record rest e he hd =>
    intro r hr
    obtain rfl := Option.some.inj hr
    exact ⟨e, entryOf_eq_some he⟩
  | drop l record rest l' hn _ ih => exact ih
  | mark l record rest e timedOut l' he hd _ ih => exact ih
  | count l records stats l' _ ih => exact ih

lemma acknowledge_base {ack : AckBody} {start largest : ℕ} {v : LinkView} (hi : ViewInv v)
    (hb : ∀ lane, BaseHeld (v.streams lane)) :
    ∀ other, BaseHeld ((v.set lane ((v.streams lane).acknowledge header ack start largest).stream).streams
      other) := by
  refine forall_set hb ?_
  have hr := release_run (f := .any) v lane start ((v.streams lane).ackedSeqs header ack)
    { stream := v.streams lane, largestAcked := largest } trivial fun _ _ => trivial
  rw [LinkView.set_streams] at hr
  have hle := ((hi.run hr).send lane).base_le
  rw [LinkView.streams_set] at hle
  unfold Stream.acknowledge
  dsimp only
  generalize ((v.streams lane).ackedSeqs header ack).foldl (AckScan.release start)
    { stream := v.streams lane, largestAcked := largest } = scan at hle ⊢
  rcases advanceBase_stops scan.stream.inFlight
    (scan.stream.nextSendSeq - scan.stream.sendBase) scan.stream.sendBase with he | hc
  · left
    simp only
    omega
  · exact .inr hc

lemma afterAck_front (scan : AckScan) (now : TimePoint) : FrontLive ((l.afterAck lane scan now).view h) := by
  obtain ⟨_, rtt, timeouts, l', hs, stalled, cwnd, he⟩ := afterAck_swept l lane scan now
  have hf := swept_front (h := h) hs
  rw [he]
  exact hf

lemma applyAck_base {ack : AckBody} (hi : ViewInv (l.view h))
    (hb : ∀ lane, BaseHeld ((l.view h).streams lane)) :
    ∀ other, BaseHeld (((l.applyAck lane header ack now).view h).streams other) := by
  have hr := acknowledge_run (f := .any) (l.view h) lane header ack l.mRecoveryStart l.mLargestAcked trivial
    fun _ _ => trivial
  refine LinkRun.baseHeld (f := { Feed.quiet (fun _ _ => False) with sweeps := True }) id ?_
    (afterAck_run trivial ..) ?_
  · rw [view_setStream]
    exact hi.run hr
  · rw [view_setStream]
    exact acknowledge_base hi hb

lemma received_headRefused {p : PacketHeader → List UInt8 → Prop} (hr : ReceivedVia p lane l l')
    (hh : ∀ lane, HeadRefused (l.streamFor lane)) (hl : HeadRefused (l'.streamFor lane)) (other : Lane) :
    HeadRefused (l'.streamFor other) := by
  obtain ⟨s, ms, budget, stats, due, -, rfl⟩ := hr
  rw [streamFor_received_self] at hl
  rw [streamFor_received]
  exact forall_set hh hl other

lemma dispatch_data (hk : packet.header.flags.kind = .data) :
    l.dispatch packet now = if packet.header.flags.lane = .media then l.handleMedia packet.header packet.body
      else l.handleData packet.header.flags.lane packet.header packet.body := by
  simp only [dispatch, hk]

lemma dispatch_ack (hk : packet.header.flags.kind = .ack) :
    l.dispatch packet now = (l.checkIndex packet.header.flags.lane).onAck packet now := by
  simp only [dispatch, hk]

lemma dispatch_head (hi : ViewInv (l.view h))
    (hq : ∀ lane, HeadRefused ((l.view h).streams lane)) :
    ∀ lane, HeadRefused (((l.dispatch packet now).view h).streams lane) := by
  by_cases hk : packet.header.flags.kind = .data
  · rw [dispatch_data hk]
    split
    · exact (handleMedia_run (f := .quiet fun _ _ => False) packet.body).headRefused id hq
    · next hm =>
      exact received_headRefused (handleData_received (p := fun _ _ => True) hm trivial) hq
        (handleData_headRefused hm (hi.recv _) (hq _))
  · exact (dispatch_run packet now).headRefused hk hq

lemma dispatch_base (hi : ViewInv (l.view h))
    (hq : ∀ lane, BaseHeld ((l.view h).streams lane)) :
    ∀ lane, BaseHeld (((l.dispatch packet now).view h).streams lane) := by
  by_cases hk : packet.header.flags.kind = .ack
  · rw [dispatch_ack hk]
    have hc := checkIndex_run (f := { Feed.any with releases := False }) l h packet.header.flags.lane
      fun _ => trivial
    have hi₁ := hi.run hc
    have hq₁ := hc.baseHeld id hi hq
    unfold onAck
    dsimp only
    split
    · next s ack hs ha =>
      have hn := noteSerial_run (f := .quiet fun _ _ => False) (h := h) packet.header ack now hs
      exact applyAck_base (hi₁.run hn) (hn.baseHeld id hi₁ hq₁)
    · exact hq₁
  · exact (dispatch_run packet now).baseHeld hk hi hq

lemma dispatch_front (hi : ViewInv (l.view h)) (hq : FrontLive (l.view h)) :
    FrontLive ((l.dispatch packet now).view h) := by
  by_cases hk : packet.header.flags.kind = .ack
  · rw [dispatch_ack hk]
    unfold onAck
    dsimp only
    split
    · exact afterAck_front _ now
    · exact (checkIndex_run (f := { Feed.quiet (fun _ _ => False) with stray := True }) l h _
        fun _ => trivial).frontLive id id hi hq
  · exact (dispatch_run packet now).frontLive hk hk hi hq

lemma onPacket_settled (hi : ViewInv (l.view h)) (hq : Settled (l.view h)) :
    Settled ((l.onPacket packet now).view h) := by
  rcases onPacket_cases l packet now with ⟨stats, he⟩ | ⟨remote, last, he⟩
  · rw [he]
    exact hq
  · rw [he]
    exact ⟨dispatch_front hi hq.front, dispatch_base hi hq.base, dispatch_head hi hq.head⟩

lemma probes_settled (hi : ViewInv (l.view h)) (hq : Settled (l.view h)) :
    Settled ((StreamLanes.foldl (probe now) l).view h) :=
  LinkRun.settled (fun _ _ => False) hi (foldl_run fun _ _ _ => probe_run now) hq

lemma fail_settled : Settled (l.fail.view h) where
  front r hr := by simp [view, fail, resetStreams] at hr
  base _ := .inl rfl
  head lane b hb := by
    simp [view, fail, resetStreams, streamFor, Stream.new] at hb

lemma onTimer_settled (hi : ViewInv (l.view h)) (hq : Settled (l.view h)) :
    Settled ((l.onTimer now).view h) := by
  rcases onTimer_swept l now with he | he | ⟨_, due, pinged, l', hs, n, he⟩
  · rwa [he]
  · rw [he]
    exact fail_settled
  · have hf := swept_front (h := h) hs
    have hr := swept_run (f := { Feed.quiet (fun _ _ => False) with sweeps := True }) (h := h) trivial hs
    rw [he]
    exact probes_settled (l := { l' with mTimeoutsInARow := n }) (hi.run hr)
      ⟨hf, hr.baseHeld id hi hq.base, hr.headRefused id hq.head⟩

lemma makeAck_head (hi : ViewInv (l.view h)) (hq : ∀ lane, HeadRefused ((l.view h).streams lane)) :
    ∀ other, HeadRefused (((l.makeAck lane).2.view h).streams other) := by
  have hr : ∀ other, HeadRefused
    ((if (l.mStreams lane).isSome then l.retryRefused lane else l).streamFor other) := by
    split
    · next hs =>
      exact received_headRefused (retryRefused_received (p := fun _ _ => True) hs) hq
        (retryRefused_headRefused (hi.recv lane).wf (hq lane))
    · exact hq
  exact hr

lemma fillAck_head (hi : ViewInv (l.view h)) (hq : ∀ lane, HeadRefused ((l.view h).streams lane)) :
    ∀ other, HeadRefused ((((l.fillAck lane).fillPing lane).view h).streams other) := by
  refine (fillPing_run (f := .quiet fun _ _ => False)).headRefused id ?_
  unfold fillAck
  split
  · exact makeAck_head hi hq
  · exact hq

lemma fillAcks_head (lanes : List Lane) (hl : ∀ lane ∈ lanes, lane ≠ .media) (hi : ViewInv (l.view h))
    (hq : ∀ lane, HeadRefused ((l.view h).streams lane)) :
    ∀ other, HeadRefused
      (((lanes.foldl (fun l lane => (l.fillAck lane).fillPing lane) l).view h).streams other) := by
  induction lanes generalizing l with
  | nil => exact hq
  | cons lane lanes ih =>
    refine ih (fun other ho => hl other (List.mem_cons_of_mem _ ho)) ?_ (fillAck_head hi hq)
    exact hi.run ((fillAck_run (f := .any) trivial (hl lane (List.mem_cons_self ..))).trans fillPing_run)

lemma peekAck_settled (hi : ViewInv (l.view h)) (hq : Settled (l.view h)) : Settled (l.peekAck.2.view h) := by
  have hr := peekAck_run (l := l) (h := h) (f := { Feed.quiet (fun _ _ => False) with receives := True }) trivial
  refine ⟨hr.frontLive id id hi hq.front, hr.baseHeld id hi hq.base, ?_⟩
  unfold peekAck
  split
  · exact hq.head
  · dsimp only
    split
    · exact fillAcks_head StreamLanes (fun lane hm => ne_media_of_mem_streamLanes hm) hi hq.head
    · exact hq.head

end ReliableLink

namespace Host

variable {source : Lane → OutboundMessage → Prop} {incoming : Packet → Prop} {h h' : Host}

lemma settled_of_step (hs : Step source incoming h h') (ho : ∀ lane, h.offered = some lane → h.link.Offers lane)
    (hi : ViewInv h.view) (hq : Settled h.view) : Settled h'.view := by
  cases hs with
  | peek lane next hm =>
    exact LinkRun.settled source hi (ReliableLink.peek_run (f := .quiet source) (l := h.link) (h := h) hm) hq
  | commit lane now hl =>
    by_cases hm : lane = .media
    · subst hm
      exact LinkRun.settled source hi (.of_eq (view_commitMedia h.link h)) hq
    · exact LinkRun.settled source hi (ReliableLink.commit_run hm (ho lane hl) now) hq
  | peekAck => exact ReliableLink.peekAck_settled hi hq
  | onPacket packet now hp => exact ReliableLink.onPacket_settled hi hq
  | setPaused paused => exact LinkRun.settled source hi (.of_eq (view_setPaused h.link h paused)) hq
  | onTimer now => exact ReliableLink.onTimer_settled hi hq
  | takeDelivered => exact LinkRun.settled source hi (.of_eq h.view_takeDelivered) hq
  | commitAck => exact LinkRun.settled source hi (.single (.unqueue _)) hq
  | supervise | exchangeBudget => exact hq

end Host

end NetLink.Channel
