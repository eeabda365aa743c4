import NetLink.Channel.ReliableLink.Deadlines
import NetLink.Channel.ReliableLink.Peeks

/-! When a lane has a datagram of its own, when it would take a message, and when neither: what `peek` answers, and
how the answers of the lanes depend on each other. -/

namespace NetLink.Channel

def Stream.full (s : Stream) : Bool := decide (s.nextSendSeq - s.sendBase ≥ s.inFlight.capacity)

namespace ReliableLink

variable {l l' k : ReliableLink} {lane other : Lane} {s : Stream} {now : TimePoint}

def loaded (l : ReliableLink) (lane : Lane) : Bool :=
  !l.mFailed &&
    if lane = .media then l.mMediaCursor.isSome
    else l.congestionWindowOpen lane && !(l.streamFor lane).peerPaused &&
      ((l.streamFor lane).nextLost.1.isSome || !(l.streamFor lane).full && (l.streamFor lane).cursor.isSome)

def vacant (l : ReliableLink) (lane : Lane) : Bool :=
  !l.mFailed &&
    if lane = .media then l.mMediaCursor.isNone
    else l.congestionWindowOpen lane && !(l.streamFor lane).peerPaused && (l.streamFor lane).nextLost.1.isNone &&
      !(l.streamFor lane).full && (l.streamFor lane).cursor.isNone

lemma full_new (lane : Lane) : (Stream.new (windowOf lane)).full = false := by
  cases lane <;> simp [Stream.full, Stream.new, windowOf, ControlWindow, ReliableWindow, BulkWindow]

lemma lane_congr (hf : l'.mFailed = l.mFailed) (ho : l'.congestionWindowOpen lane = l.congestionWindowOpen lane)
    (hm : lane = .media → l'.mMediaCursor = l.mMediaCursor)
    (hs : lane ≠ .media → l'.streamFor lane = l.streamFor lane) :
    l'.loaded lane = l.loaded lane ∧ l'.vacant lane = l.vacant lane := by
  rw [loaded, loaded, vacant, vacant, hf, ho]
  by_cases hl : lane = .media
  · rw [hm hl, if_pos hl, if_pos hl, if_pos hl, if_pos hl]
    exact ⟨rfl, rfl⟩
  · rw [hs hl, if_neg hl, if_neg hl, if_neg hl, if_neg hl]
    exact ⟨rfl, rfl⟩

lemma lane_pruned (h : Pruned l lane k) (other : Lane) : k.loaded other = l.loaded other ∧
    k.vacant other = l.vacant other := by
  have hpace : k.pace = l.pace := congrArg Footing.pace h.footing
  have hf : k.mFailed = l.mFailed := congrArg Pace.failed hpace
  have ho := congestionWindowOpen_of_pace hpace other
  rcases h with rfl | ⟨hl, s, hs, rfl⟩
  · exact ⟨rfl, rfl⟩
  by_cases hother : other = lane
  · subst hother
    have hst := streamFor_of_some l other s hs
    rw [loaded, loaded, vacant, vacant, hf, ho, streamFor_setStream_self, hst, Stream.nextLost_nextLost]
    exact ⟨rfl, rfl⟩
  · refine lane_congr hf ho (fun _ => rfl) fun _ => ?_
    rw [streamFor_setStream, Function.update_of_ne hother]

section Peek

variable {σ : Type} (next : MessageSource σ) (source : σ)

def Answers (l : ReliableLink) (lane : Lane) (r : Option Packet × ReliableLink × σ) : Prop :=
  if l.loaded lane then r.1.isSome ∧ r.2.2 = source
  else if l.vacant lane then r.1.isSome = (next source lane).1.isSome ∧ r.2.2 = (next source lane).2
  else r.1 = none ∧ r.2.2 = source

lemma answers_peekMedia (hf : l.mFailed = false) : Answers next source l .media (l.peekMedia next source) := by
  rw [peekMedia, Answers, loaded, vacant, hf]
  cases hc : l.mMediaCursor with
  | some c => exact ⟨rfl, rfl⟩
  | none =>
    dsimp only
    obtain ⟨m, rest⟩ := next source .media
    cases m <;> exact ⟨rfl, rfl⟩

lemma answers_peekNext (hl : lane ≠ .media) (hf : l.mFailed = false) (ho : l.congestionWindowOpen lane = true)
    (hp : (l.streamFor lane).peerPaused = false) (hn : (l.streamFor lane).nextLost.1 = none)
    (hr : (l.streamFor lane).full = false) : Answers next source l lane (l.peekNext next lane source) := by
  have hc : (l.mStreams lane).bind (·.cursor) = (l.streamFor lane).cursor := by
    rw [streamFor]
    cases l.mStreams lane <;> rfl
  rw [peekNext, Answers, loaded, vacant, hf, ho, hp, hn, hr, if_neg hl, if_neg hl, hc]
  cases (l.streamFor lane).cursor with
  | some c => exact ⟨rfl, rfl⟩
  | none =>
    dsimp only
    obtain ⟨m, rest⟩ := next source lane
    cases m <;> exact ⟨rfl, rfl⟩

variable {next source} {r : Option Packet × ReliableLink × σ}

lemma Answers.of_pruned (hk : Pruned l lane k)
    (h : Answers next source k lane r) :
    Answers next source l lane r := by
  rwa [Answers, (lane_pruned hk lane).1, (lane_pruned hk lane).2] at h

lemma answers_of_idle (hl : l.loaded lane = false)
    (hv : l.vacant lane = false) (hr : r.1 = none) (hs : r.2.2 = source) : Answers next source l lane r := by
  rw [Answers, hl, hv]
  exact ⟨hr, hs⟩

lemma peek_of_lost (hl : lane ≠ .media) (hf : l.mFailed = false) (hs : l.mStreams lane = some s) {seq : ℕ}
    {entry : InFlight} (hn : s.nextLost.1 = some (seq, entry)) (hk : l.setStream lane s.nextLost.2 = k) :
    l.peek next lane source =
      if s.nextLost.2.peerPaused || !k.congestionWindowOpen lane then (none, k, source)
      else ((k.offer (k.headerOf lane seq entry) entry).1,
        (k.offer (k.headerOf lane seq entry) entry).2, source) := by
  rw [peek, if_neg (by rw [hf]; exact Bool.false_ne_true), if_neg hl, checkIndex_of_ne_media l lane hl]
  dsimp only
  rw [hs]
  dsimp only
  generalize s.nextLost = r at hn hk
  obtain ⟨lost, t⟩ := r
  subst hn hk
  rfl

lemma peek_of_kept (hl : lane ≠ .media) (hf : l.mFailed = false) (hs : l.mStreams lane = some s)
    (hn : s.nextLost.1 = none) (hk : l.setStream lane s.nextLost.2 = k) : l.peek next lane source =
      if s.nextLost.2.full || s.nextLost.2.peerPaused || !k.congestionWindowOpen lane then (none, k, source)
      else k.peekNext next lane source := by
  rw [peek, if_neg (by rw [hf]; exact Bool.false_ne_true), if_neg hl, checkIndex_of_ne_media l lane hl]
  dsimp only
  rw [hs]
  dsimp only
  generalize s.nextLost = r at hn hk
  obtain ⟨lost, t⟩ := r
  subst hn hk
  rfl

lemma answers_stream (hl : lane ≠ .media) (hf : l.mFailed = false) (hs : l.mStreams lane = some s) :
    Answers next source l lane (l.peek next lane source) := by
  have hpruned : Pruned l lane (l.setStream lane s.nextLost.2) := .inr ⟨hl, s, hs, rfl⟩
  have hkf : (l.setStream lane s.nextLost.2).mFailed = false := hf
  have hlost : ((l.setStream lane s.nextLost.2).streamFor lane).nextLost.1 = s.nextLost.1 := by
    rw [streamFor_setStream_self, Stream.nextLost_nextLost]
  have hpaused : ((l.setStream lane s.nextLost.2).streamFor lane).peerPaused = s.nextLost.2.peerPaused := by
    rw [streamFor_setStream_self]
  have hfull : ((l.setStream lane s.nextLost.2).streamFor lane).full = s.nextLost.2.full := by
    rw [streamFor_setStream_self]
  refine .of_pruned hpruned ?_
  generalize hk : l.setStream lane s.nextLost.2 = k at hkf hlost hpaused hfull
  cases hn : s.nextLost.1 with
  | some lost =>
    rw [peek_of_lost hl hf hs hn hk]
    split
    · next hb =>
      have hb : (k.streamFor lane).peerPaused = true ∨ k.congestionWindowOpen lane = false := by
        simpa [hpaused] using hb
      apply answers_of_idle _ _ rfl rfl
      · rcases hb with hb | hb <;> simp [loaded, hl, hb]
      · rcases hb with hb | hb <;> simp [vacant, hl, hb]
    · next hb =>
      have hb : (k.streamFor lane).peerPaused = false ∧ k.congestionWindowOpen lane = true := by
        simpa [hpaused] using hb
      have hloaded : k.loaded lane = true := by simp [loaded, hl, hb, hkf, hlost, hn]
      rw [Answers, if_pos hloaded]
      exact ⟨rfl, rfl⟩
  | none =>
    rw [hn] at hlost
    rw [peek_of_kept hl hf hs hn hk]
    split
    · next hb =>
      have hb : ((k.streamFor lane).full = true ∨ (k.streamFor lane).peerPaused = true) ∨
          k.congestionWindowOpen lane = false := by simpa [hpaused, hfull] using hb
      apply answers_of_idle _ _ rfl rfl
      · rcases hb with (hb | hb) | hb <;> simp [loaded, hl, hb, hlost]
      · rcases hb with (hb | hb) | hb <;> simp [vacant, hl, hb]
    · next hb =>
      have hb : ((k.streamFor lane).full = false ∧ (k.streamFor lane).peerPaused = false) ∧
          k.congestionWindowOpen lane = true := by simpa [hpaused, hfull] using hb
      exact answers_peekNext next source hl hkf hb.2 hb.1.2 hlost hb.1.1

lemma answers_peek (l : ReliableLink) (lane : Lane) : Answers next source l lane (l.peek next lane source) := by
  cases hf : l.mFailed with
  | true =>
    rw [peek, if_pos hf]
    exact answers_of_idle (by simp [loaded, hf]) (by simp [vacant, hf]) rfl rfl
  | false =>
    by_cases hl : lane = .media
    · subst hl
      rw [peek, if_neg (by rw [hf]; exact Bool.false_ne_true), if_pos rfl]
      exact answers_peekMedia next source hf
    cases hs : l.mStreams lane with
    | some s => exact answers_stream hl hf hs
    | none =>
      have hst : l.streamFor lane = .new (windowOf lane) := by rw [streamFor, hs]; rfl
      rw [peek, if_neg (by rw [hf]; exact Bool.false_ne_true), if_neg hl, checkIndex_of_ne_media l lane hl]
      dsimp only
      rw [hs]
      dsimp only
      split
      · next ho =>
        exact answers_peekNext next source hl hf ho (by rw [hst]; rfl) (by rw [hst]; rfl) (by rw [hst, full_new])
      · next ho => exact answers_of_idle (by simp [loaded, hl, ho]) (by simp [vacant, hl, ho]) rfl rfl

lemma isSome_peek (l : ReliableLink) (lane : Lane) :
    (l.peek next lane source).1.isSome = (l.loaded lane || l.vacant lane && (next source lane).1.isSome) := by
  have h : Answers next source l lane (l.peek next lane source) := answers_peek l lane
  rw [Answers] at h
  split at h
  · next hl => rw [h.1, hl, Bool.true_or]
  split at h
  · next hl hv => rw [h.1, hv, Bool.eq_false_iff.mpr hl, Bool.false_or, Bool.true_and]
  · next hl hv =>
    rw [h.1, Bool.eq_false_iff.mpr hl, Bool.eq_false_iff.mpr hv, Bool.false_and, Bool.or_false, Option.isSome_none]

lemma lane_peek_of_ne (ho : other ≠ lane) : (l.peek next lane source).2.1.loaded other = l.loaded other ∧
    (l.peek next lane source).2.1.vacant other = l.vacant other := by
  have h := peeks next l lane source
  generalize l.peek next lane source = r at h
  have hpace : r.2.1.pace = l.pace := congrArg Footing.pace h.footing
  have hf : r.2.1.mFailed = l.mFailed := congrArg Pace.failed hpace
  have hopen := congestionWindowOpen_of_pace hpace other
  cases h with
  | nothing hk => exact lane_pruned hk other
  | offers hk => exact lane_pruned hk other
  | @takes k rest m seq e hk hn hc hs hr =>
    have hcursor : (k.withCursor lane (cursorFor m)).loaded other = k.loaded other ∧
        (k.withCursor lane (cursorFor m)).vacant other = k.vacant other := by
      have hpace' : (k.withCursor lane (cursorFor m)).pace = k.pace :=
        congrArg Footing.pace (footing_withCursor lane (cursorFor m))
      refine lane_congr (congrArg Pace.failed hpace') (congestionWindowOpen_of_pace hpace' other) ?_
        ?_ <;> intro hl <;>
        rw [withCursor]
      · subst hl
        rw [if_neg ho.symm]
        rfl
      · split
        · rfl
        · rw [streamFor_setStream, Function.update_of_ne ho]
    exact ⟨hcursor.1.trans (lane_pruned hk other).1, hcursor.2.trans (lane_pruned hk other).2⟩

lemma lane_of_peek_none (h : (l.peek next lane source).1 = none) :
    (l.peek next lane source).2.1.loaded lane = false ∧
      (l.peek next lane source).2.1.vacant lane = l.vacant lane := by
  have hn : (l.peek next lane source).1.isSome = (l.loaded lane || l.vacant lane && (next source lane).1.isSome) :=
    isSome_peek l lane
  rw [h, Option.isSome_none, eq_comm, Bool.or_eq_false_iff] at hn
  have hp := peeks next l lane source
  generalize l.peek next lane source = r at hp h
  cases hp with
  | nothing hk => exact ⟨(lane_pruned hk lane).1.trans hn.1, (lane_pruned hk lane).2⟩
  | offers => cases h
  | takes => cases h

end Peek

lemma isSome_peek_single (x : Option OutboundMessage) :
    (l.peek Host.single lane x).1.isSome = (l.loaded lane || l.vacant lane && x.isSome) := isSome_peek l lane

lemma transmit_beside (l : ReliableLink) (lane : Lane) (t : Stream) (seq : ℕ) (e : InFlight) (now : TimePoint) :
    (l.transmit lane t seq e now).mMediaCursor = l.mMediaCursor ∧
      (∀ other, other ≠ lane → (l.transmit lane t seq e now).streamFor other = l.streamFor other) ∧
      ((l.transmit lane t seq e now).streamFor lane).onTheWire = t.onTheWire + 1 := by
  obtain ⟨stats, stalled, he⟩ := transmit_fields l lane t seq e now
  rw [he]
  refine ⟨rfl, fun other ho => ?_, ?_⟩
  · change (l.setStream lane _).streamFor other = _
    rw [streamFor_setStream, Function.update_of_ne ho]
  · change ((l.setStream lane _).streamFor lane).onTheWire = _
    rw [streamFor_setStream_self]
    rfl

lemma streamFor_commit_of_ne (l : ReliableLink) (ho : other ≠ lane) (now : TimePoint) :
    (l.commit lane now).streamFor other = l.streamFor other := by
  rw [commit]
  split
  · rw [commitMedia]
    split <;> rfl
  next hl =>
  rw [checkIndex_of_ne_media l lane hl]
  dsimp only
  split
  · rfl
  split
  · exact (transmit_beside ..).2.1 other ho
  split
  · rw [streamFor_setStream, Function.update_of_ne ho]
  · exact (transmit_beside ..).2.1 other ho

lemma mMediaCursor_commit (l : ReliableLink) (hl : lane ≠ .media) (now : TimePoint) :
    (l.commit lane now).mMediaCursor = l.mMediaCursor := by
  rw [commit, if_neg hl, checkIndex_of_ne_media l lane hl]
  dsimp only
  split
  · rfl
  split
  · exact (transmit_beside ..).1
  split
  · rfl
  · exact (transmit_beside ..).1

lemma sharedWire_commit (l : ReliableLink) (lane : Lane) (now : TimePoint) :
    l.sharedWire ≤ (l.commit lane now).sharedWire := by
  rcases commit_pace l lane now with hp | ⟨-, s, t, seq, e, hs, he, ht, -⟩
  · have hp : (l.commit lane now).pace = { l.pace with heard := l.mLastReceived } := hp
    exact (sharedWire_of_pace hp).ge
  · have hwire : t.onTheWire = (l.streamFor lane).onTheWire := by
      rw [streamFor_of_some l lane s hs]
      exact congrArg Stream.Outward.onTheWire ht
    obtain ⟨-, hother, hself⟩ := transmit_beside l lane t seq e now
    refine sharedWire_le fun other => ?_
    rw [he]
    by_cases ho : other = lane
    · rw [ho, hself, hwire]
      exact Nat.le_succ _
    · rw [hother other ho]

lemma open_of_commit {lane : Lane} (h : (l.commit lane now).congestionWindowOpen other = true) :
    l.congestionWindowOpen other = true := by
  have hw : (l.commit lane now).congestionWindow = l.congestionWindow := by
    rw [congestionWindow, congestionWindow, (commit_window l lane now).2.1]
  rw [congestionWindowOpen_eq, hw] at h
  rw [congestionWindowOpen_eq]
  simp only [Bool.or_eq_true, decide_eq_true_eq] at h ⊢
  exact h.imp_right (sharedWire_commit l lane now).trans_lt

lemma lane_commit_of_ne (ho : other ≠ lane) (now : TimePoint) :
    ((l.commit lane now).loaded other = true → l.loaded other = true) ∧
      ((l.commit lane now).vacant other = true → l.vacant other = true) := by
  obtain ⟨n, sent, resent, hn⟩ := aside_commit l lane now
  have hf : (l.commit lane now).mFailed = l.mFailed := congrArg Aside.failed hn
  have hm : other = .media → (l.commit lane now).mMediaCursor = l.mMediaCursor :=
    fun hother => mMediaCursor_commit l (hother ▸ ho.symm) now
  rw [loaded, loaded, vacant, vacant, hf, streamFor_commit_of_ne l ho now]
  by_cases hother : other = .media
  · simp only [if_pos hother, hm hother]
    exact ⟨id, id⟩
  · simp only [if_neg hother, Bool.and_eq_true]
    exact ⟨fun h => ⟨h.1, ⟨open_of_commit h.2.1.1, h.2.1.2⟩, h.2.2⟩,
      fun h => ⟨h.1, ⟨⟨⟨open_of_commit h.2.1.1.1.1, h.2.1.1.1.2⟩, h.2.1.1.2⟩, h.2.1.2⟩, h.2.2⟩⟩

lemma entry_streamFor (l : ReliableLink) (lane : Lane) (seq : ℕ) :
    ((l.mStreams lane).bind fun s => s.inFlight.find seq) = (l.streamFor lane).outward.inFlight.find seq := by
  rw [streamFor]
  cases l.mStreams lane with
  | none => exact (SequenceBuffer.find_new _).symm
  | some s => rfl

lemma probe_streamFor (l : ReliableLink) (lane : Lane) :
    ((l.mStreams lane).bind fun s => if s.peerPaused then s.probeAt else none) =
      if (l.streamFor lane).outward.peerPaused then (l.streamFor lane).outward.probeAt else none := by
  rw [streamFor]
  cases l.mStreams lane <;> rfl

lemma nextDeadline_of_footing (h : l'.footing = l.footing) : l'.nextDeadline = l.nextDeadline := by
  have hpace : l'.pace = l.pace := congrArg Footing.pace h
  have hout : ∀ lane, (l'.streamFor lane).outward = (l.streamFor lane).outward :=
    fun lane => congrFun (congrArg Pace.outward hpace) lane
  have hsent : l'.mSent = l.mSent := congrArg Pace.sent hpace
  have hrtt : l'.mRtt = l.mRtt := congrArg Pace.rtt hpace
  have htimeouts : l'.mTimeoutsInARow = l.mTimeoutsInARow := congrArg Pace.timeouts hpace
  have hstalled : l'.mStalledSince = l.mStalledSince := congrArg Pace.stalled hpace
  have hheard : l'.mLastReceived = l.mLastReceived := congrArg Pace.heard hpace
  have htimings : l'.mTimings = l.mTimings := congrArg Pace.timings hpace
  have hremote : l'.mRemoteStreamID = l.mRemoteStreamID := congrArg Footing.remoteID h
  have hpinged : l'.mPingedAt = l.mPingedAt := congrArg Footing.pingedAt h
  simp only [nextDeadline, entry_streamFor, probe_streamFor, hout, hsent, hrtt, htimeouts, hstalled,
    hheard, htimings,
    hremote, hpinged]

lemma nextDeadline_peek {σ : Type} (next : MessageSource σ) (l : ReliableLink) (lane : Lane) (source : σ) :
    (l.peek next lane source).2.1.nextDeadline = l.nextDeadline :=
  nextDeadline_of_footing (peeks next l lane source).footing

def OwesAck (l : ReliableLink) : Prop := l.mPendingAcks ≠ [] ∨ ∃ lane, l.mAckDue lane = true ∨
    l.mPingDue lane = true

lemma pending_fillAck (l : ReliableLink) (lane : Lane) :
    (l.fillAck lane).mPendingAcks.length ≤ l.mPendingAcks.length + 1 := by
  have hmade : (l.makeAck lane).2.mPendingAcks = l.mPendingAcks := by
    rw [makeAck]
    dsimp only
    split
    · next hs =>
      obtain ⟨s, ms, budget, stats, due, -, hr⟩ := retryRefused_received (p := fun _ _ => True) hs
      rw [hr]
      rfl
    · rfl
  rw [fillAck]
  split
  · exact (List.length_append.trans (by rw [hmade, List.length_singleton])).le
  · exact Nat.le_succ _

lemma pending_fillPing (l : ReliableLink) (lane : Lane) :
    (l.fillPing lane).mPendingAcks.length ≤ l.mPendingAcks.length + 1 := by
  rw [fillPing]
  split
  · exact List.length_append.le
  · exact Nat.le_succ _

lemma pending_fillAcks (l : ReliableLink) : l.fillAcks.mPendingAcks.length ≤ l.mPendingAcks.length + 6 := by
  have hlanes : ∀ (lanes : List Lane) (l : ReliableLink),
    (lanes.foldl (fun l lane => (l.fillAck lane).fillPing lane)
      l).mPendingAcks.length ≤ l.mPendingAcks.length + 2 * lanes.length := by
    intro lanes
    induction lanes with
    | nil => exact fun l => Nat.le_refl _
    | cons lane lanes ih =>
      intro l
      have hrest := ih ((l.fillAck lane).fillPing lane)
      have hping := pending_fillPing (l.fillAck lane) lane
      have hack := pending_fillAck l lane
      rw [List.foldl_cons, List.length_cons]
      omega
  exact hlanes StreamLanes l

lemma peekAck_eq (hf : l.mFailed = false) : l.mPendingAcks ≠ [] ∧ l.peekAck.2 = l ∨
    l.mPendingAcks = [] ∧ l.peekAck.2.mPendingAcks.length ≤ 6 ∧
      ∀ lane, l.peekAck.2.mAckDue lane = false ∧ l.peekAck.2.mPingDue lane = false := by
  rw [peekAck, hf, if_neg Bool.false_ne_true]
  dsimp only
  split
  · next he =>
    have hnil := List.isEmpty_iff.mp he
    have hlen := pending_fillAcks l
    rw [hnil] at hlen
    exact .inr ⟨hnil, hlen, fun _ => ⟨rfl, rfl⟩⟩
  · next he => exact .inl ⟨by simpa using he, rfl⟩

lemma not_owesAck_of_peekAck (hf : l.mFailed = false) (hp : l.peekAck.1 = none) : ¬l.peekAck.2.OwesAck := by
  have hhead : l.peekAck.2.mPendingAcks = [] := by
    rw [peekAck, hf, if_neg Bool.false_ne_true] at hp ⊢
    exact List.head?_eq_none_iff.mp hp
  rcases peekAck_eq hf with ⟨hne, he⟩ | ⟨-, -, hdue⟩
  · rw [he] at hhead
    exact absurd hhead hne
  · rintro (h | ⟨lane, h | h⟩)
    · exact h hhead
    · rw [(hdue lane).1] at h
      cases h
    · rw [(hdue lane).2] at h
      cases h

def OwesAtMost (l : ReliableLink) (n : ℕ) : Prop :=
  l.mPendingAcks.length + 6 ≤ n ∨
    (∀ lane, l.mAckDue lane = false ∧ l.mPingDue lane = false) ∧ l.mPendingAcks.length ≤ n

lemma fillAcks_of_idle (h : ∀ lane, l.mAckDue lane = false ∧ l.mPingDue lane = false) : l.fillAcks = l := by
  rw [fillAcks]
  generalize StreamLanes = lanes
  induction lanes with
  | nil => rfl
  | cons lane lanes ih =>
    have hack : l.fillAck lane = l := by simp [fillAck, (h lane).1]
    have hping : l.fillPing lane = l := by simp [fillPing, (h lane).2]
    rw [List.foldl_cons, hack, hping]
    exact ih

lemma head_of_peekAck {ack : Packet} (h : l.peekAck.1 = some ack) :
    l.mFailed = false ∧ l.peekAck.2.mPendingAcks.head? = some ack := by
  rw [peekAck] at h ⊢
  split at h
  · cases h
  · next hf =>
    rw [if_neg hf]
    exact ⟨Bool.eq_false_iff.mpr hf, h⟩

lemma OwesAtMost.commitAck {n : ℕ} {ack : Packet} (h : l.OwesAtMost n) (hp : l.peekAck.1 = some ack) :
    ∃ m, n = m + 1 ∧ l.peekAck.2.commitAck.OwesAtMost m := by
  obtain ⟨hf, hhead⟩ := head_of_peekAck hp
  have hcommitted : l.peekAck.2.commitAck.mPendingAcks.length = l.peekAck.2.mPendingAcks.length - 1 :=
    List.length_tail
  rcases peekAck_eq hf with ⟨hne, he⟩ | ⟨hnil, hlen, hdue⟩
  · have hpos := List.length_pos_iff.mpr hne
    rw [he] at hcommitted ⊢
    rcases h with h | ⟨hdue, h⟩
    · exact ⟨n - 1, by omega, .inl (by omega)⟩
    · exact ⟨n - 1, by omega, .inr ⟨hdue, by omega⟩⟩
  · rcases h with h | ⟨hidle, -⟩
    · exact ⟨n - 1, by omega, .inr ⟨hdue, by omega⟩⟩
    · -- Nothing was due, so that nothing was made
      have hnone : l.peekAck.2.mPendingAcks = [] := by
        rw [peekAck, hf, if_neg Bool.false_ne_true, hnil]
        dsimp only [List.isEmpty_nil]
        rw [if_pos rfl, fillAcks_of_idle hidle]
        exact hnil
      rw [hnone] at hhead
      cases hhead

def owed (l : ReliableLink) : List Packet × (Lane → Bool) × (Lane → Bool) :=
  (l.mPendingAcks, l.mAckDue, l.mPingDue)

lemma owesAck_congr (h : l'.owed = l.owed) : l'.OwesAck ↔ l.OwesAck := by
  have hpending : l'.mPendingAcks = l.mPendingAcks := congrArg Prod.fst h
  have hack : l'.mAckDue = l.mAckDue := congrArg (·.2.1) h
  have hping : l'.mPingDue = l.mPingDue := congrArg (·.2.2) h
  rw [OwesAck, OwesAck, hpending, hack, hping]

lemma owed_pruned (h : Pruned l lane k) : k.owed = l.owed := by
  rcases h with rfl | ⟨-, s, -, rfl⟩ <;> rfl

lemma owed_peek {σ : Type} (next : MessageSource σ) (l : ReliableLink) (lane : Lane) (source : σ) :
    (l.peek next lane source).2.1.owed = l.owed := by
  have h := peeks next l lane source
  generalize l.peek next lane source = r at h
  cases h with
  | nothing hk => exact owed_pruned hk
  | @offers k seq e hk hr =>
    have howed : k.owed = l.owed := owed_pruned hk
    exact howed
  | @takes k rest m seq e hk hn hc hs hr =>
    have hcursor : (k.withCursor lane (cursorFor m)).owed = k.owed := by
      rw [withCursor]
      split <;> rfl
    exact hcursor.trans (owed_pruned hk)

lemma owed_transmit (l : ReliableLink) (lane : Lane) (t : Stream) (seq : ℕ) (e : InFlight) (now : TimePoint) :
    (l.transmit lane t seq e now).owed = l.owed := by
  obtain ⟨stats, stalled, he⟩ := transmit_fields l lane t seq e now
  rw [he]
  rfl

lemma owed_commit (l : ReliableLink) (lane : Lane) (now : TimePoint) : (l.commit lane now).owed = l.owed := by
  rw [commit]
  split
  · rw [commitMedia]
    split <;> rfl
  next hl =>
  rw [checkIndex_of_ne_media l lane hl]
  dsimp only
  split
  · rfl
  split
  · exact owed_transmit ..
  split
  · rfl
  · exact owed_transmit ..

end ReliableLink

end NetLink.Channel
