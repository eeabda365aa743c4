import NetLink.Channel.ReliableLink.Runs

/-! What paces a link: its clocks, its window and what it has in flight. Only a commit, an Ack and the timer change
it. -/

namespace NetLink.Channel

structure Stream.Outward where
  inFlight : SequenceBuffer InFlight
  onTheWire : ℕ
  peerPaused : Bool
  probeAt : Option TimePoint
  probeInterval : ℤ

def Stream.outward (s : Stream) : Stream.Outward where
  inFlight := s.inFlight
  onTheWire := s.onTheWire
  peerPaused := s.peerPaused
  probeAt := s.probeAt
  probeInterval := s.probeInterval

def Stream.onWire (s : Stream) (seq : ℕ) (e : InFlight) : Stream :=
  { s with inFlight := s.inFlight.assign seq e, onTheWire := s.onTheWire + 1 }

lemma Stream.outward_recvRun {p : PacketHeader → List UInt8 → Prop} {s t : Stream} {ms : List AssembledMessage}
    (h : RecvRun p s ms t) : t.outward = s.outward := by
  induction h with
  | refl => rfl
  | tail _ hm ih => cases hm <;> exact ih

namespace ReliableLink

structure Pace where
  timings : LinkTimings
  rtt : RttEstimator
  sent : List SentRecord
  transmissions : ℕ
  largest : ℕ
  stalled : Option TimePoint
  heard : Option TimePoint
  timeouts : ℕ
  window : ℚ
  recovery : ℕ
  failed : Bool
  outward : Lane → Stream.Outward

def pace (l : ReliableLink) : Pace where
  timings := l.mTimings
  rtt := l.mRtt
  sent := l.mSent
  transmissions := l.mTransmissions
  largest := l.mLargestAcked
  stalled := l.mStalledSince
  heard := l.mLastReceived
  timeouts := l.mTimeoutsInARow
  window := l.mCongestionWindow
  recovery := l.mRecoveryStart
  failed := l.mFailed
  outward lane := (l.streamFor lane).outward

variable {l l' : ReliableLink} {lane : Lane} {s : Stream}

lemma outward_setStream (l : ReliableLink) (lane : Lane) (s : Stream) :
    (l.setStream lane s).pace.outward = Function.update l.pace.outward lane s.outward := by
  funext other
  change ((l.setStream lane s).streamFor other).outward = _
  rw [streamFor_setStream]
  by_cases ho : other = lane
  · subst ho
    rw [Function.update_self, Function.update_self]
  · rw [Function.update_of_ne ho, Function.update_of_ne ho]
    rfl

lemma pace_setStream (h : s.outward = (l.streamFor lane).outward) : (l.setStream lane s).pace = l.pace := by
  have ho := outward_setStream l lane s
  rw [h, show (l.streamFor lane).outward = l.pace.outward lane from rfl, Function.update_eq_self] at ho
  calc (l.setStream lane s).pace = { l.pace with outward := (l.setStream lane s).pace.outward } := rfl
    _ = l.pace := by rw [ho]

lemma pace_setStream_some {t : Stream} (hs : l.mStreams lane = some s) (h : t.outward = s.outward) :
    (l.setStream lane t).pace = l.pace :=
  pace_setStream (by rw [streamFor_of_some l lane s hs, h])

lemma pace_checkIndex (lane : Lane) : (l.checkIndex lane).pace = l.pace := by
  rw [checkIndex]
  split <;> rfl

lemma pace_foldl {g : ReliableLink → Lane → ReliableLink} (hg : ∀ l lane, (g l lane).pace = l.pace)
    (lanes : List Lane) (l : ReliableLink) : (lanes.foldl g l).pace = l.pace := by
  induction lanes generalizing l with
  | nil => rfl
  | cons lane lanes ih => rw [List.foldl_cons, ih, hg]

lemma ReceivedVia.pace {p : PacketHeader → List UInt8 → Prop} (h : ReceivedVia p lane l l') :
    l'.pace = l.pace := by
  obtain ⟨s, ms, budget, stats, due, hr, rfl⟩ := h
  have hset : (l.setStream lane s).pace = l.pace := pace_setStream (Stream.outward_recvRun hr)
  exact hset

lemma pace_retried (lane : Lane) :
    (if (l.mStreams lane).isSome then l.retryRefused lane else l).pace = l.pace := by
  split
  · next hs => exact ReceivedVia.pace (retryRefused_received (p := fun _ _ => True) hs)
  · rfl

lemma pace_fillAck (lane : Lane) : (l.fillAck lane).pace = l.pace := by
  rw [fillAck]
  split
  · exact pace_retried lane
  · rfl

lemma pace_fillPing (lane : Lane) : (l.fillPing lane).pace = l.pace := by
  rw [fillPing]
  split <;> rfl

lemma pace_peekAck : l.peekAck.2.pace = l.pace := by
  rw [peekAck]
  split
  · rfl
  · dsimp only
    split
    · exact pace_foldl (fun l lane => (pace_fillPing lane).trans (pace_fillAck lane)) StreamLanes l
    · rfl

lemma pace_setPaused (paused : Bool) : (l.setPaused paused).pace = l.pace := by
  rw [setPaused]
  split
  · rfl
  · rw [pace_foldl]
    · rfl
    · intro l lane
      split <;> rfl

section Peek

variable {σ : Type} (next : MessageSource σ) (source : σ)

lemma pace_peekNext : (l.peekNext next lane source).2.1.pace = l.pace := by
  rw [peekNext]
  split
  · rfl
  · split
    · rfl
    · next m _ _ =>
      have hs : (l.setStream lane { l.streamFor lane with cursor := some (cursorFor m) }).pace = l.pace :=
        pace_setStream rfl
      exact hs

lemma pace_peek : (l.peek next lane source).2.1.pace = l.pace := by
  have hc := pace_checkIndex (l := l) lane
  rw [peek]
  split
  · rfl
  split
  · rw [peekMedia]
    split
    · rfl
    · split <;> rfl
  dsimp only
  split
  · split
    · rw [pace_peekNext, hc]
    · exact hc
  · next s hs =>
    -- `nextLost` only shortens the list of lost seqs
    have hlost : ((l.checkIndex lane).setStream lane s.nextLost.2).pace = l.pace :=
      (pace_setStream_some (t := s.nextLost.2) hs rfl).trans hc
    split
    · next hn =>
      rw [hn] at hlost
      split <;> exact hlost
    · next hn =>
      rw [hn] at hlost
      split
      · exact hlost
      · rw [pace_peekNext, hlost]

end Peek

lemma dispatch_pace (l : ReliableLink) (packet : Packet) (now : TimePoint) :
    (l.dispatch packet now).pace = l.pace ∨ packet.header.flags.kind = .ack ∧ ∃ ack, packet.ack = some ack ∧
      ∃ (k : ReliableLink) (s : Stream), k.pace = l.pace ∧ k.mStreams packet.header.flags.lane = some s ∧
        l.dispatch packet now = k.handleAck packet.header.flags.lane s packet.header ack now := by
  rw [dispatch]
  cases packet.header.flags.kind with
  | data =>
    dsimp only
    split
    · left
      rw [handleMedia]
      dsimp only
      split <;> rfl
    · next hl =>
      have hr : ReceivedVia (fun _ _ => True) packet.header.flags.lane l
        (l.handleData packet.header.flags.lane packet.header packet.body) := handleData_received hl trivial
      exact .inl hr.pace
  | ack =>
    have hc := pace_checkIndex (l := l) packet.header.flags.lane
    dsimp only
    rw [onAck]
    split
    · next s ack hs ha => exact .inr ⟨rfl, ack, ha, _, s, hc, hs, rfl⟩
    · exact .inl hc
  | ping => exact .inl rfl
  | beacon => exact .inl rfl

lemma onPacket_pace (l : ReliableLink) (packet : Packet) (now : TimePoint) :
    (∃ heard, (l.onPacket packet now).pace = { l.pace with heard := heard }) ∨
      packet.header.flags.kind = .ack ∧ ∃ ack, packet.ack = some ack ∧
      ∃ (k : ReliableLink) (s : Stream), (∃ heard, k.pace = { l.pace with heard := heard }) ∧
        k.mStreams packet.header.flags.lane = some s ∧
        l.onPacket packet now = k.handleAck packet.header.flags.lane s packet.header ack now := by
  rcases onPacket_cases l packet now with ⟨stats, he⟩ | ⟨remote, last, he⟩
  · rw [he]
    exact .inl ⟨_, rfl⟩
  · rw [he]
    rcases dispatch_pace { l with mRemoteStreamID := remote, mLastReceived := last } packet now with
      hp | ⟨hkind, ack, ha, k, s, hk, hs, hd⟩
    · exact .inl ⟨last, hp⟩
    · exact .inr ⟨hkind, ack, ha, k, s, ⟨last, hk⟩, hs, hd⟩

lemma transmit_eq (l : ReliableLink) (lane : Lane) (t : Stream) (seq : ℕ) (e : InFlight) (now : TimePoint) :
    ∃ stats, l.transmit lane t seq e now = ({ l with
      mStats := stats
      mTransmissions := l.mTransmissions + 1
      mSent := l.mSent ++ [(⟨l.mTransmissions + 1, seq, lane⟩ : SentRecord)] }.setStream lane
        (t.onWire seq (e.transmitted now (l.mTransmissions + 1)))).updateProgressClock now false :=
  ⟨_, rfl⟩

lemma transmit_fields (l : ReliableLink) (lane : Lane) (t : Stream) (seq : ℕ) (e : InFlight) (now : TimePoint) :
    ∃ stats stalled, l.transmit lane t seq e now =
      { l.setStream lane (t.onWire seq (e.transmitted now (l.mTransmissions + 1))) with
        mStats := stats
        mTransmissions := l.mTransmissions + 1
        mSent := l.mSent ++ [(⟨l.mTransmissions + 1, seq, lane⟩ : SentRecord)]
        mStalledSince := stalled } := by
  obtain ⟨stats, he⟩ := transmit_eq l lane t seq e now
  obtain ⟨stalled, hu⟩ := updateProgressClock_eq _ now false
  exact ⟨stats, stalled, he.trans hu⟩

lemma commit_pace (l : ReliableLink) (lane : Lane) (now : TimePoint) :
    (l.commit lane now).pace = l.pace ∨ lane ≠ .media ∧ ∃ s t seq e, l.mStreams lane = some s ∧
      l.commit lane now = l.transmit lane t seq e now ∧
        t.outward = { s.outward with inFlight := t.inFlight } ∧
        (t.inFlight = s.inFlight ∨ t.inFlight = s.inFlight.insert seq e) := by
  rw [commit]
  split
  · left
    rw [commitMedia]
    split <;> rfl
  · next hl =>
    rw [checkIndex_of_ne_media l lane hl]
    dsimp only
    split
    · exact .inl rfl
    · next s hs =>
      have hlost : s.nextLost.2.outward = s.outward := rfl
      have hin : s.nextLost.2.inFlight = s.inFlight := rfl
      split
      · next hn =>
        rw [hn] at hlost hin
        exact .inr ⟨hl, s, _, _, _, hs, rfl, by rw [← hlost]; rfl, .inl hin⟩
      · next hn =>
        rw [hn] at hlost hin
        split
        · exact .inl (pace_setStream_some hs hlost)
        · exact .inr ⟨hl, s, _, _, _, hs, rfl, by rw [← hlost]; rfl, .inr (by rw [← hin])⟩

end ReliableLink

lemma Host.Step.pace {source : Lane → OutboundMessage → Prop} {incoming : Packet → Prop} {h h' : Host}
    (hs : Host.Step source incoming h h') :
    (∃ heard, h'.link.pace = { h.link.pace with heard := heard }) ∨
      (∃ lane now, h.offered = some lane ∧ h'.link = h.link.commit lane now) ∨
      (∃ packet now, incoming packet ∧ h'.link = h.link.onPacket packet now) ∨
        ∃ now, h'.link = h.link.onTimer now := by
  cases hs with
  | peek lane next => exact .inl ⟨_, ReliableLink.pace_peek ..⟩
  | commit lane now ho => exact .inr (.inl ⟨lane, now, ho, rfl⟩)
  | peekAck => exact .inl ⟨_, ReliableLink.pace_peekAck⟩
  | commitAck => exact .inl ⟨_, rfl⟩
  | onPacket packet now hp => exact .inr (.inr (.inl ⟨packet, now, hp, rfl⟩))
  | setPaused paused => exact .inl ⟨_, ReliableLink.pace_setPaused paused⟩
  | onTimer now => exact .inr (.inr (.inr ⟨now, rfl⟩))
  | supervise now => exact .inl ⟨_, rfl⟩
  | takeDelivered => exact .inl ⟨_, rfl⟩
  | exchangeBudget budget => exact .inl ⟨_, rfl⟩

end NetLink.Channel
