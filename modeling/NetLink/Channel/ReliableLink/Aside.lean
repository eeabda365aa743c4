import NetLink.Channel.ReliableLink.Host

/-! What sending, acknowledgements and timers leave alone. -/

namespace NetLink.Channel

namespace Stream

structure Inward where
  reorder : SequenceBuffer BufferedData
  nextExpected : ℕ
  budgetPaused : Bool
  refusedLength : ℕ
  assembler : MessageAssembler
  ackSerial : Option ℕ

def inward (s : Stream) : Inward where
  reorder := s.reorder
  nextExpected := s.nextExpected
  budgetPaused := s.budgetPaused
  refusedLength := s.refusedLength
  assembler := s.assembler
  ackSerial := s.ackSerial

lemma inward_release (recoveryStart : ℕ) (scan : AckScan) (seq : ℕ) :
    (scan.release recoveryStart seq).stream.inward = scan.stream.inward := by
  rw [AckScan.release]
  split <;> rfl

lemma inward_foldl_release (recoveryStart : ℕ) (seqs : List ℕ) (scan : AckScan) :
    (seqs.foldl (AckScan.release recoveryStart) scan).stream.inward = scan.stream.inward := by
  induction seqs generalizing scan with
  | nil => rfl
  | cons seq seqs ih => rw [List.foldl_cons, ih, inward_release]

lemma inward_acknowledge (s : Stream) (header : PacketHeader) (ack : AckBody) (recoveryStart largestAcked : ℕ) :
    (s.acknowledge header ack recoveryStart largestAcked).stream.inward = s.inward :=
  inward_foldl_release recoveryStart _ _

end Stream

namespace ReliableLink

structure Aside where
  localID : UInt32
  remoteID : Option UInt32
  pending : List Packet
  serial : ℕ
  received : ℕ
  acks : ℕ
  counted : ℕ
  told : ℕ
  largest : ℕ
  transmissions : ℕ
  budget : Option AssemblyBudget
  delivered : List DeliveredMessage
  failed : Bool
  inward : Lane → Stream.Inward
  timings : LinkTimings
  heard : Option TimePoint
  sent : ℕ
  resent : ℕ
  media : Option MediaAssembler

def aside (l : ReliableLink) : Aside where
  localID := l.mLocalStreamID
  remoteID := l.mRemoteStreamID
  pending := l.mPendingAcks
  serial := l.mAckSerial
  received := l.mMediaReceived
  acks := l.mStats.acksSent
  counted := l.mStats.mediaReceived
  told := l.mStats.mediaReceivedByPeer
  largest := l.mLargestAcked
  transmissions := l.mTransmissions
  budget := l.mBudget
  delivered := l.mDelivered
  failed := l.mFailed
  inward lane := (l.streamFor lane).inward
  timings := l.mTimings
  heard := l.mLastReceived
  sent := l.mStats.dataSent
  resent := l.mStats.retransmissions
  media := l.mMediaAssembler

variable {l : ReliableLink} {lane : Lane} {s : Stream}

lemma aside_setStream (h : s.inward = (l.streamFor lane).inward) : (l.setStream lane s).aside = l.aside := by
  have hinward : (fun other => ((l.setStream lane s).streamFor other).inward) = fun other =>
    (l.streamFor other).inward := by
    funext other
    rw [streamFor_setStream]
    by_cases ho : other = lane
    · subst ho
      rw [Function.update_self, h]
    · rw [Function.update_of_ne ho]
  rw [aside, hinward]
  rfl

lemma aside_setStream_some {t : Stream} (hs : l.mStreams lane = some s) (h : t.inward = s.inward) :
    (l.setStream lane t).aside = l.aside :=
  aside_setStream (by rw [streamFor_of_some l lane s hs, h])

lemma aside_foldl {g : ReliableLink → Lane → ReliableLink} (hg : ∀ l lane, (g l lane).aside = l.aside)
    (lanes : List Lane) (l : ReliableLink) : (lanes.foldl g l).aside = l.aside := by
  induction lanes generalizing l with
  | nil => rfl
  | cons lane lanes ih => rw [List.foldl_cons, ih, hg]

lemma aside_updateProgressClock (now : TimePoint) (progress : Bool) :
    (l.updateProgressClock now progress).aside = l.aside := by
  obtain ⟨stalled, he⟩ := l.updateProgressClock_eq now progress
  rw [he]
  rfl

lemma aside_checkIndex (lane : Lane) : (l.checkIndex lane).aside = l.aside := by
  rw [checkIndex]
  split <;> rfl

lemma aside_markLost (record : SentRecord) (e : InFlight) (timedOut : Bool) :
    (l.markLost record e timedOut).aside = l.aside := by
  have hs : (l.setStream record.lane ((l.streamFor record.lane).givenUp record.seq e)).aside = l.aside :=
    aside_setStream rfl
  rw [markLost]
  dsimp only
  split <;> split <;> exact hs

lemma aside_detectLoop (records : List SentRecord) (l : ReliableLink) (lost : Bool) :
    (detectLoop records l lost).2.aside = l.aside := by
  induction records generalizing l lost with
  | nil => rfl
  | cons record rest ih =>
    rw [detectLoop]
    split
    · exact ih l lost
    · split
      · rfl
      · rw [ih, aside_markLost]

lemma aside_timeoutLoop (timeout : ℤ) (now : TimePoint) (records : List SentRecord) (l : ReliableLink)
    (expired : Bool) : (timeoutLoop timeout now records l expired).2.aside = l.aside := by
  induction records generalizing l expired with
  | nil => rfl
  | cons record rest ih =>
    rw [timeoutLoop]
    dsimp only
    split
    · rw [ih]
      rfl
    · split
      · rfl
      · rw [ih, aside_markLost]
        rfl

lemma aside_afterAck (scan : AckScan) (now : TimePoint) : (l.afterAck lane scan now).aside = l.aside := by
  have hn : (l.noteAcked scan now).aside = l.aside := by
    rw [noteAcked]
    split <;> rfl
  have hg : ∀ (l : ReliableLink) losses counted, (l.growWindow lane losses counted).aside = l.aside := by
    intro l losses counted
    rw [growWindow]
    split <;> rfl
  rw [afterAck, hg, aside_updateProgressClock, detectLosses, aside_detectLoop, hn]

lemma aside_applyAck (header : PacketHeader) (ack : AckBody) (now : TimePoint) :
    (l.applyAck lane header ack now).aside = { l.aside with
      largest := ((l.streamFor lane).acknowledge header ack l.mRecoveryStart l.mLargestAcked).largestAcked } := by
  rw [applyAck, aside_afterAck, aside_setStream]
  · rfl
  · exact Stream.inward_acknowledge ..

lemma aside_probe (now : TimePoint) : (probe now l lane).aside = l.aside := by
  rw [probe]
  split
  · rfl
  · next s hs =>
    split
    · exact aside_setStream_some (l := l.duePing lane) hs rfl
    · rfl

lemma aside_onTimer (now : TimePoint) : (l.onTimer now).aside = l.aside ∨ l.onTimer now = l.fail := by
  have hk : (l.keepAlive now).aside = l.aside := by
    rw [keepAlive]
    split <;> rfl
  have hb : ∀ (l : ReliableLink) expired, (l.backOff expired).aside = l.aside := by
    intro l expired
    rw [backOff]
    split <;> rfl
  rw [onTimer]
  split
  · exact .inl rfl
  split
  · exact .inr rfl
  · left
    dsimp only
    rw [aside_foldl fun l lane => aside_probe now, hb, aside_timeoutLoop, hk]

lemma aside_setPaused (paused : Bool) : (l.setPaused paused).aside = l.aside := by
  rw [setPaused]
  split
  · rfl
  · rw [aside_foldl]
    · rfl
    · intro l lane
      split <;> rfl

section Peek

variable {σ : Type} (next : MessageSource σ) (source : σ)

lemma aside_peekNext : (l.peekNext next lane source).2.1.aside = l.aside := by
  rw [peekNext]
  split
  · rfl
  · split
    · rfl
    · next m _ _ =>
      have hs : (l.setStream lane { l.streamFor lane with cursor := some (cursorFor m) }).aside = l.aside :=
        aside_setStream rfl
      exact hs

lemma aside_peekMedia : (l.peekMedia next source).2.1.aside = l.aside := by
  rw [peekMedia]
  split
  · rfl
  · split <;> rfl

lemma aside_peek : (l.peek next lane source).2.1.aside = l.aside := by
  have hc := aside_checkIndex (l := l) lane
  rw [peek]
  split
  · rfl
  split
  · exact aside_peekMedia next source
  dsimp only
  split
  · split
    · rw [aside_peekNext, hc]
    · exact hc
  · next s hs =>
    -- `nextLost` only shortens the list of lost seqs
    have hlost : ((l.checkIndex lane).setStream lane s.nextLost.2).aside = l.aside :=
      (aside_setStream_some (t := s.nextLost.2) hs rfl).trans hc
    split
    · next hn =>
      rw [hn] at hlost
      split
      · exact hlost
      · exact hlost
    · next hn =>
      rw [hn] at hlost
      split
      · exact hlost
      · rw [aside_peekNext]
        exact hlost

end Peek

lemma aside_transmit (seq : ℕ) (e : InFlight) (now : TimePoint) (h : s.inward = (l.streamFor lane).inward) :
    ∃ n sent resent, (l.transmit lane s seq e now).aside =
      { l.aside with transmissions := n, sent := sent, resent := resent } := by
  rw [transmit, aside_updateProgressClock, aside_setStream]
  · dsimp only [aside]
    split <;> split <;> exact ⟨_, _, _, rfl⟩
  · exact h

variable (l lane) in
lemma aside_commit (now : TimePoint) : ∃ n sent resent, (l.commit lane now).aside =
    { l.aside with transmissions := n, sent := sent, resent := resent } := by
  have hc := aside_checkIndex (l := l) lane
  have ht : ∀ k : ReliableLink, k.aside = l.aside → ∃ n sent resent, k.aside =
      { l.aside with transmissions := n, sent := sent, resent := resent } := fun k hk =>
    ⟨l.mTransmissions, l.mStats.dataSent, l.mStats.retransmissions, hk⟩
  rw [commit]
  split
  · rw [commitMedia]
    split <;> exact ht _ rfl
  dsimp only
  split
  · exact ht _ hc
  · next s hs =>
    have hinward := congrArg Stream.inward (streamFor_of_some _ lane s hs)
    have hlost : s.nextLost.2.inward = s.inward := rfl
    have hsent : ∀ (t : Stream) seq e, t.inward = s.inward →
        ∃ n sent resent, ((l.checkIndex lane).transmit lane t seq e now).aside =
          { l.aside with transmissions := n, sent := sent, resent := resent } := by
      intro t seq e h
      rw [← hc]
      exact aside_transmit _ _ _ (h.trans hinward.symm)
    split
    · next hn =>
      rw [hn] at hlost
      apply hsent
      exact hlost
    · next hn =>
      rw [hn] at hlost
      split
      · exact ht _ ((aside_setStream_some hs hlost).trans hc)
      · apply hsent
        exact hlost

end ReliableLink

end NetLink.Channel
