import NetLink.Channel.ReliableLink.Aside
import NetLink.Channel.ReliableLink.Offers

/-! The stream IDs a link and its packets carry. -/

namespace NetLink.Channel.ReliableLink

def ends (l : ReliableLink) : UInt32 × Option UInt32 × List Packet :=
  (l.mLocalStreamID, l.mRemoteStreamID, l.mPendingAcks)

variable {l l' : ReliableLink} {lane : Lane}

lemma ends_of_aside (h : l'.aside = l.aside) : l'.ends = l.ends :=
  congrArg (fun a => (a.localID, a.remoteID, a.pending)) h

lemma ReceivedVia.ends {p : PacketHeader → List UInt8 → Prop} (h : ReceivedVia p lane l l') :
    l'.ends = l.ends := by
  obtain ⟨s, ms, budget, stats, due, -, rfl⟩ := h
  rfl

lemma ends_handleMedia (header : PacketHeader) (body : List UInt8) :
    (l.handleMedia header body).ends = l.ends := by
  rw [handleMedia]
  dsimp only
  split <;> rfl

lemma ends_noteSerial (s : Stream) (header : PacketHeader) (ack : AckBody) (now : TimePoint) :
    (l.noteSerial lane s header ack now).ends = l.ends := by
  rcases noteSerial_eq l lane s header ack now with ⟨-, he⟩ | ⟨-, paused, time, interval, stalled, he⟩
  · rw [he]
  · rw [he]
    rfl

lemma ends_onAck (packet : Packet) (now : TimePoint) : (l.onAck packet now).ends = l.ends := by
  rw [onAck]
  split
  · refine (congrArg (fun a => (a.localID, a.remoteID, a.pending)) (aside_applyAck ..)).trans ?_
    exact ends_noteSerial ..
  · rfl

lemma ends_dispatch (packet : Packet) (now : TimePoint) : (l.dispatch packet now).ends = l.ends := by
  rw [dispatch]
  split
  · split
    · apply ends_handleMedia
    · next hl =>
      have hr : ReceivedVia (fun _ _ => True) packet.header.flags.lane l
        (l.handleData packet.header.flags.lane packet.header packet.body) := handleData_received hl trivial
      exact hr.ends
  · rw [ends_onAck, ends_of_aside (aside_checkIndex _)]
  · rfl
  · rfl

def Takes (l : ReliableLink) (p : Packet) : Prop :=
  l.mFailed = false ∧ (p.header.dstStreamID = 0 ∨ p.header.dstStreamID = l.mLocalStreamID) ∧
    (l.mRemoteStreamID = none ∨ l.mRemoteStreamID = some p.header.srcStreamID)

lemma onPacket_of_takes {p : Packet} {now : TimePoint} (h : l.Takes p) : l.onPacket p now =
    { l with
      mRemoteStreamID := some p.header.srcStreamID
      mLastReceived := l.mLastReceived.map fun _ => now }.dispatch p now := by
  obtain ⟨hf, hd, hr⟩ := h
  have hc : ¬((p.header.dstStreamID ≠ 0 ∧ p.header.dstStreamID ≠ l.mLocalStreamID) ∨
      l.mRemoteStreamID.any (· != p.header.srcStreamID) = true) := by
    rintro (⟨h0, hl⟩ | ha)
    · exact hd.elim h0 hl
    · rcases hr with hr | hr <;> simp [hr] at ha
  simp only [onPacket, hf, if_neg hc]
  rfl

lemma ends_onPacket {p : Packet} (now : TimePoint) (h : l.Takes p) :
    (l.onPacket p now).ends = (l.mLocalStreamID, some p.header.srcStreamID, l.mPendingAcks) := by
  rw [onPacket_of_takes h]
  exact ends_dispatch ..

lemma onPacket_of_not_takes {p : Packet} (now : TimePoint) (h : ¬l.Takes p) :
    ∃ n, l.onPacket p now = { l with mStats := { l.mStats with staleDropped := n } } := by
  rw [onPacket]
  split
  · exact ⟨l.mStats.staleDropped, rfl⟩
  split
  · exact ⟨_, rfl⟩
  · next hf hc =>
    refine absurd ⟨by simpa using hf, ?_, ?_⟩ h
    · by_contra hd
      rw [not_or] at hd
      exact hc (.inl hd)
    · cases hr : l.mRemoteStreamID with
      | none => exact .inl rfl
      | some x =>
        rw [hr] at hc
        right
        by_contra hx
        refine hc (.inr ?_)
        simpa using fun h => hx (by rw [h])

lemma local_onPacket (p : Packet) (now : TimePoint) : (l.onPacket p now).mLocalStreamID = l.mLocalStreamID := by
  by_cases ht : l.Takes p
  · exact congrArg Prod.fst (ends_onPacket now ht)
  · obtain ⟨stats, he⟩ := onPacket_of_not_takes now ht
    rw [he]

lemma ends_onTimer (now : TimePoint) :
    (l.onTimer now).ends = l.ends ∨ (l.onTimer now).ends = (l.mLocalStreamID, l.mRemoteStreamID, []) := by
  rcases aside_onTimer (l := l) now with ha | he
  · exact .inl (ends_of_aside ha)
  · exact .inr (by rw [he]; rfl)

lemma ends_commit (now : TimePoint) : (l.commit lane now).ends = l.ends := by
  obtain ⟨n, sent, resent, ha⟩ := aside_commit l lane now
  exact congrArg (fun a => (a.localID, a.remoteID, a.pending)) ha

def Addressed (l : ReliableLink) (p : Packet) : Prop :=
  p.header.srcStreamID = l.mLocalStreamID ∧
    (p.header.dstStreamID = 0 ∨ l.mRemoteStreamID = some p.header.dstStreamID)

lemma addressed_of {p : Packet} (hs : p.header.srcStreamID = l.mLocalStreamID)
    (hd : p.header.dstStreamID = l.mRemoteStreamID.getD 0) : l.Addressed p := by
  refine ⟨hs, ?_⟩
  cases hr : l.mRemoteStreamID <;> simp [hd, hr]

variable (l lane) in
lemma addressed_offer (seq : ℕ) (e : InFlight) (body : List UInt8) :
    l.Addressed (makeDatagram (l.headerOf lane seq e) body) := by
  rw [headerOf]
  dsimp only
  split <;> exact addressed_of rfl rfl

lemma Addressed.congr {p : Packet} (h : l.Addressed p) (he : l'.ends = l.ends) : l'.Addressed p := by
  simp only [ends, Prod.mk.injEq] at he
  rw [Addressed, he.1, he.2.1]
  exact h

section Peeked

variable {next : Option OutboundMessage} {p : Packet}

lemma mPeeked_peekNext : (l.peekNext Host.single lane next).1 = some p →
    (l.peekNext Host.single lane next).2.1.mPeeked = p := by
  rw [peekNext]
  split
  · exact Option.some.inj
  · cases next with
    | none => simp [Host.single]
    | some m => exact Option.some.inj

lemma mPeeked_peekMedia : (l.peekMedia Host.single next).1 = some p →
    (l.peekMedia Host.single next).2.1.mPeeked = p := by
  rw [peekMedia]
  split
  · exact Option.some.inj
  · cases next with
    | none => simp [Host.single]
    | some m => exact Option.some.inj

lemma mPeeked_peek : (l.peek Host.single lane next).1 = some p →
    (l.peek Host.single lane next).2.1.mPeeked = p := by
  rw [peek]
  split
  · simp
  split
  · exact mPeeked_peekMedia
  dsimp only
  split
  · split
    · exact mPeeked_peekNext
    · simp
  · split
    · split
      · simp
      · exact Option.some.inj
    · split
      · simp
      · exact mPeeked_peekNext

lemma addressed_peek (hp : (l.peek Host.single lane next).1 = some p) : l.Addressed p := by
  have hsome : (l.peek Host.single lane next).1.isSome := by simp [hp]
  obtain ⟨-, seq, e, he, -⟩ := peek_offers hsome
  rw [mPeeked_peek hp] at he
  have ha := addressed_offer (l.peek Host.single lane next).2.1 lane seq e e.bytes
  rw [← he] at ha
  exact ha.congr (ends_of_aside (aside_peek _ next)).symm

end Peeked

def Tagged (l : ReliableLink) : Prop := ∀ p ∈ l.mPendingAcks, l.Addressed p ∧ p.header.flags.kind ≠ .data

lemma Tagged.congr (h : l.Tagged) (he : l'.ends = l.ends) : l'.Tagged := by
  have hp : l'.mPendingAcks = l.mPendingAcks := congrArg (·.2.2) he
  intro p hm
  rw [hp] at hm
  exact ⟨(h p hm).1.congr he, (h p hm).2⟩

lemma Tagged.append (h : l.Tagged) {p : Packet} (hp : l.Addressed p) (hk : p.header.flags.kind ≠ .data) :
    Tagged { l with mPendingAcks := l.mPendingAcks ++ [p] } := by
  intro q hq
  rcases List.mem_append.mp hq with hq | hq
  · exact h q hq
  · obtain rfl := List.mem_singleton.mp hq
    exact ⟨hp, hk⟩

lemma ends_retried (lane : Lane) :
    (if (l.mStreams lane).isSome then l.retryRefused lane else l).ends = l.ends := by
  split
  · next hs => exact (retryRefused_received (p := fun _ _ => True) hs).ends
  · rfl

lemma ends_makeAck (lane : Lane) : (l.makeAck lane).2.ends = l.ends := ends_retried lane

lemma addressed_makeAck (lane : Lane) : (l.makeAck lane).2.Addressed (l.makeAck lane).1 := addressed_of rfl rfl

lemma Tagged.fillAck (h : l.Tagged) (lane : Lane) : (l.fillAck lane).Tagged := by
  rw [ReliableLink.fillAck]
  split
  · apply (h.congr (ends_makeAck lane)).append (addressed_makeAck lane)
    simp [makeAck, makeDatagram, PacketHeader.onWire, makeHeader]
  · exact h

lemma Tagged.fillPing (h : l.Tagged) (lane : Lane) : (l.fillPing lane).Tagged := by
  rw [ReliableLink.fillPing]
  split
  · apply Tagged.append (l := (l.makePing lane).2) h
    · exact addressed_of rfl rfl
    · simp [makeDatagram, PacketHeader.onWire, makeHeader]
  · exact h

lemma Tagged.fillAcks (h : l.Tagged) : l.fillAcks.Tagged := by
  rw [ReliableLink.fillAcks]
  generalize StreamLanes = lanes
  induction lanes generalizing l with
  | nil => exact h
  | cons lane lanes ih => exact ih ((h.fillAck lane).fillPing lane)

lemma Tagged.peekAck (h : l.Tagged) : l.peekAck.2.Tagged := by
  rw [ReliableLink.peekAck]
  split
  · exact h
  · dsimp only
    split
    · exact h.fillAcks
    · exact h

lemma Tagged.commitAck (h : l.Tagged) : l.commitAck.Tagged := fun p hp => h p (List.mem_of_mem_tail hp)

lemma Tagged.onTimer (h : l.Tagged) (now : TimePoint) : (l.onTimer now).Tagged := by
  rcases ends_onTimer (l := l) now with he | he
  · exact h.congr he
  · intro p hp
    have hn : (l.onTimer now).mPendingAcks = [] := congrArg (·.2.2) he
    simp [hn] at hp

lemma Tagged.onPacket (h : l.Tagged) (p : Packet) (now : TimePoint) : (l.onPacket p now).Tagged := by
  by_cases ht : l.Takes p
  · have he := ends_onPacket now ht
    simp only [ends, Prod.mk.injEq] at he
    intro q hq
    rw [he.2.2] at hq
    obtain ⟨⟨hs, hd⟩, hk⟩ := h q hq
    refine ⟨⟨hs.trans he.1.symm, hd.imp_right fun hd => ?_⟩, hk⟩
    rw [he.2.1, ← hd]
    exact (ht.2.2.resolve_left (by simp [hd])).symm
  · obtain ⟨stats, he⟩ := onPacket_of_not_takes now ht
    rw [he]
    exact h

def streams (l : ReliableLink) : UInt32 × Option UInt32 := (l.mLocalStreamID, l.mRemoteStreamID)

lemma streams_of_ends (h : l'.ends = l.ends) : l'.streams = l.streams := by
  simp only [ends, Prod.mk.injEq] at h
  rw [streams, h.1, h.2.1, streams]

lemma streams_fillAck (lane : Lane) : (l.fillAck lane).streams = l.streams := by
  rw [fillAck]
  split
  · have hs := streams_of_ends (l := l) (ends_makeAck lane)
    exact hs
  · rfl

lemma streams_fillPing (lane : Lane) : (l.fillPing lane).streams = l.streams := by
  rw [fillPing]
  split <;> rfl

lemma streams_fillAcks : l.fillAcks.streams = l.streams := by
  rw [fillAcks]
  generalize StreamLanes = lanes
  induction lanes generalizing l with
  | nil => rfl
  | cons lane lanes ih => rw [List.foldl_cons, ih, streams_fillPing, streams_fillAck]

lemma streams_peekAck : l.peekAck.2.streams = l.streams := by
  rw [peekAck]
  split
  · rfl
  · dsimp only
    split
    · exact streams_fillAcks
    · rfl

lemma streams_onTimer (now : TimePoint) : (l.onTimer now).streams = l.streams := by
  rcases ends_onTimer (l := l) now with he | he
  · exact streams_of_ends he
  · simp only [ends, Prod.mk.injEq] at he
    rw [streams, he.1, he.2.1, streams]

end NetLink.Channel.ReliableLink
