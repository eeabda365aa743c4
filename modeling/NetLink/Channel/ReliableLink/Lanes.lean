import NetLink.Channel.ReliableLink.Intake

/-! What a link without a budget does with the packets of one lane does not depend on the others. -/

namespace NetLink.Channel

namespace MessageAssembler

lemma released_none (a : MessageAssembler) : a.released none = none := by
  rw [released]
  split <;> rfl

lemma append_none (a : MessageAssembler) (header : PacketHeader) (body : List UInt8) :
    (a.append none header body).2.1 = none := by
  rw [append, released_none]
  split
  · rfl
  · dsimp only
    generalize (if header.flags.isLastFragment then a.mTotalLength - a.mBody.length
      else MaxFragmentBody) = expected
    split
    · rfl
    · split <;> rfl

lemma accept_none (a : MessageAssembler) (header : PacketHeader) (body : List UInt8) :
    (a.accept none header body).2.1 = none := by
  rw [accept, released_none, reserved]
  split
  · rfl
  split
  · split
    · rfl
    · exact append_none ..
  · exact append_none ..

end MessageAssembler

namespace ReliableLink

variable {l l' : ReliableLink} {lane other : Lane} {s s' : Stream} {header : PacketHeader} {body : List UInt8}

section Acks

def inbox (l : ReliableLink) : List DeliveredMessage × Option MediaAssembler := (l.mDelivered, l.mMediaAssembler)

lemma inbox_noteSerial (s : Stream) (header : PacketHeader) (ack : AckBody) (now : TimePoint) :
    (l.noteSerial lane s header ack now).inbox = l.inbox := by
  rcases noteSerial_eq l lane s header ack now with ⟨-, he⟩ | ⟨-, paused, time, interval, stalled, he⟩
  · rw [he]
  · rw [he]
    rfl

lemma inbox_onAck (packet : Packet) (now : TimePoint) : (l.onAck packet now).inbox = l.inbox := by
  rw [onAck]
  split
  · next s ack _ _ =>
    refine (congrArg (fun a => (a.delivered, a.media)) (aside_applyAck ..)).trans ?_
    exact inbox_noteSerial s packet.header ack now
  · rfl

end Acks

structure Side where
  intake : Stream.Intake
  media : MediaAssembler
  delivered : List DeliveredMessage

def side (l : ReliableLink) (lane : Lane) : Side where
  intake := (l.streamFor lane).intake
  media := if lane = .media then l.mMediaAssembler.getD {} else {}
  delivered := l.mDelivered.filter (·.lane == lane)

lemma side_congr (hi : l'.intake = l.intake) (hb : l'.inbox = l.inbox) : l'.side lane = l.side lane := by
  have hintake : (l'.streamFor lane).intake = (l.streamFor lane).intake := congrFun (congrArg Intake.lanes hi) lane
  have hdelivered : l'.mDelivered = l.mDelivered := congrArg Prod.fst hb
  have hmedia : l'.mMediaAssembler = l.mMediaAssembler := congrArg Prod.snd hb
  rw [side, side, hintake, hdelivered, hmedia]

lemma filter_delivered_of_ne (ms : List AssembledMessage) (ho : other ≠ lane) :
    (ms.map fun m => ({ lane := lane, tag := m.tag, body := m.body } : DeliveredMessage)).filter
      (·.lane == other) = [] := by
  rw [List.filter_eq_nil_iff]
  intro d hd
  obtain ⟨m, -, rfl⟩ := List.mem_map.mp hd
  rw [beq_iff_eq]
  exact ho.symm

lemma side_received_of_ne (s : Stream) (ms : List AssembledMessage) (budget : Option AssemblyBudget)
    (stats : LinkStats) (due : Lane → Bool) (ho : other ≠ lane) :
      (l.received lane s ms budget stats due).side other = l.side other := by
  rw [side, side, streamFor_received, Function.update_of_ne ho, received, List.filter_append,
    filter_delivered_of_ne ms ho, List.append_nil]

lemma side_received (hl : lane ≠ .media) (s : Stream) (ms : List AssembledMessage) (budget : Option AssemblyBudget)
    (stats : LinkStats) (due : Lane → Bool) : (l.received lane s ms budget stats due).side lane = {
      intake := s.intake
      media := {}
      delivered := (l.side lane).delivered ++ ms.map fun m =>
        { lane := lane, tag := m.tag, body := m.body } } := by
  have hall : (ms.map fun m => ({ lane := lane, tag := m.tag, body := m.body } : DeliveredMessage)).filter
      (·.lane == lane) = ms.map fun m => { lane := lane, tag := m.tag, body := m.body } := by
    rw [List.filter_eq_self]
    intro d hd
    obtain ⟨m, -, rfl⟩ := List.mem_map.mp hd
    exact beq_self_eq_true lane
  rw [side, side, streamFor_received_self, if_neg hl, received, List.filter_append, hall]

lemma budget_handleMedia : (l.handleMedia header body).mBudget = l.mBudget :=
  congrArg Intake.budget intake_handleMedia

lemma side_handleMedia : (l.handleMedia header body).side .media = {
    l.side .media with
    media := ((l.side .media).media.accept header body).1
    delivered := (l.side .media).delivered ++ ((l.side .media).media.accept header body).2.toList.map fun m =>
      { lane := .media, tag := m.tag, body := m.body } } := by
  have hmedia : (l.side .media).media = l.mMediaAssembler.getD {} := rfl
  rw [handleMedia, hmedia]
  dsimp only
  split
  · next m hm =>
    rw [hm, Option.toList_none, List.map_nil, List.append_nil]
    rfl
  · next m hm =>
    rw [hm, Option.toList_some, List.map_singleton, side, deliver, List.filter_append]
    rfl

lemma side_handleMedia_of_ne (ho : other ≠ .media) : (l.handleMedia header body).side other = l.side other := by
  rw [handleMedia]
  dsimp only
  split
  · rw [side, side, if_neg ho, if_neg ho]
    rfl
  · next m hm =>
    have hf := filter_delivered_of_ne [m] ho
    rw [List.map_singleton] at hf
    rw [side, side, if_neg ho, if_neg ho, deliver, List.filter_append, hf, List.append_nil]
    rfl

structure Alike (lane : Lane) (l l' : ReliableLink) : Prop where
  left : l.mBudget = none
  right : l'.mBudget = none
  side : l.side lane = l'.side lane

namespace Alike

lemma intake (h : Alike lane l l') : (l.streamFor lane).intake = (l'.streamFor lane).intake :=
  congrArg Side.intake h.side

lemma received (hl : lane ≠ .media) (h : Alike lane l l') (hs : s.intake = s'.intake) (ms : List AssembledMessage)
    (stats stats' : LinkStats) (due due' : Lane → Bool) :
    Alike lane (l.received lane s ms none stats due) (l'.received lane s' ms none stats' due') := by
  refine ⟨rfl, rfl, ?_⟩
  rw [side_received hl, side_received hl, hs, h.side]

lemma setStream (hl : lane ≠ .media) (h : Alike lane l l') (hs : s.intake = s'.intake) :
    Alike lane (l.setStream lane s) (l'.setStream lane s') := by
  rw [setStream_eq_received, setStream_eq_received, h.left, h.right]
  exact h.received hl hs ..

lemma acceptInOrder (hl : lane ≠ .media) (h : Alike lane l l') (hs : s.intake = s'.intake) (header : PacketHeader)
    (body : List UInt8) : ∃ k k', l.acceptInOrder lane s header body = (true, k) ∧
      l'.acceptInOrder lane s' header body = (true, k') ∧ Alike lane k k' := by
  have hroom : ∀ k : ReliableLink, k.mBudget = none → MessageAssembler.hasRoomFor k.mBudget header = true := by
    intro k hk
    rw [hk]
    rfl
  obtain ⟨stats, he⟩ := acceptInOrder_taken l lane s body (hroom l h.left)
  obtain ⟨stats', he'⟩ := acceptInOrder_taken l' lane s' body (hroom l' h.right)
  have ha : s.assembler = s'.assembler := congrArg Stream.Intake.assembler hs
  rw [h.left, MessageAssembler.accept_none, ha] at he
  rw [h.right, MessageAssembler.accept_none] at he'
  have hnext : ({ s with assembler := (s'.assembler.accept none header body).1 } : Stream).intake =
      ({ s' with assembler := (s'.assembler.accept none header body).1 } : Stream).intake :=
    congrArg (fun i : Stream.Intake => { i with assembler := (s'.assembler.accept none header body).1 }) hs
  exact ⟨_, _, he, he', h.received hl hnext ..⟩

lemma reorder (h : Alike lane l l') : (l.streamFor lane).reorder = (l'.streamFor lane).reorder :=
  congrArg Stream.Intake.reorder h.intake

lemma nextExpected (h : Alike lane l l') : (l.streamFor lane).nextExpected = (l'.streamFor lane).nextExpected :=
  congrArg Stream.Intake.nextExpected h.intake

lemma drainLoop (hl : lane ≠ .media) (n : ℕ) (h : Alike lane l l') :
    Alike lane (drainLoop lane n l) (drainLoop lane n l') := by
  induction n generalizing l l' with
  | zero => exact h
  | succ n ih =>
    rw [ReliableLink.drainLoop, ReliableLink.drainLoop]
    dsimp only
    rw [← h.reorder, ← h.nextExpected]
    split
    · exact h
    · next b hb =>
      obtain ⟨k, k', he, he', hk⟩ := h.acceptInOrder hl h.intake b.header b.body
      rw [he, he']
      refine ih (hk.setStream hl ?_)
      exact congrArg (fun i : Stream.Intake => { i with
        reorder := i.reorder.erase i.nextExpected, nextExpected := i.nextExpected + 1 }) hk.intake

lemma drainReorderBuffer (hl : lane ≠ .media) (h : Alike lane l l') :
    Alike lane (l.drainReorderBuffer lane) (l'.drainReorderBuffer lane) := by
  rw [ReliableLink.drainReorderBuffer, ReliableLink.drainReorderBuffer, h.reorder]
  exact h.drainLoop hl _

lemma dueAck (h : Alike lane l l') (other : Lane) : Alike lane (l.dueAck other) (l'.dueAck other) :=
  ⟨h.left, h.right, h.side⟩

lemma retryRefused (hl : lane ≠ .media) (h : Alike lane l l') :
    Alike lane (l.retryRefused lane) (l'.retryRefused lane) := by
  have hpaused : (l.streamFor lane).budgetPaused = (l'.streamFor lane).budgetPaused :=
    congrArg Stream.Intake.budgetPaused h.intake
  rw [ReliableLink.retryRefused, ReliableLink.retryRefused, h.left, h.right, hpaused]
  dsimp only [Option.any_none]
  split
  · exact h
  · refine (drainReorderBuffer hl (h.setStream hl ?_)).dueAck lane
    exact congrArg (fun i : Stream.Intake => { i with budgetPaused := false }) h.intake

lemma handleData (hl : lane ≠ .media) (h : Alike lane l l') (header : PacketHeader) (body : List UInt8) :
    Alike lane (l.handleData lane header body) (l'.handleData lane header body) := by
  rw [ReliableLink.handleData, ReliableLink.handleData, checkIndex_of_ne_media l lane hl,
    checkIndex_of_ne_media l' lane hl]
  dsimp only
  have hk := (h.setStream hl h.intake).retryRefused hl
  generalize (l.setStream lane (l.streamFor lane)).retryRefused lane = k at hk ⊢
  generalize (l'.setStream lane (l'.streamFor lane)).retryRefused lane = k' at hk ⊢
  rw [← hk.reorder, ← hk.nextExpected]
  split
  · exact ⟨hk.left, hk.right, hk.side⟩
  split
  · exact ⟨hk.left, hk.right, hk.side⟩
  split
  · refine (hk.dueAck lane).setStream hl ?_
    exact congrArg (fun i : Stream.Intake => { i with
      reorder := (k.streamFor lane).reorder.insert header.seq ⟨header, body⟩
      nextExpected := (k.streamFor lane).nextExpected }) hk.intake
  · obtain ⟨j, j', he, he', hj⟩ := (hk.dueAck lane).acceptInOrder hl hk.intake header body
    rw [he, he']
    refine (hj.setStream hl ?_).drainReorderBuffer hl
    exact congrArg (fun i : Stream.Intake => { i with nextExpected := i.nextExpected + 1 }) hj.intake

lemma handleMedia (h : Alike .media l l') (header : PacketHeader) (body : List UInt8) :
    Alike .media (l.handleMedia header body) (l'.handleMedia header body) := by
  refine ⟨?_, ?_, ?_⟩
  · rw [budget_handleMedia, h.left]
  · rw [budget_handleMedia, h.right]
  · rw [side_handleMedia, side_handleMedia, h.side]

end Alike

section Packets

variable {id src : UInt32} {packet : Packet}

structure Facing (id src : UInt32) (l : ReliableLink) : Prop where
  running : l.mFailed = false
  localID : l.mLocalStreamID = id
  remoteID : l.mRemoteStreamID = none ∨ l.mRemoteStreamID = some src

lemma Facing.takes (h : Facing id src l) (hp : packet.header.srcStreamID = src) :
    l.Takes packet ↔ packet.header.dstStreamID = 0 ∨ packet.header.dstStreamID = id := by
  rw [Takes, h.localID, hp]
  exact ⟨fun ht => ht.2.1, fun hd => ⟨h.running, hd, h.remoteID⟩⟩

lemma Facing.onPacket (h : Facing id src l) (hp : packet.header.srcStreamID = src) (now : TimePoint) :
    Facing id src (l.onPacket packet now) := by
  have hfailed : (l.onPacket packet now).mFailed = l.mFailed :=
    (onPacket_run (l := l) (h := { link := l }) packet now).failed
  have hrunning := hfailed.trans h.running
  by_cases ht : l.Takes packet
  · have hends := ends_onPacket now ht
    refine ⟨hrunning, (congrArg Prod.fst hends).trans h.localID, .inr ?_⟩
    rw [← hp]
    exact congrArg (·.2.1) hends
  · obtain ⟨n, he⟩ := onPacket_of_not_takes now ht
    rw [he]
    exact ⟨h.running, h.localID, h.remoteID⟩

lemma side_ack (l : ReliableLink) (lane : Lane) (packet : Packet) (now : TimePoint) :
    ((l.checkIndex packet.header.flags.lane).onAck packet now).side lane = l.side lane ∧
      ((l.checkIndex packet.header.flags.lane).onAck packet now).mBudget = l.mBudget := by
  have hc : (l.checkIndex packet.header.flags.lane).inbox = l.inbox := by
    rw [checkIndex]
    split <;> rfl
  have hi := (intake_onAck packet now).trans (intake_of_aside (aside_checkIndex (l := l) packet.header.flags.lane))
  exact ⟨side_congr hi ((inbox_onAck packet now).trans hc), congrArg Intake.budget hi⟩

lemma side_onPacket_of_ne (ho : lane ≠ packet.header.flags.lane) (now : TimePoint) :
    (l.onPacket packet now).side lane = l.side lane := by
  by_cases ht : l.Takes packet
  · rw [onPacket_of_takes ht]
    generalize hk : ({ l with
      mRemoteStreamID := some packet.header.srcStreamID
      mLastReceived := l.mLastReceived.map fun _ => now } : ReliableLink) = k
    have hside : k.side lane = l.side lane := by rw [← hk]; rfl
    rw [← hside, dispatch]
    cases packet.header.flags.kind with
    | data =>
      dsimp only
      split
      · next hl => exact side_handleMedia_of_ne (hl ▸ ho)
      · next hl =>
        have hr : ReceivedVia (fun _ _ => True) packet.header.flags.lane k
          (k.handleData packet.header.flags.lane packet.header packet.body) := handleData_received hl trivial
        obtain ⟨s, ms, budget, stats, due, -, he⟩ := hr
        rw [he]
        exact side_received_of_ne s ms budget stats due ho
    | ack => exact (side_ack _ lane packet now).1
    | ping => rfl
    | beacon => rfl
  · obtain ⟨n, he⟩ := onPacket_of_not_takes now ht
    rw [he]
    rfl

lemma mem_onPacket {m : DeliveredMessage} {now : TimePoint} (hm : m ∈ (l.onPacket packet now).mDelivered) :
    m ∈ l.mDelivered ∨ m.lane = packet.header.flags.lane := by
  by_cases hl : m.lane = packet.header.flags.lane
  · exact .inr hl
  · have hside := congrArg Side.delivered (side_onPacket_of_ne (l := l) hl now)
    have hmem : m ∈ ((l.onPacket packet now).side m.lane).delivered :=
      List.mem_filter.mpr ⟨hm, beq_self_eq_true _⟩
    rw [hside] at hmem
    exact .inl (List.mem_filter.mp hmem).1

lemma upheld_none : Upheld (fun _ _ => True) (fun _ b => b = none) (fun _ b => b = none) (fun _ b =>
    b = none) where
  waits _ _ hb _ := hb
  reopens _ _ hb _ := hb
  drains _ _ _ hb _ _ := by
    subst hb
    exact MessageAssembler.accept_none ..
  stops _ _ hb := hb
  refuses _ _ _ hb _ _ := hb
  rests _ _ hb := hb
  buffers _ _ _ _ hb _ _ _ _ := hb
  rejects _ _ _ _ hb _ _ _ := hb
  accepts _ _ _ _ hb _ _ _ := by
    subst hb
    exact MessageAssembler.accept_none ..

lemma budget_onPacket (hb : l.mBudget = none) (packet : Packet) (now : TimePoint) :
    (l.onPacket packet now).mBudget = none := by
  rcases intake_onPacket (l := l) packet now with hi | ⟨-, hl, k, hk, he⟩
  · exact (congrArg Intake.budget hi).trans hb
  · have hkb : k.mBudget = none := (congrArg Intake.budget hk).trans hb
    rw [he]
    exact handleData_receives hl upheld_none trivial hkb

lemma Alike.dispatch (h : Alike lane l l') (hp : packet.header.flags.lane = lane) (now : TimePoint) :
    Alike lane (l.dispatch packet now) (l'.dispatch packet now) := by
  rw [ReliableLink.dispatch, ReliableLink.dispatch]
  cases packet.header.flags.kind with
  | data =>
    dsimp only
    rw [hp]
    split
    · next hl =>
      subst hl
      exact h.handleMedia packet.header packet.body
    · next hl => exact h.handleData hl packet.header packet.body
  | ack =>
    have ha := side_ack l lane packet now
    have ha' := side_ack l' lane packet now
    exact ⟨ha.2.trans h.left, ha'.2.trans h.right, by rw [ha.1, ha'.1, h.side]⟩
  | ping => exact h.dueAck _
  | beacon => exact h

lemma Alike.onPacket (h : Alike lane l l') (hp : packet.header.flags.lane = lane)
    (ht : l.Takes packet ↔ l'.Takes packet) (now : TimePoint) :
    Alike lane (l.onPacket packet now) (l'.onPacket packet now) := by
  by_cases htake : l.Takes packet
  · rw [onPacket_of_takes htake, onPacket_of_takes (ht.mp htake)]
    refine Alike.dispatch ?_ hp now
    exact ⟨h.left, h.right, h.side⟩
  · obtain ⟨n, he⟩ := onPacket_of_not_takes now htake
    obtain ⟨n', he'⟩ := onPacket_of_not_takes now (htake ∘ ht.mpr)
    rw [he, he']
    exact ⟨h.left, h.right, h.side⟩

end Packets

def onPackets (l : ReliableLink) (packets : List (Packet × TimePoint)) : ReliableLink :=
  packets.foldl (fun l p => l.onPacket p.1 p.2) l

theorem lanes_do_not_interfere (timings : LinkTimings) (id : UInt32) {src : UInt32}
    {packets : List (Packet × TimePoint)} (hsrc : ∀ p ∈ packets, p.1.header.srcStreamID = src) (lane : Lane) :
    let all := onPackets (.new timings id none) packets
    let alone := onPackets (.new timings id none) (packets.filter (·.1.header.flags.lane == lane))
    all.mDelivered.filter (·.lane == lane) = alone.mDelivered.filter (·.lane == lane) ∧
      (lane ≠ .media → (all.streamFor lane).nextExpected = (alone.streamFor lane).nextExpected ∧
        ∀ seq, (all.streamFor lane).reorder.contains seq = (alone.streamFor lane).reorder.contains seq) := by
  have hfacing : Facing id src (.new timings id none) := ⟨rfl, rfl, .inl rfl⟩
  have hrun : Alike lane (onPackets (.new timings id none) packets)
        (onPackets (.new timings id none) (packets.filter (·.1.header.flags.lane == lane))) ∧
      Facing id src (onPackets (.new timings id none) packets) ∧
      Facing id src (onPackets (.new timings id none) (packets.filter (·.1.header.flags.lane == lane))) := by
    refine Lib.foldl_filter_related (R := fun l l' => Alike lane l l' ∧ Facing id src l ∧ Facing id src l') ?_ ?_
      ⟨⟨rfl, rfl, rfl⟩, hfacing, hfacing⟩
    · rintro l l' p hp hlane ⟨ha, hf, hf'⟩
      have htakes := (hf.takes (hsrc p hp)).trans (hf'.takes (hsrc p hp)).symm
      exact ⟨ha.onPacket (beq_iff_eq.mp hlane) htakes p.2, hf.onPacket (hsrc p hp) p.2,
        hf'.onPacket (hsrc p hp) p.2⟩
    · rintro l l' p hp hlane ⟨ha, hf, hf'⟩
      have hside := side_onPacket_of_ne (l := l) (beq_eq_false_iff_ne.mp hlane).symm p.2
      exact ⟨⟨budget_onPacket ha.left p.1 p.2, ha.right, hside.trans ha.side⟩, hf.onPacket (hsrc p hp) p.2, hf'⟩
  refine ⟨congrArg Side.delivered hrun.1.side, fun _ => ⟨hrun.1.nextExpected, fun seq => ?_⟩⟩
  rw [hrun.1.reorder]

def gapOnBulk : List (Packet × TimePoint) :=
  [({ header := { flags := .data .bulk, srcStreamID := 9, seq := 2 }, body := [1] }, 0),
    ({ header := { flags := .data .reliable, srcStreamID := 9, seq := 1 }, body := [5, 6] }, 3)]

theorem lanes_do_not_interfere_gapOnBulk :
    (onPackets (.new {} 7 none) gapOnBulk).mDelivered.filter (·.lane == .reliable) = [⟨.reliable, 0, [5, 6]⟩] ∧
      (onPackets (.new {} 7 none) gapOnBulk).mDelivered.filter (·.lane == .reliable) =
        (onPackets (.new {} 7 none) (gapOnBulk.filter (·.1.header.flags.lane == .reliable))).mDelivered.filter
          (·.lane == .reliable) ∧
      ((onPackets (.new {} 7 none) gapOnBulk).streamFor .bulk).reorder.contains 2 =
        ((onPackets (.new {} 7 none) (gapOnBulk.filter (·.1.header.flags.lane == .bulk))).streamFor
          .bulk).reorder.contains 2 :=
  have hsrc : ∀ p ∈ gapOnBulk, p.1.header.srcStreamID = 9 := by
    intro p hp
    simp only [gapOnBulk, List.mem_cons, List.not_mem_nil, or_false] at hp
    rcases hp with rfl | rfl <;> rfl
  ⟨by decide +kernel, (lanes_do_not_interfere {} 7 hsrc .reliable).1,
    ((lanes_do_not_interfere {} 7 hsrc .bulk).2 (by decide)).2 2⟩

end ReliableLink

end NetLink.Channel
