import NetLink.Channel.ReliableLink.Reports
import NetLink.Channel.ReliableLink.RecvRun

/-! The receive sides of a link's streams and the budget they share, with a rule for what every call keeps
of them. -/

namespace NetLink.Channel

namespace Stream

structure Intake where
  reorder : SequenceBuffer BufferedData
  nextExpected : ℕ
  budgetPaused : Bool
  refusedLength : ℕ
  assembler : MessageAssembler

def Inward.intake (i : Inward) : Intake where
  reorder := i.reorder
  nextExpected := i.nextExpected
  budgetPaused := i.budgetPaused
  refusedLength := i.refusedLength
  assembler := i.assembler

def intake (s : Stream) : Intake := s.inward.intake

end Stream

open MessageAssembler

structure Upheld (p : PacketHeader → List UInt8 → Prop)
    (P E D : Stream.Intake → Option AssemblyBudget → Prop) : Prop where
  waits : ∀ s b, P s b → (s.budgetPaused = true → ∃ x ∈ b, x.fits s.refusedLength = false) → E s b
  reopens : ∀ s b, P s b → s.budgetPaused = true → D { s with budgetPaused := false } b
  drains : ∀ s b x, D s b → s.reorder.find s.nextExpected = some x → hasRoomFor b x.header = true →
    D { s with
        assembler := (s.assembler.accept b x.header x.body).1
        reorder := s.reorder.erase s.nextExpected
        nextExpected := s.nextExpected + 1 } (s.assembler.accept b x.header x.body).2.1
  stops : ∀ s b, D s b → E s b
  refuses : ∀ s b x, D s b → s.reorder.find s.nextExpected = some x → hasRoomFor b x.header = false →
    E { s with budgetPaused := true, refusedLength := x.header.totalLength } b
  rests : ∀ s b, E s b → P s b
  buffers : ∀ s b header body, E s b → p header body → s.nextExpected < header.seq →
    header.seq < s.nextExpected + s.reorder.capacity → s.reorder.find header.seq = none →
    P { s with reorder := s.reorder.insert header.seq ⟨header, body⟩ } b
  rejects : ∀ s b header body, E s b → p header body → header.seq = s.nextExpected → hasRoomFor b header = false →
    P { s with budgetPaused := true, refusedLength := header.totalLength } b
  accepts : ∀ s b header body, E s b → p header body → header.seq = s.nextExpected → hasRoomFor b header = true →
    D { s with
        assembler := (s.assembler.accept b header body).1
        nextExpected := s.nextExpected + 1 } (s.assembler.accept b header body).2.1

namespace ReliableLink

def Receives (P : Stream.Intake → Option AssemblyBudget → Prop) (l : ReliableLink) (lane : Lane) : Prop :=
  P (l.streamFor lane).intake l.mBudget

variable {p : PacketHeader → List UInt8 → Prop} {P E D : Stream.Intake → Option AssemblyBudget → Prop}
  {l : ReliableLink} {lane : Lane} {header : PacketHeader} {body : List UInt8} {s : Stream}

lemma receives_setStream : (l.setStream lane s).Receives P lane ↔ P s.intake l.mBudget := by
  rw [Receives, streamFor_setStream_self]
  rfl

lemma receives_received {ms : List AssembledMessage} {budget : Option AssemblyBudget}
    {stats : LinkStats} {due : Lane → Bool} :
    (l.received lane s ms budget stats due).Receives P lane ↔ P s.intake budget := by
  rw [Receives, streamFor_received_self]
  rfl

lemma drainLoop_receives (hu : Upheld p P E D) (n : ℕ) (h : l.Receives D lane) :
    (drainLoop lane n l).Receives E lane := by
  induction n generalizing l with
  | zero => exact hu.stops _ _ h
  | succ n ih =>
    rw [drainLoop]
    dsimp only
    split
    · exact hu.stops _ _ h
    · next x hf =>
      cases hr : hasRoomFor l.mBudget x.header with
      | false =>
        rw [acceptInOrder_refused hr]
        exact receives_setStream.mpr (hu.refuses _ _ x h hf hr)
      | true =>
        obtain ⟨stats, he⟩ := acceptInOrder_taken l lane (l.streamFor lane) x.body hr
        rw [he]
        simp only [streamFor_received_self, setStream_received]
        exact ih (receives_received.mpr (hu.drains _ _ x h hf hr))

lemma retryRefused_receives (hu : Upheld p P E D) (h : l.Receives P lane) :
    (l.retryRefused lane).Receives E lane := by
  rw [retryRefused]
  split
  · next hw =>
    refine hu.waits _ _ h fun hp => ?_
    have hp : (l.streamFor lane).budgetPaused = true := hp
    rw [hp, Bool.not_true, Bool.false_or, Option.any_eq_true] at hw
    obtain ⟨x, hx, hfits⟩ := hw
    exact ⟨x, hx, Bool.not_eq_eq_eq_not.mp hfits⟩
  · next hw =>
    have hp : (l.streamFor lane).budgetPaused = true := by
      rw [Bool.not_eq_true, Bool.or_eq_false_iff] at hw
      simpa using hw.1
    have hd : (l.setStream lane { l.streamFor lane with budgetPaused := false }).Receives D lane :=
      receives_setStream.mpr (hu.reopens _ _ h hp)
    exact drainLoop_receives hu _ hd

lemma handleData_receives (hl : lane ≠ .media) (hu : Upheld p P E D) (hp : p header body) (h : l.Receives P lane) :
    (l.handleData lane header body).Receives P lane := by
  rw [handleData]
  dsimp only
  rw [checkIndex_of_ne_media l lane hl]
  have hset : (l.setStream lane (l.streamFor lane)).Receives P lane := receives_setStream.mpr h
  have h₀ := retryRefused_receives hu hset
  generalize (l.setStream lane (l.streamFor lane)).retryRefused lane = l₀ at h₀ ⊢
  split
  · exact hu.rests _ _ h₀
  next hw =>
  split
  · exact hu.rests _ _ h₀
  next hc =>
  obtain ⟨hlo, hn⟩ := not_or.mp hc
  have hn : (l₀.streamFor lane).reorder.find header.seq = none := by
    simpa [SequenceBuffer.contains] using hn
  split
  · next hne =>
    exact receives_setStream.mpr (hu.buffers _ _ header body h₀ hp (by
      change (l₀.streamFor lane).nextExpected < _
      omega) (Nat.lt_of_not_le hw) hn)
  · next hseq =>
    rw [not_not] at hseq
    cases hr : hasRoomFor l₀.mBudget header with
    | false =>
      rw [acceptInOrder_refused (l := l₀.dueAck lane) hr]
      exact receives_setStream.mpr (hu.rejects _ _ header body h₀ hp hseq hr)
    | true =>
      obtain ⟨stats, he⟩ := acceptInOrder_taken (l₀.dueAck lane) lane (l₀.streamFor lane) body hr
      rw [he]
      simp only [streamFor_received_self, setStream_received]
      have hd := hu.accepts _ _ header body h₀ hp hseq hr
      exact hu.rests _ _ (drainLoop_receives hu _ (receives_received.mpr hd))

structure Intake where
  budget : Option AssemblyBudget
  lanes : Lane → Stream.Intake

def Aside.intake (a : Aside) : Intake where
  budget := a.budget
  lanes lane := (a.inward lane).intake

def intake (l : ReliableLink) : Intake := l.aside.intake

lemma intake_of_aside {l' : ReliableLink} (h : l'.aside = l.aside) : l'.intake = l.intake :=
  congrArg Aside.intake h

lemma intake_setStream (h : s.intake = (l.streamFor lane).intake) :
    (l.setStream lane s).intake = l.intake := by
  have hlanes : (fun other => ((l.setStream lane s).streamFor other).intake) =
      fun other => (l.streamFor other).intake := by
    funext other
    rw [streamFor_setStream]
    by_cases ho : other = lane
    · subst ho
      rw [Function.update_self, h]
    · rw [Function.update_of_ne ho]
  exact congrArg (Intake.mk l.mBudget) hlanes

lemma intake_noteSerial (hs : l.mStreams lane = some s) (header : PacketHeader) (ack : AckBody)
    (now : TimePoint) : (l.noteSerial lane s header ack now).intake = l.intake := by
  have hi : s.intake = (l.streamFor lane).intake := congrArg Stream.intake (streamFor_of_some l lane s hs).symm
  rcases noteSerial_eq l lane s header ack now with ⟨-, he⟩ | ⟨-, paused, time, interval, stalled, he⟩
  · rw [he]
  · rw [he]
    exact intake_setStream (s := s.tuned paused (some ack.serial) time interval) hi

lemma intake_onAck (packet : Packet) (now : TimePoint) : (l.onAck packet now).intake = l.intake := by
  rw [onAck]
  split
  · next s ack hs ha =>
    rw [handleAck]
    exact (congrArg Aside.intake (aside_applyAck ..)).trans (intake_noteSerial hs packet.header ack now)
  · rfl

lemma intake_handleMedia : (l.handleMedia header body).intake = l.intake := by
  rw [handleMedia]
  dsimp only
  split <;> rfl

lemma ReceivedVia.intake_lanes {l' : ReliableLink} (h : ReceivedVia p lane l l') {other : Lane}
    (ho : other ≠ lane) :
    l'.intake.lanes other = l.intake.lanes other := by
  obtain ⟨s, ms, budget, stats, due, -, rfl⟩ := h
  exact congrArg Stream.intake (by rw [streamFor_received, Function.update_of_ne ho])

lemma intake_onPacket (packet : Packet) (now : TimePoint) :
    (l.onPacket packet now).intake = l.intake ∨
      packet.header.flags.kind = .data ∧ packet.header.flags.lane ≠ .media ∧
        ∃ k : ReliableLink, k.intake = l.intake ∧
        l.onPacket packet now = k.handleData packet.header.flags.lane packet.header packet.body := by
  by_cases ht : l.Takes packet
  · rw [onPacket_of_takes ht]
    generalize hk : ({ l with
      mRemoteStreamID := some packet.header.srcStreamID
      mLastReceived := l.mLastReceived.map fun _ => now } : ReliableLink) = k
    have hi : k.intake = l.intake := by rw [← hk]; rfl
    rw [dispatch]
    cases hkind : packet.header.flags.kind with
    | data =>
      dsimp only
      split
      · exact .inl (intake_handleMedia.trans hi)
      · next hl => exact .inr ⟨rfl, hl, k, hi, rfl⟩
    | ack => exact .inl ((intake_onAck packet now).trans ((intake_of_aside (aside_checkIndex _)).trans hi))
    | ping => exact .inl hi
    | beacon => exact .inl hi
  · obtain ⟨n, he⟩ := onPacket_of_not_takes now ht
    rw [he]
    exact .inl rfl

section Kept

variable {Q : Intake → Prop}
  (hretry : ∀ (l : ReliableLink) lane, lane ≠ .media → (l.mStreams lane).isSome → Q l.intake →
    Q (l.retryRefused lane).intake)
include hretry

lemma fillAck_keeps (hl : lane ≠ .media) (h : Q l.intake) : Q (l.fillAck lane).intake := by
  rw [fillAck]
  split
  · have hr : Q (if (l.mStreams lane).isSome then l.retryRefused lane else l).intake := by
      split
      · next hs => exact hretry l lane hl hs h
      · exact h
    exact hr
  · exact h

lemma fillAcks_keeps (h : Q l.intake) : Q l.fillAcks.intake := by
  have hping : ∀ (l : ReliableLink) lane, (l.fillPing lane).intake = l.intake := by
    intro l lane
    rw [fillPing]
    split <;> rfl
  have hlanes : ∀ lane ∈ StreamLanes, lane ≠ .media := by decide
  rw [fillAcks]
  revert hlanes
  generalize StreamLanes = lanes
  intro hlanes
  induction lanes generalizing l with
  | nil => exact h
  | cons lane lanes ih =>
    refine ih ?_ fun other ho => hlanes other (List.mem_cons_of_mem _ ho)
    rw [hping]
    exact fillAck_keeps hretry (hlanes lane List.mem_cons_self) h

lemma peekAck_keeps (h : Q l.intake) : Q l.peekAck.2.intake := by
  rw [peekAck]
  split
  · exact h
  · dsimp only
    split
    · exact fillAcks_keeps hretry h
    · exact h

end Kept

end ReliableLink

namespace Host

inductive Call
  | peek (lane : Lane) (next : Option OutboundMessage)
  | commit (lane : Lane) (now : TimePoint)
  | peekAck
  | commitAck
  | onPacket (packet : Packet) (now : TimePoint)
  | setPaused (paused : Bool)
  | onTimer (now : TimePoint)
  | supervise (now : TimePoint)
  | takeDelivered

def call (h : Host) : Call → Host
  | .peek lane next => h.peek lane next
  | .commit lane now => h.commit lane now
  | .peekAck => h.peekAck
  | .commitAck => h.commitAck
  | .onPacket packet now => h.onPacket packet now
  | .setPaused paused => h.setPaused paused
  | .onTimer now => h.onTimer now
  | .supervise now => h.supervise now
  | .takeDelivered => h.takeDelivered

def Allows (source : Lane → OutboundMessage → Prop) (incoming : Packet → Prop) (h : Host) : Call → Prop
  | .peek lane next => ∀ m ∈ next, source lane m
  | .commit lane _ => h.offered = some lane
  | .onPacket packet _ => incoming packet
  | _ => True

variable {source : Lane → OutboundMessage → Prop} {incoming : Packet → Prop} {h : Host} {c : Call}

lemma step_call (hc : h.Allows source incoming c) : Step source incoming h (h.call c) := by
  cases c with
  | peek lane next => exact .peek h lane next hc
  | commit lane now => exact .commit h lane now hc
  | peekAck => exact .peekAck h
  | commitAck => exact .commitAck h
  | onPacket packet now => exact .onPacket h packet now hc
  | setPaused paused => exact .setPaused h paused
  | onTimer now => exact .onTimer h now
  | supervise now => exact .supervise h now
  | takeDelivered => exact .takeDelivered h

lemma intake_call {Q : ReliableLink.Intake → Prop}
    (hdata : ∀ (l : ReliableLink) (packet : Packet), incoming packet → packet.header.flags.kind = .data →
      packet.header.flags.lane ≠ .media → Q l.intake →
      Q (l.handleData packet.header.flags.lane packet.header packet.body).intake)
    (hretry : ∀ (l : ReliableLink) lane, lane ≠ .media → (l.mStreams lane).isSome → Q l.intake →
      Q (l.retryRefused lane).intake)
    (hfail : ∀ l : ReliableLink, Q l.intake → Q l.fail.intake)
    (hc : h.Allows source incoming c) (hq : Q h.link.intake) : Q (h.call c).link.intake := by
  have haside : ∀ l : ReliableLink, l.aside = h.link.aside → Q l.intake := fun l hl =>
    ReliableLink.intake_of_aside hl ▸ hq
  cases c with
  | peek lane next => exact haside _ (ReliableLink.aside_peek _ _)
  | commit lane now =>
    obtain ⟨n, sent, resent, ha⟩ := ReliableLink.aside_commit h.link lane now
    have hi := congrArg ReliableLink.Aside.intake ha
    exact (congrArg Q hi).mpr hq
  | peekAck => exact ReliableLink.peekAck_keeps hretry hq
  | commitAck => exact hq
  | onPacket packet now =>
    rcases ReliableLink.intake_onPacket (l := h.link) packet now with hi | ⟨hk, hl, k, hi, he⟩
    · exact (congrArg Q hi).mpr hq
    · rw [call, Host.onPacket, he]
      exact hdata k packet hc hk hl (hi ▸ hq)
  | setPaused paused => exact haside _ (ReliableLink.aside_setPaused paused)
  | onTimer now =>
    rcases ReliableLink.aside_onTimer (l := h.link) now with ha | hf
    · exact haside _ ha
    · rw [call, Host.onTimer, hf]
      exact hfail _ hq
  | supervise now => exact hq
  | takeDelivered => exact hq

end Host

end NetLink.Channel
