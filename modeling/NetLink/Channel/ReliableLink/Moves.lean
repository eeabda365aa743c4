import NetLink.Channel.ReliableLink.RecvRun
import NetLink.Channel.ReliableLink.SendInvariant

/-! Every call of a link is a run of the moves below, on the streams and on the record of transmissions;
what holds of a link over whole runs is shown move by move. -/

namespace NetLink.Channel

namespace Stream

def took (s : Stream) (m : OutboundMessage) : Stream := { s with cursor := some (cursorFor m) }

def tuned (s : Stream) (paused : Bool) (serial : Option ℕ) (time : Option TimePoint) (interval : ℤ) : Stream :=
  { s with peerPaused := paused, ackSerial := serial, probeAt := time, probeInterval := interval }

end Stream

def Packet.acks (packet : Packet) (lane : Lane) (seq : ℕ) : Prop :=
  packet.header.flags.kind = .ack ∧ packet.header.flags.lane = lane ∧ ∃ ack, packet.ack = some ack ∧
    (seq ≤ packet.header.seq ∨ ∃ r ∈ ack.ranges, r.first ≤ seq ∧ seq ≤ r.last)

def Stream.Tells (s : Stream) (seq : ℕ) : Prop :=
  seq ≤ s.nextExpected - 1 ∨ seq ∈ s.reorder.entries.map (·.1)

structure LinkView where
  streams : Lane → Stream
  sent : List SentRecord
  transmissions : ℕ
  delivered : List DeliveredMessage
  taken : Lane → List OutboundMessage
  pending : List Packet
  failed : Bool
  fault : Bool

def LinkView.set (v : LinkView) (lane : Lane) (s : Stream) : LinkView :=
  { v with streams := Function.update v.streams lane s }

@[simp] lemma LinkView.streams_set (v : LinkView) (lane : Lane) (s : Stream) :
    (v.set lane s).streams lane = s := by
  simp [set]

@[simp] lemma LinkView.set_set (v : LinkView) (lane : Lane) (s t : Stream) :
    (v.set lane s).set lane t = v.set lane t := by
  simp [set]

@[simp] lemma LinkView.set_streams (v : LinkView) (lane : Lane) : v.set lane (v.streams lane) = v := by
  simp [set]

def LinkView.receive (v : LinkView) (lane : Lane) (t : Stream) (ms : List AssembledMessage) : LinkView :=
  { v.set lane t with
    delivered := v.delivered ++ ms.map fun m => { lane := lane, tag := m.tag, body := m.body } }

@[simp] lemma LinkView.streams_receive (v : LinkView) (lane : Lane) (t : Stream) (ms : List AssembledMessage) :
    (v.receive lane t ms).streams lane = t := by
  simp [receive, set]

lemma LinkView.receive_receive (v : LinkView) (lane : Lane) (t u : Stream) (ms ns : List AssembledMessage) :
    (v.receive lane t ms).receive lane u ns = v.receive lane u (ms ++ ns) := by
  simp [receive, set]

def ReliableLink.view (l : ReliableLink) (h : Host) : LinkView where
  streams := l.streamFor
  sent := l.mSent
  transmissions := l.mTransmissions
  delivered := h.handed ++ l.mDelivered
  taken := h.taken
  pending := l.mPendingAcks
  failed := l.mFailed
  fault := l.indexFault

def Host.view (h : Host) : LinkView := h.link.view h

/-- What the calls of a run bring to a link (messages to send, Data packets, acknowledged seqs, Acks for a
lane that has none), and which kinds of moves they make. -/
structure Feed where
  source : Lane → OutboundMessage → Prop
  data : Lane → PacketHeader → List UInt8 → Prop
  acked : Lane → ℕ → Prop
  stray : Prop
  receives : Prop
  releases : Prop
  sweeps : Prop

inductive LinkMove (f : Feed) : LinkView → LinkView → Prop
  | take (v : LinkView) (lane : Lane) (m : OutboundMessage) (hl : lane ≠ .media) (hs : f.source lane m)
      (hc : (v.streams lane).cursor = none) :
      LinkMove f v { v.set lane ((v.streams lane).took m) with
        taken := Function.update v.taken lane (v.taken lane ++ [m]) }
  | takeMedia (v : LinkView) (ms : List OutboundMessage) :
      LinkMove f v { v with taken := Function.update v.taken .media ms }
  | deliverMedia (v : LinkView) (m : DeliveredMessage) (hm : m.lane = .media) :
      LinkMove f v { v with delivered := v.delivered ++ [m] }
  | recv (v : LinkView) (lane : Lane) (ms : List AssembledMessage) (t : Stream) (hk : f.receives)
      (hl : lane ≠ .media) (hm : RecvMove (f.data lane) (v.streams lane) ms t) : LinkMove f v (v.receive lane t ms)
  | tune (v : LinkView) (lane : Lane) (paused : Bool) (serial : Option ℕ) (time : Option TimePoint)
      (interval : ℤ) : LinkMove f v (v.set lane ((v.streams lane).tuned paused serial time interval))
  | scrub (v : LinkView) (lane : Lane) : LinkMove f v (v.set lane (v.streams lane).nextLost.2)
  | retransmit (v : LinkView) (lane : Lane) (seq : ℕ) (rest : List ℕ) (e : InFlight) (now : TimePoint)
      (hm : lane ≠ .media) (hl : (v.streams lane).lost = seq :: rest)
        (hf : (v.streams lane).inFlight.find seq = some e)
      (he : e.lost = true) :
      LinkMove f v { v.set lane ((v.streams lane).retransmitted seq rest e now (v.transmissions + 1)) with
        sent := v.sent ++ [⟨v.transmissions + 1, seq, lane⟩]
        transmissions := v.transmissions + 1 }
  | transmit (v : LinkView) (lane : Lane) (c : FragmentCursor) (now : TimePoint) (hm : lane ≠ .media)
      (hc : (v.streams lane).cursor = some c)
      (hr : (v.streams lane).nextSendSeq - (v.streams lane).sendBase < (v.streams lane).inFlight.capacity) :
      LinkMove f v { v.set lane ((v.streams lane).transmitted c now (v.transmissions + 1)) with
        sent := v.sent ++ [⟨v.transmissions + 1, (v.streams lane).nextSendSeq, lane⟩]
        transmissions := v.transmissions + 1 }
  | release (v : LinkView) (lane : Lane) (seq : ℕ) (e : InFlight) (hk : f.releases) (ha : f.acked lane seq)
      (hf : (v.streams lane).inFlight.find seq = some e) :
      LinkMove f v (v.set lane ((v.streams lane).released ((v.streams lane).inFlight.erase seq) e))
  | advance (v : LinkView) (lane : Lane) (base : ℕ) (hk : f.releases) (hlo : (v.streams lane).sendBase ≤ base)
      (hhi : base ≤ max (v.streams lane).sendBase (v.streams lane).nextSendSeq)
      (hn : ∀ seq, (v.streams lane).sendBase ≤ seq → seq < base → ¬(v.streams lane).inFlight.contains seq) :
      LinkMove f v (v.set lane { v.streams lane with sendBase := base })
  | giveUp (v : LinkView) (record : SentRecord) (rest : List SentRecord) (e : InFlight) (hk : f.sweeps)
      (hs : v.sent = record :: rest) (hf : (v.streams record.lane).inFlight.find record.seq = some e)
      (he : e.lost = false) (ht : e.transmission = record.transmission) :
      LinkMove f v { v.set record.lane ((v.streams record.lane).givenUp record.seq e) with sent := rest }
  | drop (v : LinkView) (record : SentRecord) (rest : List SentRecord) (hk : f.sweeps)
    (hs : v.sent = record :: rest)
      (hd : ∀ e, (v.streams record.lane).inFlight.find record.seq = some e → e.lost = false →
        e.transmission ≠ record.transmission) :
      LinkMove f v { v with sent := rest }
  | queue (v : LinkView) (packet : Packet) (hd : packet.header.flags.kind ≠ .data)
      (ha : ∀ lane seq, packet.acks lane seq → (v.streams lane).Tells seq)
      (hn : packet.header.flags.kind = .ack →
        packet.header.seq ≤ (v.streams packet.header.flags.lane).nextExpected - 1) :
      LinkMove f v { v with pending := v.pending ++ [packet] }
  | unqueue (v : LinkView) : LinkMove f v { v with pending := v.pending.tail }
  | fault (v : LinkView) (hf : f.stray) : LinkMove f v { v with fault := true }

lemma RecvMove.mono {p q : PacketHeader → List UInt8 → Prop} {s t : Stream} {ms : List AssembledMessage}
    (h : ∀ header body, p header body → q header body) (hm : RecvMove p s ms t) : RecvMove q s ms t := by
  cases hm with
  | refuse header body hp hs => exact .refuse s header body (hp.imp_left fun hp => ⟨h _ _ hp.1, hp.2⟩) hs
  | retry => exact .retry s
  | buffer header body hp hlo hhi hn => exact .buffer s header body (h _ _ hp) hlo hhi hn
  | accept header body budget hp hs hn hr => exact .accept s header body budget (h _ _ hp) hs hn hr
  | drain header body budget hf hr => exact .drain s header body budget hf hr

structure Feed.LE (f g : Feed) : Prop where
  source : ∀ lane m, f.source lane m → g.source lane m
  data : ∀ lane header body, f.data lane header body → g.data lane header body
  acked : ∀ lane seq, f.acked lane seq → g.acked lane seq
  stray : f.stray → g.stray
  receives : f.receives → g.receives
  releases : f.releases → g.releases
  sweeps : f.sweeps → g.sweeps

lemma LinkMove.mono {f g : Feed} {v w : LinkView} (hfg : f.LE g) (h : LinkMove f v w) : LinkMove g v w := by
  cases h with
  | take lane m hl hs hc => exact .take v lane m hl (hfg.source _ _ hs) hc
  | takeMedia ms => exact .takeMedia v ms
  | deliverMedia m hm => exact .deliverMedia v m hm
  | recv lane ms t hk hl hm => exact .recv v lane ms t (hfg.receives hk) hl (hm.mono (hfg.data lane))
  | tune lane paused serial time interval => exact .tune v lane paused serial time interval
  | scrub lane => exact .scrub v lane
  | retransmit lane seq rest e now hm hl hf he => exact .retransmit v lane seq rest e now hm hl hf he
  | transmit lane c now hm hc hr => exact .transmit v lane c now hm hc hr
  | release lane seq e hk ha hf => exact .release v lane seq e (hfg.releases hk) (hfg.acked _ _ ha) hf
  | advance lane base hk hlo hhi hn => exact .advance v lane base (hfg.releases hk) hlo hhi hn
  | giveUp record rest e hk hs hf he ht => exact .giveUp v record rest e (hfg.sweeps hk) hs hf he ht
  | drop record rest hk hs hd => exact .drop v record rest (hfg.sweeps hk) hs hd
  | queue packet hd ha hn => exact .queue v packet hd ha hn
  | unqueue => exact .unqueue v
  | fault hf => exact .fault v (hfg.stray hf)

def LinkRun (f : Feed) : LinkView → LinkView → Prop := Relation.ReflTransGen (LinkMove f)

namespace LinkRun

variable {f : Feed} {v w : LinkView}

lemma refl (v : LinkView) : LinkRun f v v := Relation.ReflTransGen.refl

lemma of_eq (h : w = v) : LinkRun f v w := h ▸ refl w

lemma single (h : LinkMove f v w) : LinkRun f v w := Relation.ReflTransGen.single h

lemma trans {u : LinkView} (h : LinkRun f v w) (h' : LinkRun f w u) : LinkRun f v u :=
  Relation.ReflTransGen.trans h h'

lemma mono {g : Feed} (hfg : f.LE g) (h : LinkRun f v w) : LinkRun g v w :=
  Relation.ReflTransGen.mono (fun _ _ => LinkMove.mono hfg) _ _ h

lemma invariant {P : LinkView → Prop} (hstep : ∀ v w, P v → LinkMove f v w → P w) (h : LinkRun f v w)
    (hv : P v) : P w := by
  induction h with
  | refl => exact hv
  | tail _ hm ih => exact hstep _ _ ih hm

lemma failed (h : LinkRun f v w) : w.failed = v.failed := by
  refine h.invariant (P := fun w => w.failed = v.failed) (fun v w hv hm => ?_) rfl
  cases hm <;> exact hv

lemma recv {lane : Lane} {s t : Stream} {ms : List AssembledMessage} (hk : f.receives) (hl : lane ≠ .media)
    (hr : RecvRun (f.data lane) s ms t) (hv : v.streams lane = s) : LinkRun f v (v.receive lane t ms) := by
  induction hr with
  | refl =>
    subst hv
    simpa [LinkView.receive, LinkView.set] using refl v
  | tail _ hm ih =>
    rw [← LinkView.receive_receive]
    exact ih.tail (.recv _ lane _ _ hk hl (by simpa using hm))

end LinkRun

namespace ReliableLink

variable {f : Feed} (l : ReliableLink) (h : Host) (lane : Lane)

lemma checkIndex_run (hf : lane = .media → f.stray) : LinkRun f (l.view h) ((l.checkIndex lane).view h) := by
  by_cases hl : lane = .media
  · subst hl
    exact .single (.fault (l.view h) (hf rfl))
  · rw [checkIndex_of_ne_media l lane hl]
    exact .refl _

@[simp] lemma view_setStream (s : Stream) : (l.setStream lane s).view h = (l.view h).set lane s := by
  rw [view, LinkView.set, streamFor_setStream]
  rfl

lemma view_received (s : Stream) (ms : List AssembledMessage) (budget : Option AssemblyBudget) (stats : LinkStats)
    (due : Lane → Bool) :
    (l.received lane s ms budget stats due).view h = (l.view h).receive lane s ms := by
  rw [view, streamFor_received]
  simp [received, LinkView.receive, LinkView.set, view]

lemma view_updateProgressClock (now : TimePoint) (progress : Bool) :
    (l.updateProgressClock now progress).view h = l.view h := by
  obtain ⟨stalled, he⟩ := l.updateProgressClock_eq now progress
  rw [he]
  rfl

end ReliableLink

end NetLink.Channel
