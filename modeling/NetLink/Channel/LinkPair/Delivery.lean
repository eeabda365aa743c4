import NetLink.Channel.LinkPair.Contents

/-! Two links over a network that drops, duplicates, delays and reorders, but forges nothing: what was ever
sent may arrive at any time, any number of times. -/

namespace NetLink.Channel

open Lib

lemma LinkRun.taken {f : Feed} {v w : LinkView} {lane : Lane} (hl : lane ≠ .media) (hr : LinkRun f v w) :
    ∃ more, w.taken lane = v.taken lane ++ more ∧ ∀ m ∈ more, f.source lane m := by
  refine hr.invariant (P := fun u => ∃ more, u.taken lane = v.taken lane ++ more ∧ ∀ m ∈ more, f.source lane m)
    (fun u u' hu hm => ?_) ⟨[], (List.append_nil _).symm, by simp⟩
  obtain ⟨more, hu, hs⟩ := hu
  cases hm with
  | take other m _ hm =>
    by_cases h : lane = other
    · subst h
      refine ⟨more ++ [m], by simp [hu], fun m' hm' => ?_⟩
      rcases List.mem_append.mp hm' with hm' | hm'
      · exact hs m' hm'
      · exact List.mem_singleton.mp hm' ▸ hm
    · exact ⟨more, by simp [h, hu], hs⟩
  | takeMedia ms => exact ⟨more, by simp [hl, hu], hs⟩
  | _ => exact ⟨more, hu, hs⟩

lemma RecvContent.out {taken : List OutboundMessage} {v : LaneView} (h : RecvContent taken v) :
    v.out <+: taken.map OutboundMessage.content := by
  obtain ⟨done, rest, i, hp, ho, -⟩ := h.reads
  rw [ho, hp.split, List.map_append]
  exact List.prefix_append _ _

namespace Host

variable {source : Lane → OutboundMessage → Prop} {incoming : Packet → Prop} {h h' : Host} {lane : Lane}

lemma wire_of_step (hs : Step source incoming h h') {q : Packet} (hq : q ∈ h'.wire) :
    q ∈ h.wire ∨ (∃ lane, h.offered = some lane) ∧ q = h.link.mPeeked ∨ q ∈ h.link.mPendingAcks := by
  cases hs with
  | commit lane now ho =>
    rcases List.mem_append.mp hq with hq | hq
    · exact .inl hq
    · exact .inr (.inl ⟨⟨lane, ho⟩, List.mem_singleton.mp hq⟩)
  | commitAck =>
    rcases List.mem_append.mp hq with hq | hq
    · exact .inl hq
    · exact .inr (.inr (List.mem_of_mem_head? (by simpa using hq)))
  | _ => exact .inl hq

lemma wire_subset_of_step (hs : Step source incoming h h') {q : Packet} (hq : q ∈ h.wire) : q ∈ h'.wire := by
  cases hs with
  | commit | commitAck => exact List.mem_append_left _ hq
  | _ => exact hq

lemma lane_of_failed (hs : Step source incoming h h') (ho : ∀ lane, h.offered = some lane → h.link.Offers lane)
    (hf : h.link.mFailed = true) (lane : Lane) : h'.view.lane lane = h.view.lane lane := by
  cases hs with
  | peek other next hm =>
    have hp : h.link.peek single other next = (none, h.link, next) := by simp [ReliableLink.peek, hf]
    simp only [Host.peek, hp, ReliableLink.noteTaken_self]
    rfl
  | commit other now hl =>
    have := (ho other hl).1
    simp [hf] at this
  | peekAck =>
    have hp : h.link.peekAck.2 = h.link := by simp [ReliableLink.peekAck, hf]
    simp [Host.view, Host.peekAck, hp]
    rfl
  | onPacket packet now hp => 
    have hp : h.link.onPacket packet now = h.link := by simp [ReliableLink.onPacket, hf]
    simp [Host.view, Host.onPacket, hp]
    rfl
  | onTimer now =>
    have hp : h.link.onTimer now = h.link := by simp [ReliableLink.onTimer, hf]
    simp [Host.view, Host.onTimer, hp]
    rfl
  | setPaused paused =>
    have hv := view_setPaused h.link h paused
    exact congrArg (·.lane lane) hv
  | takeDelivered => rw [view_takeDelivered]
  | commitAck | supervise | exchangeBudget => rfl

end Host

structure LinkPair where
  a : Host
  b : Host

namespace LinkPair

def Fits (lane : Lane) (m : OutboundMessage) : Prop := m.body.length ≤ maxMessageSize lane

inductive Step : LinkPair → LinkPair → Prop
  | left (p : LinkPair) (a : Host) (h : Host.Step Fits (· ∈ p.b.wire) p.a a) : Step p { p with a := a }
  | right (p : LinkPair) (b : Host) (h : Host.Step Fits (· ∈ p.a.wire) p.b b) : Step p { p with b := b }

def system : System LinkPair where
  init p := p.a.Initial ∧ p.b.Initial
  step := Step

structure Inv (lane : Lane) (p : LinkPair) : Prop where
  soundA : p.a.Sound
  soundB : p.b.Sound
  fit : ∀ m ∈ p.a.taken lane, m.body.length ≤ MaxMessagePayload
  sends : p.a.link.mFailed = false → SendContent (p.a.view.lane lane)
  pending : ∀ q ∈ p.a.link.mPendingAcks, q.header.flags.kind ≠ .data
  wire : ∀ q ∈ p.a.wire, q.header.flags.kind = .data → q.header.flags.lane = lane →
    Genuine (p.a.taken lane) q.header q.body
  reads : p.b.link.mFailed = false → RecvContent (p.a.taken lane) (p.b.view.lane lane)
  out : (p.b.view.lane lane).out <+: (p.a.taken lane).map OutboundMessage.content

variable {lane : Lane} {p q : LinkPair}

lemma Inv.initial (hi : system.init p) : Inv lane p := by
  obtain ⟨⟨timings, id, budget, ha⟩, ⟨timings', id', budget', hb⟩⟩ := hi
  obtain ⟨a, b⟩ := p
  subst ha hb
  exact
    { soundA := Host.sound_of_initial ⟨_, _, _, rfl⟩
      soundB := Host.sound_of_initial ⟨_, _, _, rfl⟩
      fit := by simp
      sends := fun _ => .fresh
      pending := by simp [ReliableLink.new]
      wire := by simp
      reads := fun _ => .fresh
      out := ⟨[], rfl⟩ }

lemma pending_of_run {f : Feed} {v w : LinkView} (hr : LinkRun f v w)
    (hv : ∀ q ∈ v.pending, q.header.flags.kind ≠ .data) : ∀ q ∈ w.pending, q.header.flags.kind ≠ .data := by
  refine hr.invariant (P := fun u => ∀ q ∈ u.pending, q.header.flags.kind ≠ .data) (fun u u' hu hm => ?_) hv
  cases hm with
  | queue packet hd ha hn =>
    intro q hq
    rcases List.mem_append.mp hq with hq | hq
    · exact hu q hq
    · exact List.mem_singleton.mp hq ▸ hd
  | unqueue => exact fun q hq => hu q (List.mem_of_mem_tail hq)
  | _ => exact hu

lemma genuine_of_offers {h : Host} {other : Lane} (hl : lane ≠ .media) (ho : h.link.Offers other)
    (hs : SendContent (h.view.lane lane)) (hlane : h.link.mPeeked.header.flags.lane = lane) :
    Genuine (h.taken lane) h.link.mPeeked.header h.link.mPeeked.body := by
  obtain ⟨-, seq, e, hp, hn⟩ := ho
  rw [hp] at hlane ⊢
  have hflags : (makeDatagram (h.link.headerOf other seq e) e.bytes).header.flags.lane = other := by
    simp only [makeDatagram, PacketHeader.onWire, flags_headerOf]
    split <;> simp
  rw [hflags] at hlane
  subst hlane
  obtain ⟨s, hs', hn⟩ := hn hl
  have hst : (h.view.lane other).stream = s := ReliableLink.streamFor_of_some h.link other s hs'
  have hseq : (makeDatagram (h.link.headerOf other seq e) e.bytes).header.seq = seq := by
    simp only [makeDatagram, PacketHeader.onWire, ReliableLink.headerOf, ReliableLink.makeHeader]
    split <;> rfl
  rw [Genuine, hseq]
  refine ⟨e.core, ?_, carries_makeDatagram h.link other seq e.core⟩
  rcases hn.found with hf | ⟨rfl, c, hc, rfl⟩
  · exact hs.content seq e.core (by rw [hst, hf]; rfl)
  · rw [← hst] at hc ⊢
    exact hs.next_fragment hc

lemma Fits.le_maxMessagePayload {m : OutboundMessage} (hl : lane ≠ .media) (h : Fits lane m) :
    m.body.length ≤ MaxMessagePayload := by
  simpa [Fits, maxMessageSize, hl] using h

lemma Inv.left {a : Host} {incoming : Packet → Prop} (hl : lane ≠ .media) (h : Inv lane p)
    (hs : Host.Step Fits incoming p.a a) : Inv lane { p with a := a } := by
  have hcase := Host.run_of_step hs h.soundA.offers
  have htaken : ∃ more, a.taken lane = p.a.taken lane ++ more ∧ ∀ m ∈ more, Fits lane m := by
    rcases hcase with hf | hr
    · exact ⟨[], by rw [hf]; simp, by simp⟩
    · exact hr.taken hl
  obtain ⟨more, hmore, hfits⟩ := htaken
  refine ⟨h.soundA.step hs, h.soundB, fun m hm => ?_, fun hnf => ?_, ?_, fun q hq hk hlane => ?_,
    fun hnf => ?_, ?_⟩
  · rw [hmore, List.mem_append] at hm
    exact hm.elim (h.fit m) fun hm => (hfits m hm).le_maxMessagePayload hl
  · rcases hcase with hf | hr
    · rw [hf] at hnf
      simp [ReliableLink.fail] at hnf
    · have hinv := hr.invariant (P := fun v => ViewInv v ∧ SendContent (v.lane lane))
        (fun v w hv hm => ⟨hv.1.move hm, hv.2.move (fun m hm => Fits.le_maxMessagePayload hl hm)
          (LinkView.lane_move hl hv.1 hm)⟩)
        ⟨h.soundA.view, h.sends (hr.failed.symm.trans hnf)⟩
      exact hinv.2
  · rcases hcase with hf | hr
    · rw [hf]
      simp [ReliableLink.fail, ReliableLink.resetStreams]
    · exact pending_of_run hr h.pending
  · simp only at hq ⊢
    rw [hmore]
    rcases Host.wire_of_step hs hq with hq | ⟨⟨other, ho⟩, rfl⟩ | hq
    · exact (h.wire q hq hk hlane).append more
    · have hoff := h.soundA.offers other ho
      exact (genuine_of_offers hl hoff (h.sends hoff.1) hlane).append more
    · exact absurd hk (h.pending q hq)
  · rw [hmore]
    exact (h.reads hnf).append more
  · rw [hmore, List.map_append]
    exact h.out.trans (List.prefix_append _ _)

lemma Inv.right {b : Host} (hl : lane ≠ .media) (h : Inv lane p) (hs : Host.Step Fits (· ∈ p.a.wire) p.b b) :
    Inv lane { p with b := b } := by
  have hcase := Host.run_of_step hs h.soundB.offers
  have hreads : b.link.mFailed = false → RecvContent (p.a.taken lane) (b.view.lane lane) := by
    intro hnf
    rcases hcase with hf | hr
    · rw [hf] at hnf
      simp [ReliableLink.fail] at hnf
    · have hdata : ∀ header body, (Host.feed Fits (· ∈ p.a.wire)).data lane header body →
          Genuine (p.a.taken lane) header body := by
        rintro _ _ ⟨q, hq, hk, hlane, rfl, rfl⟩
        exact h.wire q hq hk hlane
      have hinv := hr.invariant (P := fun v => ViewInv v ∧ RecvContent (p.a.taken lane) (v.lane lane))
        (fun v w hv hm => ⟨hv.1.move hm, hv.2.move h.fit (hv.1.recv lane) hdata (LinkView.lane_move hl hv.1 hm)⟩)
        ⟨h.soundB.view, h.reads (hr.failed.symm.trans hnf)⟩
      exact hinv.2
  refine ⟨h.soundA, h.soundB.step hs, h.fit, h.sends, h.pending, h.wire, hreads, ?_⟩
  cases hnf : b.link.mFailed with
  | false => exact (hreads hnf).out
  | true =>
    rcases hcase with hf | hr
    · rw [hf]
      exact h.out
    · have hv := Host.lane_of_failed hs h.soundB.offers (hr.failed.symm.trans hnf) lane
      simpa only [hv] using h.out

lemma inv_of_reachable (hl : lane ≠ .media) (hr : system.Reachable p) : Inv lane p := by
  refine hr.invariant (fun _ => Inv.initial) fun p q _ h hs => ?_
  cases hs with
  | left a hs => exact h.left hl hs
  | right b hs => exact h.right hl hs

theorem delivered_in_order (hr : system.Reachable p) (lane : Lane) (hl : lane ≠ .media) :
    (p.b.delivered lane).map (fun d => (d.tag, d.body)) <+: (p.a.taken lane).map (fun m => (m.tag, m.body)) :=
  (inv_of_reachable hl hr).out

def bothSent : Host :=
  (Host.controlSent.peek .control (some { tag := 6, body := [3] })).commit .control 0

/-- The second message arrives first. -/
def arrived : LinkPair where
  a := bothSent
  b :=
    (({ link := .new {} 9 none } : Host).onPacket bothSent.link.mPeeked 0).onPacket Host.controlSent.link.mPeeked 0

lemma arrived_reachable : system.Reachable arrived := by
  have hm : ∀ (tag : UInt32) (body : List UInt8), body.length ≤ 2 →
      ∀ m ∈ some ({ tag := tag, body := body } : OutboundMessage), Fits .control m := by
    rintro tag body hle _ ⟨⟩
    exact hle.trans (by decide)
  have hstart : system.Reachable ⟨{ link := .new {} 7 none }, { link := .new {} 9 none }⟩ :=
    .of_init ⟨⟨_, _, _, rfl⟩, ⟨_, _, _, rfl⟩⟩
  have hfirst := (hstart.step (Step.left _ _ (.peek _ .control _ (hm 5 [1, 2] le_rfl)))).step
    (Step.left _ _ (.commit _ .control 0 (by decide)))
  have hsecond := (hfirst.step (Step.left _ _ (.peek _ .control _ (hm 6 [3] (by decide))))).step
    (Step.left _ _ (.commit _ .control 0 (by decide)))
  exact (hsecond.step (Step.right _ _ (.onPacket _ bothSent.link.mPeeked 0 (by decide +kernel)))).step
    (Step.right _ _ (.onPacket _ Host.controlSent.link.mPeeked 0 (by decide +kernel)))

theorem delivered_in_order_arrived : (arrived.b.delivered .control).length = 2 ∧
    (arrived.b.delivered .control).map (fun d => (d.tag, d.body)) <+:
      (arrived.a.taken .control).map (fun m => (m.tag, m.body)) :=
  ⟨by decide +kernel, delivered_in_order arrived_reachable .control (by decide)⟩

end LinkPair

end NetLink.Channel
