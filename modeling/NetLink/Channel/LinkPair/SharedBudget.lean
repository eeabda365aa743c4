import Mathlib.Algebra.BigOperators.Group.List.Basic
import NetLink.Channel.LinkPair.Delivery
import NetLink.Channel.ReliableLink.Budget

/-! Many links that share one budget for the messages they put together. -/

namespace NetLink.Channel

open Lib SequenceBuffer

namespace Stream.Intake

structure Honest (taken : List OutboundMessage) (s : Intake) : Prop where
  held : ∀ seq x, s.reorder.find seq = some x →
    ∃ e, (taken.flatMap messageFragments)[seq - 1]? = some e ∧ Carries e x.header x.body
  refused : s.budgetPaused = true → ∃ e, (taken.flatMap messageFragments)[s.nextExpected - 1]? = some e ∧
    1 < e.fragCount ∧ e.fragIndex = 0 ∧ s.refusedLength = e.totalLength

variable {taken : List OutboundMessage} {s : Intake} {e : InFlight} {header : PacketHeader} {body : List UInt8}
  {budget : Option AssemblyBudget}

namespace Honest

lemma fresh (window : ℕ) : Honest taken (Stream.new window).intake where
  held seq x h := by
    rw [show (Stream.new window).intake.reorder = .new window from rfl, find_new] at h
    cases h
  refused h := by cases h

lemma append (h : Honest taken s) (more : List OutboundMessage) : Honest (taken ++ more) s where
  held seq x hx := by
    obtain ⟨e, he, hc⟩ := h.held seq x hx
    exact ⟨e, getElem?_flatMap_append he, hc⟩
  refused hp := by
    obtain ⟨e, he, hrest⟩ := h.refused hp
    exact ⟨e, getElem?_flatMap_append he, hrest⟩

end Honest

lemma fits_of_refused (hr : MessageAssembler.hasRoomFor budget header = false) :
    ∃ x ∈ budget, x.fits header.totalLength = false := by
  cases budget with
  | none => cases hr
  | some x =>
    rw [MessageAssembler.hasRoomFor, Bool.or_eq_false_iff] at hr
    exact ⟨x, rfl, hr.2⟩

lemma starts_of_refused (hc : Carries e header body) (hr : MessageAssembler.hasRoomFor budget header = false) :
    1 < e.fragCount ∧ e.fragIndex = 0 ∧ header.totalLength = e.totalLength := by
  have hs : header.startsFragmentedMessage = true := by
    cases budget with
    | none => cases hr
    | some x =>
      rw [MessageAssembler.hasRoomFor, Bool.or_eq_false_iff, Bool.not_eq_false'] at hr
      exact hr.1
  rw [PacketHeader.startsFragmentedMessage, Bool.and_eq_true, beq_iff_eq, hc.fragmented, decide_eq_true_eq] at hs
  obtain ⟨hcount, hzero⟩ := hs
  have hindex : e.fragIndex = 0 := (hc.index hcount).symm.trans hzero
  exact ⟨hcount, hindex, hc.total hcount hindex⟩

lemma Honest.refuse (h : Honest taken s) (he : (taken.flatMap messageFragments)[s.nextExpected - 1]? = some e)
    (hc : Carries e header body) (hr : MessageAssembler.hasRoomFor budget header = false) :
    Honest taken { s with budgetPaused := true, refusedLength := header.totalLength } where
  held := h.held
  refused _ := by
    obtain ⟨hcount, hindex, htotal⟩ := starts_of_refused hc hr
    exact ⟨e, he, hcount, hindex, htotal⟩

lemma Honest.not_paused (h : Honest taken s)
    (hw : s.budgetPaused = true → ∃ x ∈ budget, x.fits s.refusedLength = false) (hg : Genuine taken header body)
    (hs : header.seq = s.nextExpected) (hr : MessageAssembler.hasRoomFor budget header = true) :
    s.budgetPaused = false := by
  by_contra hp
  rw [Bool.not_eq_false] at hp
  obtain ⟨e, he, hcount, hindex, hlength⟩ := h.refused hp
  obtain ⟨e', he', hc⟩ := hg
  rw [hs, he] at he'
  obtain rfl := Option.some.inj he'
  obtain ⟨x, hx, hfits⟩ := hw hp
  rw [Option.mem_def] at hx
  have hstarts : header.startsFragmentedMessage = true := by
    simp [PacketHeader.startsFragmentedMessage, hc.fragmented, hcount, hc.index hcount, hindex]
  rw [hx, MessageAssembler.hasRoomFor, hstarts, hc.total hcount hindex, ← hlength, hfits] at hr
  cases hr

lemma upheld_honest : Upheld (Genuine taken) (fun s _ => Honest taken s)
    (fun s b => Honest taken s ∧ (s.budgetPaused = true → ∃ x ∈ b, x.fits s.refusedLength = false))
    (fun s _ => Honest taken s ∧ s.budgetPaused = false) where
  waits s b h hw := ⟨h, hw⟩
  reopens s b h _ := ⟨⟨h.held, fun hp => by cases hp⟩, rfl⟩
  drains s b x h hf hr := by
    refine ⟨⟨fun seq y hy => h.1.held seq y (find_of_find_erase hy), fun hp => ?_⟩, h.2⟩
    exact absurd hp (by simp [h.2])
  stops s b h := ⟨h.1, fun hp => absurd hp (by simp [h.2])⟩
  refuses s b x h hf hr := by
    obtain ⟨e, he, hc⟩ := h.1.held _ x hf
    exact ⟨h.1.refuse he hc hr, fun _ => fits_of_refused hr⟩
  rests s b h := h.1
  buffers s b header body h hg _ _ _ := by
    refine ⟨fun seq y hy => ?_, h.1.refused⟩
    rcases find_of_find_insert hy with ⟨rfl, rfl⟩ | hy
    · exact hg
    · exact h.1.held seq y hy
  rejects s b header body h hg hs hr := by
    obtain ⟨e, he, hc⟩ := hg
    exact h.1.refuse (hs ▸ he) hc hr
  accepts s b header body h hg hs hr := by
    have hp := h.1.not_paused h.2 hg hs hr
    exact ⟨⟨h.1.held, fun hp' => absurd hp' (by simp [hp])⟩, hp⟩

end Stream.Intake

lemma RecvContent.idle {taken : List OutboundMessage} {v : LaneView} {e : InFlight} (h : RecvContent taken v)
    (hfit : ∀ m ∈ taken, m.body.length ≤ MaxMessagePayload)
    (he : (taken.flatMap messageFragments)[v.stream.nextExpected - 1]? = some e) (hi : e.fragIndex = 0) :
    v.stream.assembler = {} := by
  obtain ⟨done, rest, i, hp, -, ha⟩ := h.reads
  cases rest with
  | nil => exact ha
  | cons m rest =>
    rw [hp.getElem?, getElem?_messageFragments hp.lt_length, Option.some.injEq] at he
    have hm : m ∈ taken := by simp [hp.split]
    rw [← he, fragmentAt_cursor (hfit m hm) (length_messageFragments m ▸ hp.lt_length)] at hi
    have hi : i = 0 := hi
    subst hi
    exact ha

structure Shared where
  budget : AssemblyBudget
  pairs : List LinkPair

namespace Shared

open LinkPair

def lend (h : Host) (budget : AssemblyBudget) : Host := { h with link := { h.link with mBudget := some budget } }

inductive Step (incoming : LinkPair → Packet → Prop) : Shared → Shared → Prop
  | create (s : Shared) (a : Host) (ha : a.Initial) (timings : LinkTimings) (id : UInt32) :
      Step incoming s { s with pairs := ⟨a, { link := .new timings id (some s.budget) }⟩ :: s.pairs }
  | remote (budget : AssemblyBudget) (front back : List LinkPair) (pair : LinkPair) (a : Host)
      (hs : Host.Step Fits (fun _ => True) pair.a a) :
      Step incoming ⟨budget, front ++ pair :: back⟩ ⟨budget, front ++ { pair with a := a } :: back⟩
  | call (budget : AssemblyBudget) (front back : List LinkPair) (pair : LinkPair) (c : Host.Call)
      (hc : (lend pair.b budget).Allows Fits (incoming pair) c) :
      Step incoming ⟨budget, front ++ pair :: back⟩
        ⟨((lend pair.b budget).call c).link.mBudget.getD budget,
          front ++ { pair with b := (lend pair.b budget).call c } :: back⟩
  | destroy (budget : AssemblyBudget) (front back : List LinkPair) (pair : LinkPair) :
      Step incoming ⟨budget, front ++ pair :: back⟩
        ⟨(lend pair.b budget).link.releasedBudget.getD budget, front ++ back⟩

def system (limit : ℕ) (incoming : LinkPair → Packet → Prop) : System Shared where
  init s := s = ⟨{ mLimit := limit }, []⟩
  step := Step incoming

def assembling (s : Shared) : ℕ :=
  (s.pairs.map fun pair => (StreamLanes.map fun lane => ((pair.b.link.mStreams lane).map fun stream =>
    if stream.assembler.mAssembling then stream.assembler.mTotalLength else 0).getD 0).sum).sum

def reserved (s : Shared) : ℕ := (s.pairs.map fun pair => pair.b.link.intake.reserved).sum

variable {limit : ℕ} {incoming : LinkPair → Packet → Prop} {s t : Shared} {front back : List LinkPair}
  {pair : LinkPair} {budget : AssemblyBudget}

variable (front back pair budget) in
lemma reserved_insert : reserved ⟨budget, front ++ pair :: back⟩ =
    reserved ⟨budget, front ++ back⟩ + pair.b.link.intake.reserved := by
  simp only [reserved, List.map_append, List.map_cons, List.sum_append, List.sum_cons]
  omega

lemma accounts_step (h : s.budget.Accounts limit s.reserved) (hs : Step incoming s t) :
    t.budget.Accounts limit t.reserved := by
  cases hs with
  | create _ a ha timings id =>
    have hzero : (ReliableLink.new timings id (some s.budget)).intake.reserved = 0 := rfl
    have hsum := reserved_insert [] s.pairs ⟨a, { link := .new timings id (some s.budget) }⟩ s.budget
    rw [List.nil_append, hzero] at hsum
    exact hsum ▸ h
  | remote budget front back pair a hs =>
    rw [reserved_insert] at h ⊢
    exact h
  | call budget front back pair c hc =>
    rw [reserved_insert] at h ⊢
    have hb : (lend pair.b budget).link.intake.Books limit (reserved ⟨budget, front ++ back⟩) := ⟨budget, rfl, h⟩
    obtain ⟨b, hmb, ha⟩ := Host.books_call hc hb
    have hmb : ((lend pair.b budget).call c).link.mBudget = some b := hmb
    rw [hmb]
    exact ha
  | destroy budget front back pair =>
    rw [reserved_insert] at h
    have hb : (lend pair.b budget).link.intake.Books limit (reserved ⟨budget, front ++ back⟩) := ⟨budget, rfl, h⟩
    obtain ⟨b, hmb, ha⟩ := ReliableLink.releasedBudget_books hb
    rw [hmb]
    exact ha

lemma accounts_of_reachable (hr : (system limit incoming).Reachable s) : s.budget.Accounts limit s.reserved := by
  refine hr.invariant (P := fun s => s.budget.Accounts limit s.reserved) (fun s hi => ?_)
    fun s t _ h hs => accounts_step h hs
  rw [show s = _ from hi]
  exact ⟨rfl, rfl, Nat.zero_le _, rfl⟩

structure Served (pair : LinkPair) : Prop where
  inv : ∀ lane, lane ≠ .media → Inv lane pair
  honest : ∀ lane, lane ≠ .media → (pair.b.link.intake.lanes lane).Honest (pair.a.taken lane)
  failed : pair.b.link.mFailed = true → ∀ lane, (pair.b.link.streamFor lane).assembler = {}

namespace Served

lemma initial {a b : Host} (ha : a.Initial) (hb : b.Initial) : Served ⟨a, b⟩ := by
  refine ⟨fun lane _ => Inv.initial ⟨ha, hb⟩, fun lane _ => ?_, fun _ lane => ?_⟩ <;>
    obtain ⟨timings, id, budget, rfl⟩ := hb
  · exact .fresh _
  · rfl

lemma lent (h : Served pair) (budget : AssemblyBudget) : Served { pair with b := lend pair.b budget } := by
  refine ⟨fun lane hl => ?_, h.honest, h.failed⟩
  have hi := h.inv lane hl
  exact ⟨hi.soundA, ⟨hi.soundB.view, hi.soundB.settled, hi.soundB.offers⟩, hi.fit, hi.sends, hi.pending, hi.wire,
    hi.reads, hi.out⟩

lemma remote {a : Host} {incoming : Packet → Prop} (h : Served pair) (hs : Host.Step Fits incoming pair.a a) :
    Served { pair with a := a } := by
  refine ⟨fun lane hl => (h.inv lane hl).left hl hs, fun lane hl => ?_, h.failed⟩
  have htaken : ∃ more, a.taken lane = pair.a.taken lane ++ more := by
    rcases Host.run_of_step hs (h.inv lane hl).soundA.offers with hf | hr
    · exact ⟨[], by rw [hf]; simp⟩
    · obtain ⟨more, hm, -⟩ := hr.taken hl
      exact ⟨more, hm⟩
  obtain ⟨more, hm⟩ := htaken
  have hh := (h.honest lane hl).append more
  rw [← hm] at hh
  exact hh

lemma call {c : Host.Call} (h : Served pair) (hc : pair.b.Allows Fits (· ∈ pair.a.wire) c) :
    Served { pair with b := pair.b.call c } := by
  have hs := Host.step_call hc
  refine ⟨fun lane hl => (h.inv lane hl).right hl hs, ?_, fun hf lane => ?_⟩
  · -- only handling Data of a lane changes what is held of it
    refine Host.intake_call (Q := fun i => ∀ lane, lane ≠ .media → (i.lanes lane).Honest (pair.a.taken lane))
      (fun l packet hp hk hl hq lane hlane => ?_) (fun l other hl ho hq lane hlane => ?_)
      (fun _ _ lane _ => .fresh _) hc h.honest
    · by_cases he : lane = packet.header.flags.lane
      · subst he
        exact ReliableLink.handleData_receives hl Stream.Intake.upheld_honest
          ((h.inv _ hl).wire packet hp hk rfl) (hq _ hl)
      · rw [(ReliableLink.handleData_received (p := fun _ _ => True) hl trivial).intake_lanes he]
        exact hq lane hlane
    · by_cases he : lane = other
      · subst he
        exact (ReliableLink.retryRefused_receives Stream.Intake.upheld_honest (hq lane hl)).1
      · rw [(ReliableLink.retryRefused_received (p := fun _ _ => True) ho).intake_lanes he]
        exact hq lane hlane
  · have hoffers := (h.inv .control (by decide)).soundB.offers
    rcases Host.run_of_step hs hoffers with hfails | hr
    · rw [show pair.b.call c = _ from hfails]
      rfl
    · have hbefore : pair.b.link.mFailed = true := hr.failed.symm.trans hf
      have hlane := Host.lane_of_failed hs hoffers hbefore lane
      have hstream : (pair.b.call c).link.streamFor lane = pair.b.link.streamFor lane :=
        congrArg LaneView.stream hlane
      rw [hstream, h.failed hbefore lane]

variable {lane : Lane}

lemma idle_of_due {e : InFlight} (h : Served pair) (hl : lane ≠ .media)
    (he : ((pair.a.taken lane).flatMap messageFragments)[(pair.b.link.streamFor lane).nextExpected - 1]? = some e)
    (hi : e.fragIndex = 0) : (pair.b.link.streamFor lane).assembler = {} := by
  cases hf : pair.b.link.mFailed with
  | true => exact h.failed hf lane
  | false => exact RecvContent.idle ((h.inv lane hl).reads hf) (h.inv lane hl).fit he hi

lemma idle_of_paused (h : Served pair) (hl : lane ≠ .media)
    (hp : (pair.b.link.streamFor lane).budgetPaused = true) : (pair.b.link.streamFor lane).assembler = {} := by
  obtain ⟨e, he, -, hi, -⟩ := (h.honest lane hl).refused hp
  exact h.idle_of_due hl he hi

lemma not_refused (h : Served pair) (hl : lane ≠ .media)
    (ha : (pair.b.link.streamFor lane).assembler.mAssembling = true) {q : Packet} (hq : q ∈ pair.a.wire)
    (hk : q.header.flags.kind = .data) (hlane : q.header.flags.lane = lane)
    (hseq : q.header.seq = (pair.b.link.streamFor lane).nextExpected) (budget : Option AssemblyBudget) :
    MessageAssembler.hasRoomFor budget q.header = true := by
  by_contra hr
  rw [Bool.not_eq_true] at hr
  obtain ⟨e, he, hc⟩ := (h.inv lane hl).wire q hq hk hlane
  rw [hseq] at he
  rw [h.idle_of_due hl he (Stream.Intake.starts_of_refused hc hr).2.1] at ha
  cases ha

end Served

lemma served_step (hin : ∀ pair q, incoming pair q → q ∈ pair.a.wire) (h : ∀ pair ∈ s.pairs, Served pair)
    (hs : Step incoming s t) : ∀ pair ∈ t.pairs, Served pair := by
  have hset : ∀ {front back : List LinkPair} {old new : LinkPair}, (∀ pair ∈ front ++ old :: back, Served pair) →
      (Served old → Served new) → ∀ pair ∈ front ++ new :: back, Served pair := by
    intro front back old new h hnew
    rw [List.forall_mem_append, List.forall_mem_cons] at h ⊢
    exact ⟨h.1, hnew h.2.1, h.2.2⟩
  cases hs with
  | create _ a ha timings id => exact List.forall_mem_cons.mpr ⟨.initial ha ⟨_, _, _, rfl⟩, h⟩
  | remote budget front back pair a hs => exact hset h fun hp => hp.remote hs
  | call budget front back pair c hc =>
    refine hset h fun hp => (hp.lent budget).call ?_
    cases c with
    | onPacket packet now => exact hin pair packet hc
    | _ => exact hc
  | destroy budget front back pair =>
    rw [List.forall_mem_append, List.forall_mem_cons] at h
    exact List.forall_mem_append.mpr ⟨h.1, h.2.2⟩

lemma served_of_reachable (hin : ∀ pair q, incoming pair q → q ∈ pair.a.wire)
    (hr : (system limit incoming).Reachable s) : ∀ pair ∈ s.pairs, Served pair := by
  refine hr.invariant (P := fun s => ∀ pair ∈ s.pairs, Served pair) (fun s hi => ?_)
    fun s t _ h hs => served_step hin h hs
  rw [show s = _ from hi]
  exact fun pair hp => absurd hp (List.not_mem_nil)

lemma reserved_eq_assembling (s : Shared) : s.reserved = s.assembling := by
  have hlane : ∀ (l : ReliableLink) lane, (l.intake.lanes lane).assembler.reservation =
      ((l.mStreams lane).map fun stream =>
        if stream.assembler.mAssembling then stream.assembler.mTotalLength else 0).getD 0 := by
    intro l lane
    cases hs : l.mStreams lane with
    | none =>
      have hn : l.streamFor lane = .new (windowOf lane) := by rw [ReliableLink.streamFor, hs]; rfl
      have hi : (l.intake.lanes lane).assembler = {} := congrArg Stream.assembler hn
      rw [hi]
      rfl
    | some stream =>
      have hi : (l.intake.lanes lane).assembler = stream.assembler :=
        congrArg Stream.assembler (ReliableLink.streamFor_of_some l lane stream hs)
      rw [hi]
      rfl
  simp only [reserved, assembling, ReliableLink.Intake.reserved, hlane]

lemma assembling_eq_zero
    (h : ∀ pair ∈ s.pairs, ∀ lane ∈ StreamLanes, ∀ stream, pair.b.link.mStreams lane = some stream →
    stream.assembler.mAssembling = false) : s.assembling = 0 := by
  refine List.sum_eq_zero fun n hn => ?_
  obtain ⟨pair, hp, rfl⟩ := List.mem_map.mp hn
  refine List.sum_eq_zero fun n hn => ?_
  obtain ⟨lane, hl, rfl⟩ := List.mem_map.mp hn
  cases hs : pair.b.link.mStreams lane with
  | none => rfl
  | some stream => simp [h pair hp lane hl stream hs]

theorem used_eq_assembling (hr : (system limit incoming).Reachable s) :
    (s.budget.mUsed = s.assembling ∧ s.budget.mUsed ≤ s.budget.mLimit ∧ s.budget.underflow = false) ∧
      ((∀ pair ∈ s.pairs, ∀ lane ∈ StreamLanes, ∀ stream, pair.b.link.mStreams lane = some stream →
        stream.assembler.mAssembling = false) → s.budget.mUsed = 0) ∧
      ((∀ pair q, incoming pair q → q ∈ pair.a.wire) →
        ∀ pair ∈ s.pairs, ∀ lane ∈ StreamLanes, ∀ stream, pair.b.link.mStreams lane = some stream →
          (stream.budgetPaused = true → stream.assembler.reservation = 0) ∧
          (stream.assembler.mAssembling = true → ∀ q ∈ pair.a.wire, q.header.flags.kind = .data →
            q.header.flags.lane = lane → q.header.seq = stream.nextExpected →
            ∀ budget, MessageAssembler.hasRoomFor budget q.header = true)) := by
  have ha := accounts_of_reachable hr
  rw [reserved_eq_assembling] at ha
  refine ⟨⟨ha.mUsed, ?_, ha.sound⟩, fun hidle => ?_, fun hin pair hp lane hlane stream hs => ?_⟩
  · rw [ha.mUsed, ha.mLimit]
    exact ha.le
  · rw [ha.mUsed, assembling_eq_zero hidle]
  · have hserved := served_of_reachable hin hr pair hp
    have hl : lane ≠ .media := by
      rintro rfl
      exact absurd hlane (by decide)
    obtain rfl := ReliableLink.streamFor_of_some pair.b.link lane stream hs
    refine ⟨fun hpaused => ?_, fun ha q hq hk hql hseq => hserved.not_refused hl ha hq hk hql hseq⟩
    rw [hserved.idle_of_paused hl hpaused]
    rfl

def twoFragments : OutboundMessage := { tag := 5, body := List.replicate 1500 1 }

def offering : Host := ({ link := .new {} 7 none } : Host).peek .bulk (some twoFragments)

def halfway : Host := offering.commit .bulk 0

def budgetOf (n : ℕ) : AssemblyBudget := { mLimit := n }

def started : Host :=
  (lend { link := .new {} 9 (some (budgetOf 2000)) } (budgetOf 2000)).call (.onPacket offering.link.mPeeked 0)

lemma started_reachable : (system 2000 fun pair q => q ∈ pair.a.wire).Reachable
    ⟨started.link.mBudget.getD (budgetOf 2000), [⟨halfway, started⟩]⟩ := by
  have hm : ∀ m ∈ some twoFragments, Fits .bulk m := by
    rintro _ ⟨⟩
    rw [Fits, show twoFragments.body.length = 1500 from List.length_replicate]
    decide
  have h₀ : (system 2000 fun pair q => q ∈ pair.a.wire).Reachable ⟨budgetOf 2000, []⟩ := .of_init rfl
  have h₁ := h₀.step (Step.create _ { link := .new {} 7 none } ⟨_, _, _, rfl⟩ {} 9)
  have h₂ := h₁.step (Step.remote _ [] [] _ _ (.peek _ .bulk _ hm))
  have h₃ := h₂.step (Step.remote _ [] [] _ _ (.commit _ .bulk 0 (by decide +kernel)))
  exact h₃.step (Step.call _ [] [] _ (.onPacket offering.link.mPeeked 0)
    (List.mem_append_right _ (List.mem_singleton.mpr rfl)))

theorem used_eq_assembling_started : started.link.mBudget = some ⟨2000, 1500, false⟩ ∧
    (Shared.mk ⟨2000, 1500, false⟩ [⟨halfway, started⟩]).assembling = 1500 := by
  have hb : started.link.mBudget = some ⟨2000, 1500, false⟩ := by decide +kernel
  have hr := started_reachable
  rw [hb] at hr
  exact ⟨hb, (used_eq_assembling hr).1.1.symm⟩

end Shared

end NetLink.Channel
