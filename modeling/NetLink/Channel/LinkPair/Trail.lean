import NetLink.Channel.LinkPair.LaneMoves
import NetLink.Channel.ReliableLink.Guarantees

/-! What a link has read of a lane: the fragments it went through, one after another without a gap, and the
messages they make. The seq of an Ack does not go beyond them. -/

namespace NetLink.Channel

open Lib SequenceBuffer

namespace MessageAssembler

variable {budget : Option AssemblyBudget} {header : PacketHeader}

def read (made : MessageAssembler × List AssembledMessage) (q : Packet) :
    MessageAssembler × List AssembledMessage :=
  ((made.1.accept none q.header q.body).1, made.2 ++ (made.1.accept none q.header q.body).2.2.toList)

def assembled (fragments : List Packet) : MessageAssembler × List AssembledMessage :=
  fragments.foldl read ({}, [])

lemma assembled_concat (fragments : List Packet) (q : Packet) :
    assembled (fragments ++ [q]) = read (assembled fragments) q :=
  List.foldl_concat ..

lemma assembled_append_prefix (fragments more : List Packet) :
    (assembled fragments).2 <+: (assembled (fragments ++ more)).2 := by
  induction more using List.reverseRecOn with
  | nil => exact (List.append_nil fragments).symm ▸ List.prefix_rfl
  | append_singleton more q ih =>
    rw [← List.append_assoc, assembled_concat]
    exact ih.trans (List.prefix_append _ _)

lemma append_budget (a : MessageAssembler) (budget other : Option AssemblyBudget) (header : PacketHeader)
    (body : List UInt8) :
    (a.append budget header body).1 = (a.append other header body).1 ∧
      (a.append budget header body).2.2 = (a.append other header body).2.2 := by
  unfold append
  dsimp only
  generalize (if header.flags.isLastFragment = true then a.mTotalLength - a.mBody.length
    else MaxFragmentBody) = expected
  split
  · exact ⟨rfl, rfl⟩
  · split
    · exact ⟨rfl, rfl⟩
    · split <;> exact ⟨rfl, rfl⟩

lemma hasRoomFor_released (a : MessageAssembler) (hr : hasRoomFor budget header = true) :
    hasRoomFor (a.released budget) header = true := by
  unfold released
  split
  · cases budget with
    | none => exact hr
    | some b =>
      rw [Option.map_some, hasRoomFor, Bool.or_eq_true] at *
      refine hr.imp_right fun hf => ?_
      rw [AssemblyBudget.fits, decide_eq_true_eq] at *
      exact hf.trans (Nat.sub_le_sub_left (Nat.sub_le ..) _)
  · exact hr

-- A fragment the budget has room for is taken as if there were no budget.
lemma accept_budget (a : MessageAssembler) (body : List UInt8) (hr : hasRoomFor budget header = true) :
    (a.accept budget header body).1 = (a.accept none header body).1 ∧
      (a.accept budget header body).2.2 = (a.accept none header body).2.2 := by
  unfold accept
  split
  · exact ⟨rfl, rfl⟩
  · next hfrag =>
    split
    · next hindex =>
      split
      · exact ⟨rfl, rfl⟩
      · have hstarts : header.startsFragmentedMessage = true := by
          simpa [PacketHeader.startsFragmentedMessage, hindex] using hfrag
        have hroom := reserved_of_hasRoomFor hstarts (hasRoomFor_released a hr)
        have hnone : (reserved (a.released none) header.totalLength).1 = true :=
          reserved_of_hasRoomFor hstarts (hasRoomFor_released a rfl)
        generalize reserved (a.released budget) header.totalLength = r at hroom ⊢
        generalize reserved (a.released none) header.totalLength = r' at hnone ⊢
        obtain ⟨ok, left⟩ := r
        obtain ⟨ok', left'⟩ := r'
        obtain rfl : ok = true := hroom
        obtain rfl : ok' = true := hnone
        exact append_budget _ left left' header body
    · exact append_budget a budget none header body

end MessageAssembler

def Packet.Came (incoming : Packet → Prop) (lane : Lane) (q : Packet) : Prop :=
  incoming q ∧ q.header.flags.kind = .data ∧ q.header.flags.lane = lane

structure Trail (incoming : Packet → Prop) (lane : Lane) (v : LaneView) (fragments : List Packet) : Prop where
  came : ∀ q ∈ fragments, q.Came incoming lane
  numbered : fragments.map (·.header.seq) = List.range' 1 (v.stream.nextExpected - 1)
  assembler : v.stream.assembler = (MessageAssembler.assembled fragments).1
  made : v.out = (MessageAssembler.assembled fragments).2.map fun m => (m.tag, m.body)

structure Traced (incoming : Packet → Prop) (lane : Lane) (v : LaneView) : Prop where
  trail : ∃ fragments, Trail incoming lane v fragments
  held : ∀ seq x, v.stream.reorder.find seq = some x →
    ∃ q : Packet, q.Came incoming lane ∧ q.header = x.header ∧ q.body = x.body ∧ q.header.seq = seq

section Lane

variable {incoming : Packet → Prop} {lane : Lane} {f : Feed} {v w : LaneView} {window : ℕ} {s t : Stream}
  {fragments : List Packet} {q : Packet} {budget : Option AssemblyBudget} {ms : List AssembledMessage}
  {p : PacketHeader → List UInt8 → Prop}

lemma Trail.congr (h : Trail incoming lane v fragments) (hn : w.stream.nextExpected = v.stream.nextExpected)
    (ha : w.stream.assembler = v.stream.assembler) (ho : w.out = v.out) : Trail incoming lane w fragments :=
  ⟨h.came, hn ▸ h.numbered, ha.trans h.assembler, ho.trans h.made⟩

lemma Trail.accept (h : Trail incoming lane v fragments) (hpos : 1 ≤ v.stream.nextExpected)
    (hq : q.Came incoming lane) (hs : q.header.seq = v.stream.nextExpected)
    (hr : MessageAssembler.hasRoomFor budget q.header = true)
    (hn : w.stream.nextExpected = v.stream.nextExpected + 1)
    (ha : w.stream.assembler = (v.stream.assembler.accept budget q.header q.body).1)
    (ho : w.out = v.out ++
      (v.stream.assembler.accept budget q.header q.body).2.2.toList.map fun m => (m.tag, m.body)) :
    Trail incoming lane w (fragments ++ [q]) := by
  obtain ⟨hfirst, hsecond⟩ := MessageAssembler.accept_budget v.stream.assembler q.body hr
  refine ⟨fun x hx => ?_, ?_, ?_, ?_⟩
  · rcases List.mem_append.mp hx with hx | hx
    · exact h.came x hx
    · exact List.mem_singleton.mp hx ▸ hq
  · rw [List.map_append, h.numbered, hn, List.map_singleton, hs,
      show v.stream.nextExpected + 1 - 1 = v.stream.nextExpected - 1 + 1 by omega, List.range'_concat,
      show 1 + 1 * (v.stream.nextExpected - 1) = v.stream.nextExpected by omega]
  · rw [ha, hfirst, h.assembler, MessageAssembler.assembled_concat, MessageAssembler.read]
  · rw [ho, hsecond, h.made, h.assembler, MessageAssembler.assembled_concat, MessageAssembler.read,
      List.map_append]

lemma Traced.fresh : Traced incoming lane ⟨.new window, [], []⟩ where
  trail := ⟨[], by simp, rfl, rfl, rfl⟩
  held seq x h := by simp [Stream.new] at h

lemma Traced.recvMove (hi : RecvInv window v.stream)
    (hp : ∀ header body, p header body → ∃ q : Packet, q.Came incoming lane ∧ q.header = header ∧ q.body = body)
    (h : Traced incoming lane v) (hm : RecvMove p v.stream ms t) :
    Traced incoming lane { v with stream := t, out := v.out ++ ms.map fun m => (m.tag, m.body) } := by
  obtain ⟨fragments, htrail⟩ := h.trail
  cases hm with
  | refuse => exact ⟨⟨fragments, htrail.congr rfl rfl (List.append_nil _)⟩, h.held⟩
  | retry => exact ⟨⟨fragments, htrail.congr rfl rfl (List.append_nil _)⟩, h.held⟩
  | buffer header body hpk hlo hhi hn =>
    refine ⟨⟨fragments, htrail.congr rfl rfl (List.append_nil _)⟩, fun seq x hx => ?_⟩
    rw [find_insert hi.wf (hi.slot_free hlo.le hhi hn)] at hx
    split at hx
    · next hs =>
      obtain rfl := Option.some.inj hx
      obtain ⟨q, hq, hh, hb⟩ := hp header body hpk
      exact ⟨q, hq, hh, hb, hh ▸ hs.symm⟩
    · exact h.held seq x hx
  | accept header body budget hpk hs hn hr =>
    obtain ⟨q, hq, rfl, rfl⟩ := hp header body hpk
    exact ⟨⟨_, htrail.accept hi.pos hq hs hr rfl rfl rfl⟩, h.held⟩
  | drain header body budget hf hr =>
    obtain ⟨q, hq, rfl, rfl, hs⟩ := h.held _ _ hf
    refine ⟨⟨_, htrail.accept hi.pos hq hs hr rfl rfl rfl⟩, fun seq x hx => ?_⟩
    rw [find_erase hi.wf] at hx
    split at hx
    · simp at hx
    · exact h.held seq x hx

lemma Traced.congr (h : Traced incoming lane v) (hr : w.stream.reorder = v.stream.reorder)
    (hn : w.stream.nextExpected = v.stream.nextExpected) (ha : w.stream.assembler = v.stream.assembler)
    (ho : w.out = v.out) : Traced incoming lane w :=
  ⟨h.trail.imp fun _ ht => ht.congr hn ha ho, fun seq x hx => h.held seq x (hr ▸ hx)⟩

lemma Traced.move (hi : RecvInv window v.stream)
    (hp : ∀ header body, f.data lane header body →
      ∃ q : Packet, q.Came incoming lane ∧ q.header = header ∧ q.body = body)
    (h : Traced incoming lane v) (hm : LaneMove f lane v w) : Traced incoming lane w := by
  cases hm with
  | adjust t ha => exact h.congr ha.reorder ha.expected ha.assembler rfl
  | take m hs hc => exact h.congr rfl rfl rfl rfl
  | recv ms t hm => exact h.recvMove hi hp hm
  | transmit c t hc ht hn hf hr => exact h.congr hr.1 hr.2.1 hr.2.2 rfl
  | release seq e t ha ht hn hf hr => exact h.congr hr.1 hr.2.1 hr.2.2 rfl

lemma RecvMove.expected (hm : RecvMove p s ms t) :
    s.nextExpected ≤ t.nextExpected := by
  cases hm with
  | accept | drain => exact Nat.le_succ _
  | _ => exact le_rfl

end Lane

def LinkView.Covers (v : LinkView) : Prop :=
  ∀ q ∈ v.pending, q.header.flags.kind = .ack →
    q.header.seq ≤ (v.streams q.header.flags.lane).nextExpected - 1

lemma LinkMove.expected {f : Feed} {v w : LinkView} (hm : LinkMove f v w) (lane : Lane) :
    (v.streams lane).nextExpected ≤ (w.streams lane).nextExpected := by
  have hset : ∀ other s, (v.streams other).nextExpected ≤ s.nextExpected →
      (v.streams lane).nextExpected ≤ ((v.set other s).streams lane).nextExpected := by
    intro other s hle
    by_cases h : lane = other
    · subst h
      rwa [LinkView.streams_set]
    · simp only [LinkView.set, Function.update_of_ne h, le_refl]
  cases hm with
  | recv other ms t hk hl hm => exact hset other t hm.expected
  | takeMedia | deliverMedia | drop | queue | unqueue | fault => exact le_rfl
  | _ => exact hset _ _ le_rfl

lemma LinkView.Covers.move {f : Feed} {v w : LinkView} (h : v.Covers) (hm : LinkMove f v w) : w.Covers := by
  have hold : ∀ q ∈ v.pending, q.header.flags.kind = .ack →
      q.header.seq ≤ (w.streams q.header.flags.lane).nextExpected - 1 := fun q hq hk =>
    (h q hq hk).trans (Nat.sub_le_sub_right (hm.expected _) 1)
  cases hm with
  | queue packet hd ha hn =>
    intro q hq hk
    rcases List.mem_append.mp hq with hq | hq
    · exact hold q hq hk
    · obtain rfl := List.mem_singleton.mp hq
      exact hn hk
  | unqueue => exact fun q hq => hold q (List.mem_of_mem_tail hq)
  | _ => exact hold

lemma ReliableLink.pending_peekAck {l l' : ReliableLink} {ack : Packet} (h : l.peekAck = (some ack, l')) :
    l'.mFailed = false ∧ ack ∈ l'.mPendingAcks := by
  have hrun : LinkRun (Host.feed (fun _ _ => True) fun _ => True) (l.view { link := l }) (l.peekAck.2.view _) :=
    peekAck_run trivial
  have hfailed : l'.mFailed = l.mFailed := by
    rw [h] at hrun
    exact hrun.failed
  rw [peekAck] at h
  split at h
  · cases h
  · next hf =>
    obtain ⟨hack, hl⟩ := Prod.mk.inj h
    exact ⟨by simpa using hfailed.trans (by simpa using hf), hl ▸ List.mem_of_mem_head? hack⟩

namespace Host

variable {source : Lane → OutboundMessage → Prop} {incoming : Packet → Prop} {h : Host} {lane : Lane}

lemma traced (hr : (system source incoming).Reachable h) (hl : lane ≠ .media) (hf : h.link.mFailed = false) :
    Traced incoming lane (h.view.lane lane) := by
  refine hr.invariant (P := fun h => h.link.mFailed = false → Traced incoming lane (h.view.lane lane))
    (fun h hi _ => ?_) (fun h h' hr ih ht hf => ?_) hf
  · obtain ⟨timings, id, budget, rfl⟩ := hi
    exact .fresh
  · rcases run_of_step ht (sound hr).offers with hfails | hrun
    · rw [hfails] at hf
      simp [ReliableLink.fail] at hf
    · have hdata : ∀ header body, (feed source incoming).data lane header body →
          ∃ q : Packet, q.Came incoming lane ∧ q.header = header ∧ q.body = body := by
        rintro _ _ ⟨q, hq, hk, hlane, rfl, rfl⟩
        exact ⟨q, ⟨hq, hk, hlane⟩, rfl, rfl⟩
      exact (hrun.invariant (P := fun v => ViewInv v ∧ Traced incoming lane (v.lane lane))
        (fun v w hv hm => ⟨hv.1.move hm, hv.2.move (hv.1.recv lane) hdata (LinkView.lane_move hl hv.1 hm)⟩)
        ⟨(sound hr).view, ih (hrun.failed.symm.trans hf)⟩).2

lemma covers (hr : (system source incoming).Reachable h) : h.view.Covers := by
  refine hr.invariant (P := fun h => h.view.Covers) (fun h hi => ?_) fun h h' hr ih ht => ?_
  · obtain ⟨timings, id, budget, rfl⟩ := hi
    simp [LinkView.Covers, Host.view, ReliableLink.view, ReliableLink.new]
  · rcases run_of_step ht (sound hr).offers with hfails | hrun
    · rw [hfails]
      simp [LinkView.Covers, Host.view, ReliableLink.view, ReliableLink.fail, ReliableLink.resetStreams]
    · exact hrun.invariant (fun _ _ hv hm => hv.move hm) ih

lemma acknowledged (hr : (system source incoming).Reachable h) (hf : h.link.mFailed = false) {ack : Packet}
    (ha : ack ∈ h.link.mPendingAcks) (hk : ack.header.flags.kind = .ack) (hl : ack.header.flags.lane = lane)
    (hm : lane ≠ .media) {seq : ℕ} (hs : seq ≤ ack.header.seq) :
    ∃ fragments : List Packet, (∀ q ∈ fragments, q.Came incoming lane) ∧
      fragments.map (·.header.seq) = List.range' 1 seq ∧
      ((MessageAssembler.assembled fragments).2.map fun m => (m.tag, m.body)) <+:
        (h.delivered lane).map fun d => (d.tag, d.body) := by
  obtain ⟨fragments, htrail⟩ := (traced hr hm hf).trail
  have hle : seq ≤ (h.view.streams lane).nextExpected - 1 := hs.trans (hl ▸ covers hr ack ha hk)
  refine ⟨fragments.take seq, fun q hq => htrail.came q (List.mem_of_mem_take hq), ?_, ?_⟩
  · have hsplit := List.range'_append_1 (s := 1) (m := seq)
      (n := (h.view.streams lane).nextExpected - 1 - seq)
    rw [Nat.add_sub_of_le hle] at hsplit
    rw [List.map_take, htrail.numbered]
    exact hsplit ▸ List.take_left' List.length_range'
  · have hmade : (h.delivered lane).map (fun d => (d.tag, d.body)) =
        (MessageAssembler.assembled fragments).2.map fun m => (m.tag, m.body) := htrail.made
    have hpre := MessageAssembler.assembled_append_prefix (fragments.take seq) (fragments.drop seq)
    rw [List.take_append_drop] at hpre
    rw [hmade]
    exact hpre.map _

end Host

end NetLink.Channel
