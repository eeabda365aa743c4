import NetLink.Channel.LinkPair.LaneMoves

/-! The two ends of a lane: the sender numbers the fragments of the messages it took, the receiver reads
them in this order. -/

namespace NetLink.Channel

open Lib SequenceBuffer

def OutboundMessage.content (m : OutboundMessage) : UInt32 × List UInt8 := (m.tag, m.body)

structure SendContent (v : LaneView) : Prop where
  pos : 1 ≤ v.stream.nextSendSeq
  writes : ∃ done rest i, PieceAt messageFragments v.taken (v.stream.nextSendSeq - 1) done rest i ∧
    rest.length ≤ 1 ∧ v.stream.cursor = rest.head?.map fun m => { cursorFor m with next := i }
  content : ∀ seq e, (v.stream.inFlight.find seq).map InFlight.core = some e →
    (v.taken.flatMap messageFragments)[seq - 1]? = some e
  fit : ∀ m ∈ v.taken, m.body.length ≤ MaxMessagePayload

structure RecvContent (taken : List OutboundMessage) (v : LaneView) : Prop where
  reads : ∃ done rest i, PieceAt messageFragments taken (v.stream.nextExpected - 1) done rest i ∧
    v.out = done.map OutboundMessage.content ∧
    v.stream.assembler = (rest.head?.map fun m => assembling m i).getD {}
  held : ∀ seq b, v.stream.reorder.find seq = some b →
    ∃ e, (taken.flatMap messageFragments)[seq - 1]? = some e ∧ Carries e b.header b.body

variable {f : Feed} {lane : Lane} {v w : LaneView} {window : ℕ} {header : PacketHeader}

namespace SendContent

lemma fresh : SendContent ⟨.new window, [], []⟩ where
  pos := le_rfl
  writes := ⟨[], [], 0, .zero messageFragments_pos [], Nat.zero_le _, rfl⟩
  content seq e h := by simp [Stream.new] at h
  fit m hm := by simp at hm

lemma cursor_cases (h : SendContent v) :
    (v.stream.cursor = none ∧ ∃ done, PieceAt messageFragments v.taken (v.stream.nextSendSeq - 1) done [] 0) ∨
      ∃ done m i, v.stream.cursor = some { cursorFor m with next := i } ∧
        PieceAt messageFragments v.taken (v.stream.nextSendSeq - 1) done [m] i := by
  obtain ⟨done, rest, i, hp, hl, hc⟩ := h.writes
  rcases rest with _ | ⟨m, _ | ⟨m', rest⟩⟩
  · have h0 := hp.nil rfl
    subst h0
    exact .inl ⟨hc, done, hp⟩
  · exact .inr ⟨done, m, i, hc, hp⟩
  · simp at hl

lemma next_fragment (h : SendContent v) {c : FragmentCursor} (hc : v.stream.cursor = some c) :
    (v.taken.flatMap messageFragments)[v.stream.nextSendSeq - 1]? = some (fragmentAt c) := by
  rcases h.cursor_cases with ⟨hn, -⟩ | ⟨done, m, i, hc', hp⟩
  · simp [hc] at hn
  · rw [hc, Option.some.injEq] at hc'
    rw [hp.getElem?, getElem?_messageFragments hp.lt_length, hc']

lemma move (hs : ∀ m, f.source lane m → m.body.length ≤ MaxMessagePayload) (h : SendContent v)
    (hm : LaneMove f lane v w) : SendContent w := by
  cases hm with
  | adjust t ha =>
    refine ⟨ha.next ▸ h.pos, ?_, fun seq e he => h.content seq e (ha.inFlight seq ▸ he), h.fit⟩
    simpa only [ha.next, ha.cursor] using h.writes
  | take m hsm hc =>
    refine ⟨h.pos, ?_, fun seq e he => getElem?_flatMap_append (h.content seq e he), fun m' hm' => ?_⟩
    · rcases h.cursor_cases with ⟨-, done, hp⟩ | ⟨done, m', i, hc', -⟩
      · exact ⟨done, [m], 0, hp.append_nil messageFragments_pos [m], le_rfl, rfl⟩
      · simp [hc] at hc'
    · rcases List.mem_append.mp hm' with hm' | hm'
      · exact h.fit m' hm'
      · exact List.mem_singleton.mp hm' ▸ hs m hsm
  | recv ms t hm =>
    have ht : t.cursor = v.stream.cursor ∧ t.nextSendSeq = v.stream.nextSendSeq ∧
      t.inFlight = v.stream.inFlight := by
      cases hm <;> exact ⟨rfl, rfl, rfl⟩
    refine ⟨ht.2.1 ▸ h.pos, ?_, fun seq e he => h.content seq e (ht.2.2 ▸ he), h.fit⟩
    simpa only [ht.2.1, ht.1] using h.writes
  | transmit c t hc ht hn hf hr =>
    have hpos := h.pos
    refine ⟨by simp only; omega, ?_, fun seq e he => ?_, h.fit⟩
    · rcases h.cursor_cases with ⟨hnone, -⟩ | ⟨done, m, i, hc', hp⟩
      · simp [hc] at hnone
      · rw [hc, Option.some.injEq] at hc'
        have hseq : t.nextSendSeq - 1 = v.stream.nextSendSeq - 1 + 1 := by omega
        simp only [hseq, ht, hc', FragmentCursor.advance]
        by_cases hi : i + 1 < (messageFragments m).length
        · refine ⟨done, [m], i + 1, hp.next hi, le_rfl, ?_⟩
          rw [length_messageFragments] at hi
          rw [if_neg (by simp [cursorFor, hi])]
          rfl
        · refine ⟨done ++ [m], [], 0, hp.finish messageFragments_pos hi, Nat.zero_le _, ?_⟩
          rw [length_messageFragments] at hi
          rw [if_pos (by simpa [cursorFor] using hi)]
          rfl
    · simp only at he
      rw [hf] at he
      split at he
      · next hseq =>
        rw [hseq, h.next_fragment hc, he]
      · exact h.content seq e he
  | release seq e t ha ht hn hf hr =>
    refine ⟨by simpa only [hn] using h.pos, ?_, fun other e' he => ?_, h.fit⟩
    · simpa only [hn, ht] using h.writes
    · simp only at he
      rw [hf] at he
      split at he
      · simp at he
      · exact h.content other e' he

end SendContent

def Genuine (taken : List OutboundMessage) (header : PacketHeader) (body : List UInt8) : Prop :=
  ∃ e, (taken.flatMap messageFragments)[header.seq - 1]? = some e ∧ Carries e header body

lemma Genuine.append {taken : List OutboundMessage} {body : List UInt8}
    (h : Genuine taken header body) (more : List OutboundMessage) : Genuine (taken ++ more) header body := by
  obtain ⟨e, he, hc⟩ := h
  exact ⟨e, getElem?_flatMap_append he, hc⟩

namespace RecvContent

variable {taken : List OutboundMessage}

lemma fresh : RecvContent taken ⟨.new window, [], []⟩ where
  reads := ⟨[], taken, 0, .zero messageFragments_pos taken, rfl, by cases taken <;> rfl⟩
  held seq b h := by simp [Stream.new] at h

lemma append (h : RecvContent taken v) (more : List OutboundMessage) : RecvContent (taken ++ more) v where
  reads := by
    obtain ⟨done, rest, i, hp, ho, ha⟩ := h.reads
    cases rest with
    | nil =>
      refine ⟨done, more, 0, hp.append_nil messageFragments_pos more, ho, ha.trans ?_⟩
      cases more <;> rfl
    | cons m rest => exact ⟨done, m :: (rest ++ more), i, hp.append_cons more, ho, ha⟩
  held seq b hb := by
    obtain ⟨e, he, hc⟩ := h.held seq b hb
    exact ⟨e, getElem?_flatMap_append he, hc⟩

lemma accept (hfit : ∀ m ∈ taken, m.body.length ≤ MaxMessagePayload) (h : RecvContent taken v)
    (hpos : 1 ≤ v.stream.nextExpected) {body : List UInt8} {budget : Option AssemblyBudget}
    {e : InFlight} (he : (taken.flatMap messageFragments)[v.stream.nextExpected - 1]? = some e)
    (hc : Carries e header body) (hr : MessageAssembler.hasRoomFor budget header = true) :
    ∃ done rest i, PieceAt messageFragments taken (v.stream.nextExpected + 1 - 1) done rest i ∧
      v.out ++ (v.stream.assembler.accept budget header body).2.2.toList.map (fun m => (m.tag, m.body)) =
        done.map OutboundMessage.content ∧
      (v.stream.assembler.accept budget header body).1 = (rest.head?.map fun m => assembling m i).getD {} := by
  obtain ⟨done, rest, i, hp, ho, ha⟩ := h.reads
  have hseq : v.stream.nextExpected + 1 - 1 = v.stream.nextExpected - 1 + 1 := by omega
  cases rest with
  | nil => simp [hp.getElem?_nil] at he
  | cons m rest =>
    rw [hp.getElem?, getElem?_messageFragments hp.lt_length, Option.some.injEq] at he
    subst he
    have hm : m ∈ taken := by simp [hp.split]
    have hi := hp.lt_length
    have hacc := accept_assembling (hfit m hm) (length_messageFragments m ▸ hi) hc hr
    rw [ha, hseq, ho]
    simp only [List.head?_cons, Option.map_some, Option.getD_some, hacc.1, hacc.2]
    rw [← length_messageFragments]
    by_cases hn : i + 1 < (messageFragments m).length
    · rw [if_pos hn, if_pos hn]
      exact ⟨done, m :: rest, i + 1, hp.next hn, List.append_nil _, rfl⟩
    · rw [if_neg hn, if_neg hn]
      refine ⟨done ++ [m], rest, 0, hp.finish messageFragments_pos hn, by simp [OutboundMessage.content], ?_⟩
      cases rest <;> rfl

lemma recvMove {p : PacketHeader → List UInt8 → Prop} {ms : List AssembledMessage} {t : Stream}
    (hfit : ∀ m ∈ taken, m.body.length ≤ MaxMessagePayload) (hi : RecvInv window v.stream)
    (hp : ∀ header body, p header body → Genuine taken header body) (h : RecvContent taken v)
    (hm : RecvMove p v.stream ms t) :
    RecvContent taken { v with stream := t, out := v.out ++ ms.map fun m => (m.tag, m.body) } := by
  cases hm with
  | refuse => exact ⟨by simpa using h.reads, h.held⟩
  | retry => exact ⟨by simpa using h.reads, h.held⟩
  | buffer header body hpk hlo hhi hn =>
    refine ⟨by simpa using h.reads, fun seq b hb => ?_⟩
    rw [find_insert hi.wf (hi.slot_free hlo.le hhi hn)] at hb
    split at hb
    · next hs =>
      obtain rfl := Option.some.inj hb
      exact hs ▸ hp header body hpk
    · exact h.held seq b hb
  | accept header body budget hpk hs hn hr =>
    obtain ⟨e, he, hc⟩ := hp header body hpk
    rw [hs] at he
    exact ⟨h.accept hfit hi.pos he hc hr, h.held⟩
  | drain header body budget hf hr =>
    obtain ⟨e, he, hc⟩ := h.held _ _ hf
    refine ⟨h.accept hfit hi.pos he hc hr, fun seq b hb => ?_⟩
    rw [find_erase hi.wf] at hb
    split at hb
    · simp at hb
    · exact h.held seq b hb

lemma move (hfit : ∀ m ∈ taken, m.body.length ≤ MaxMessagePayload) (hi : RecvInv window v.stream)
    (hp : ∀ header body, f.data lane header body → Genuine taken header body) (h : RecvContent taken v)
    (hm : LaneMove f lane v w) : RecvContent taken w := by
  cases hm with
  | adjust t ha =>
    refine ⟨?_, fun seq b hb => h.held seq b (ha.reorder ▸ hb)⟩
    simpa only [ha.expected, ha.assembler] using h.reads
  | take m hs hc => exact ⟨h.reads, h.held⟩
  | recv ms t hm => exact h.recvMove hfit hi hp hm
  | transmit c t hc ht hn hf hr =>
    refine ⟨?_, fun seq b hb => h.held seq b (hr.1 ▸ hb)⟩
    simpa only [hr.2.1, hr.2.2] using h.reads
  | release seq e t ha ht hn hf hr =>
    refine ⟨?_, fun seq b hb => h.held seq b (hr.1 ▸ hb)⟩
    simpa only [hr.2.1, hr.2.2] using h.reads

end RecvContent

end NetLink.Channel
