import NetLink.Channel.Assembly
import NetLink.Channel.ReliableLink.Guarantees
import NetLink.Lib.Pieces

/-! The fragments of a message on the way: what the sender puts on the wire, and what the assembler of the
receiver makes of it. -/

namespace NetLink.Channel

open Lib

def messageFragments (m : OutboundMessage) : List InFlight :=
  (List.range (fragmentsOf m.body.length)).map fun i => fragmentAt { cursorFor m with next := i }

section Counting

@[simp] lemma length_messageFragments (m : OutboundMessage) :
    (messageFragments m).length = fragmentsOf m.body.length := by
  simp [messageFragments]

lemma messageFragments_pos (m : OutboundMessage) : 0 < (messageFragments m).length := by
  rw [length_messageFragments]
  exact fragmentsOf_pos _

lemma getElem?_messageFragments {m : OutboundMessage} {i : ℕ} (hi : i < (messageFragments m).length) :
    (messageFragments m)[i]? = some (fragmentAt { cursorFor m with next := i }) := by
  rw [length_messageFragments] at hi
  simp [messageFragments, hi]

end Counting

structure Carries (e : InFlight) (header : PacketHeader) (body : List UInt8) : Prop where
  fragmented : header.flags.isFragmented = decide (1 < e.fragCount)
  last : 1 < e.fragCount → header.flags.isLastFragment = (e.fragIndex + 1 == e.fragCount)
  index : 1 < e.fragCount → header.fragIndex = e.fragIndex
  count : 1 < e.fragCount → header.fragCount = e.fragCount
  tag : e.fragCount ≤ 1 ∨ e.fragIndex = 0 → header.tag = e.tag
  total : 1 < e.fragCount → e.fragIndex = 0 → header.totalLength = e.totalLength
  body : body = e.bytes

lemma flags_headerOf (l : ReliableLink) (lane : Lane) (seq : ℕ) (e : InFlight) :
    (l.headerOf lane seq e).flags =
      if e.fragCount > 1 then (PacketFlags.data lane).setFragment true (e.fragIndex + 1 == e.fragCount)
      else .data lane := by
  unfold ReliableLink.headerOf
  dsimp only
  split <;> rfl

lemma carries_makeDatagram (l : ReliableLink) (lane : Lane) (seq : ℕ) (e : InFlight) :
    Carries e (makeDatagram (l.headerOf lane seq e) e.bytes).header
      (makeDatagram (l.headerOf lane seq e) e.bytes).body := by
  by_cases hc : e.fragCount > 1
  · have hk : ¬e.fragCount ≤ 1 := by omega
    constructor <;> simp [makeDatagram, PacketHeader.onWire, ReliableLink.headerOf, ReliableLink.makeHeader,
      PacketHeader.startsMessage, PacketHeader.startsFragmentedMessage, hc, hk]
    · exact fun h0 hn => absurd h0 hn
    · exact fun h0 hn => absurd h0 hn
  · have hk : e.fragCount ≤ 1 := by omega
    constructor <;> simp [makeDatagram, PacketHeader.onWire, ReliableLink.headerOf, ReliableLink.makeHeader,
      PacketHeader.startsMessage, PacketHeader.startsFragmentedMessage, hc, hk]

def midway (m : OutboundMessage) (i : ℕ) : MessageAssembler where
  mAssembling := true
  mFragCount := fragmentsOf m.body.length
  mNextIndex := i
  mTag := m.tag
  mTotalLength := m.body.length
  mBody := m.body.take (i * MaxFragmentBody)

def assembling (m : OutboundMessage) (i : ℕ) : MessageAssembler := if i = 0 then {} else midway m i

section Assembling

variable {m : OutboundMessage} {i : ℕ} {header : PacketHeader} {body : List UInt8} {budget : Option AssemblyBudget}
  {a : MessageAssembler}

lemma fragmentAt_cursor (hl : m.body.length ≤ MaxMessagePayload) (hi : i < fragmentsOf m.body.length) :
    fragmentAt { cursorFor m with next := i } =
      { message := m.body, offset := i * MaxFragmentBody,
        length := min MaxFragmentBody (m.body.length - i * MaxFragmentBody), tag := m.tag,
        totalLength := m.body.length, fragIndex := i, fragCount := fragmentsOf m.body.length } := by
  have hc := fragmentsOf_lt hl
  have ho : i * MaxFragmentBody ≤ m.body.length := by
    rcases Nat.eq_zero_or_pos i with rfl | hp
    · omega
    · exact (mul_lt_of_lt_fragmentsOf hi hp).le
  have hm : MaxMessagePayload < 2 ^ 32 := by decide
  simp only [fragmentAt, cursorFor, InFlight.mk.injEq, true_and, and_true]
  refine ⟨Nat.mod_eq_of_lt ?_, Nat.mod_eq_of_lt ?_, Nat.mod_eq_of_lt ?_, Nat.mod_eq_of_lt ?_,
    Nat.mod_eq_of_lt ?_⟩ <;>
    omega

lemma length_bytes (hl : m.body.length ≤ MaxMessagePayload) (hi : i < fragmentsOf m.body.length) :
    (fragmentAt { cursorFor m with next := i }).bytes.length =
      min MaxFragmentBody (m.body.length - i * MaxFragmentBody) := by
  rw [fragmentAt_cursor hl hi]
  simp [InFlight.bytes]

lemma take_append_bytes (hl : m.body.length ≤ MaxMessagePayload) (hi : i < fragmentsOf m.body.length) :
    m.body.take (i * MaxFragmentBody) ++ (fragmentAt { cursorFor m with next := i }).bytes =
      m.body.take ((i + 1) * MaxFragmentBody) := by
  rw [fragmentAt_cursor hl hi, InFlight.bytes]
  dsimp only
  rw [Nat.add_mul, Nat.one_mul, List.take_add]
  congr 1
  rw [List.take_eq_take_iff, List.length_drop]
  omega

lemma take_fragmentsOf (m : OutboundMessage) :
    m.body.take (fragmentsOf m.body.length * MaxFragmentBody) = m.body :=
  List.take_of_length_le (le_fragmentsOf_mul _)

lemma mul_le_length (hi : i < fragmentsOf m.body.length) : i * MaxFragmentBody ≤ m.body.length := by
  rcases Nat.eq_zero_or_pos i with rfl | hp
  · omega
  · exact (mul_lt_of_lt_fragmentsOf hi hp).le

lemma length_fragment (hi : i < fragmentsOf m.body.length) :
    min MaxFragmentBody (m.body.length - i * MaxFragmentBody) =
      if i + 1 == fragmentsOf m.body.length then
        (midway m i).mTotalLength - (midway m i).mBody.length
      else MaxFragmentBody := by
  have hsize := le_fragmentsOf_mul m.body.length
  have hfit := mul_le_length hi
  simp only [midway, List.length_take, beq_iff_eq]
  split
  · next hn =>
    rw [← hn, Nat.add_mul] at hsize
    omega
  · have hmore := mul_lt_of_lt_fragmentsOf (n := m.body.length) (i := i + 1) (by omega) (Nat.succ_pos i)
    rw [Nat.add_mul] at hmore
    omega

lemma append_midway (hl : m.body.length ≤ MaxMessagePayload) (hi : i < fragmentsOf m.body.length)
    (hc : Carries (fragmentAt { cursorFor m with next := i }) header body) (hf : 1 < fragmentsOf m.body.length) :
    ((midway m i).append budget header body).1 =
        (if i + 1 < fragmentsOf m.body.length then assembling m (i + 1) else {}) ∧
      ((midway m i).append budget header body).2.2 =
        (if i + 1 < fragmentsOf m.body.length then none else some ⟨m.tag, m.body⟩) := by
  have hlen := length_bytes hl hi
  have htake := take_append_bytes hl hi
  rw [← hc.body] at hlen htake
  rw [fragmentAt_cursor hl hi] at hc
  have hcount : header.fragCount = fragmentsOf m.body.length := hc.count hf
  have hindex : header.fragIndex = i := hc.index hf
  have hlast : header.flags.isLastFragment = (i + 1 == fragmentsOf m.body.length) := hc.last hf
  rw [length_fragment hi, ← hlast] at hlen
  unfold MessageAssembler.append
  dsimp only
  rw [if_neg (by simp [midway, hcount, hindex]), if_neg (by simp [← hlen])]
  by_cases hn : i + 1 < fragmentsOf m.body.length
  · simp [midway, assembling, hn, htake]
  · have he : i + 1 = fragmentsOf m.body.length := by omega
    rw [he, take_fragmentsOf] at htake
    simp [midway, he, htake]

lemma reserved_of_hasRoomFor (hs : header.startsFragmentedMessage = true)
    (hr : MessageAssembler.hasRoomFor budget header = true) :
    (MessageAssembler.reserved budget header.totalLength).1 = true := by
  cases budget with
  | none => rfl
  | some b =>
    have hfits : b.fits header.totalLength = true := by simpa [MessageAssembler.hasRoomFor, hs] using hr
    simp [MessageAssembler.reserved, AssemblyBudget.reserve, hfits]

lemma accept_first (hl : m.body.length ≤ MaxMessagePayload)
    (hc : Carries (fragmentAt { cursorFor m with next := 0 }) header body) (hf : 1 < fragmentsOf m.body.length)
    (hr : MessageAssembler.hasRoomFor (a.released budget) header = true) :
    ∃ budget', a.accept budget header body = (midway m 0).append budget' header body := by
  have hi := fragmentsOf_pos m.body.length
  rw [fragmentAt_cursor hl hi] at hc
  have hfrag : header.flags.isFragmented = true := by simpa [hf] using hc.fragmented
  have hindex : header.fragIndex = 0 := hc.index hf
  have hcount : header.fragCount = fragmentsOf m.body.length := hc.count hf
  have htotal : header.totalLength = m.body.length := hc.total hf rfl
  have htag : header.tag = m.tag := hc.tag (.inr rfl)
  have hres := reserved_of_hasRoomFor (by simp [PacketHeader.startsFragmentedMessage, hfrag, hindex]) hr
  rw [htotal] at hres
  rcases hb : MessageAssembler.reserved (a.released budget) m.body.length with ⟨room, budget'⟩
  rw [hb] at hres
  obtain rfl : room = true := hres
  have hstart : midway m 0 = ⟨true, fragmentsOf m.body.length, 0, m.tag, m.body.length, []⟩ := by simp [midway]
  refine ⟨budget', ?_⟩
  rw [hstart]
  unfold MessageAssembler.accept
  rw [if_neg (by simp [hfrag]), if_pos hindex, if_neg (by simp [htotal, hcount, hl]), hcount, htotal, htag, hb]

lemma Carries.whole (hc : Carries (fragmentAt { cursorFor m with next := 0 }) header body)
    (hl : m.body.length ≤ MaxMessagePayload) (hf : ¬1 < fragmentsOf m.body.length) :
    header.flags.isFragmented = false ∧ header.tag = m.tag ∧ body = m.body := by
  have hi := fragmentsOf_pos m.body.length
  have htake := take_append_bytes hl hi
  have hsize := le_fragmentsOf_mul m.body.length
  rw [← hc.body, Nat.zero_mul, List.take_zero, List.nil_append, List.take_of_length_le] at htake
  · rw [fragmentAt_cursor hl hi] at hc
    exact ⟨hc.fragmented.trans (decide_eq_false hf), hc.tag (.inr rfl), htake⟩
  · exact hsize.trans (Nat.mul_le_mul_right _ (by omega))

lemma accept_next (budget : Option AssemblyBudget) (hl : m.body.length ≤ MaxMessagePayload)
    (hi : i < fragmentsOf m.body.length) (hc : Carries (fragmentAt { cursorFor m with next := i }) header body)
    (ha : 0 < i → a = midway m i)
    (hr : i = 0 → MessageAssembler.hasRoomFor (a.released budget) header = true) :
    (a.accept budget header body).1 = (if i + 1 < fragmentsOf m.body.length then assembling m (i + 1) else {}) ∧
      (a.accept budget header body).2.2 =
        (if i + 1 < fragmentsOf m.body.length then none else some ⟨m.tag, m.body⟩) := by
  have hc' := hc
  rw [fragmentAt_cursor hl hi] at hc'
  have hfrag : header.flags.isFragmented = decide (1 < fragmentsOf m.body.length) := hc'.fragmented
  by_cases hf : 1 < fragmentsOf m.body.length
  · have hindex : header.fragIndex = i := hc'.index hf
    rcases Nat.eq_zero_or_pos i with rfl | hp
    · obtain ⟨budget', he⟩ := accept_first hl hc hf (hr rfl)
      rw [he]
      exact append_midway hl hi hc hf
    · rw [ha hp]
      unfold MessageAssembler.accept
      rw [if_neg (by simp [hfrag, hf]), if_neg (by omega)]
      exact append_midway hl hi hc hf
  · obtain rfl : i = 0 := by omega
    obtain ⟨hnone, htag, hbody⟩ := hc.whole hl hf
    unfold MessageAssembler.accept
    rw [if_pos (by simp [hnone]), htag, hbody, if_neg (by omega), if_neg (by omega)]
    exact ⟨rfl, rfl⟩

lemma accept_assembling (hl : m.body.length ≤ MaxMessagePayload) (hi : i < fragmentsOf m.body.length)
    (hc : Carries (fragmentAt { cursorFor m with next := i }) header body)
    (hr : MessageAssembler.hasRoomFor budget header = true) :
    ((assembling m i).accept budget header body).1 =
        (if i + 1 < fragmentsOf m.body.length then assembling m (i + 1) else {}) ∧
      ((assembling m i).accept budget header body).2.2 =
        (if i + 1 < fragmentsOf m.body.length then none else some ⟨m.tag, m.body⟩) := by
  refine accept_next budget hl hi hc (fun hp => if_neg (by omega)) fun h0 => ?_
  rw [assembling, if_pos h0]
  exact hr

end Assembling

end NetLink.Channel
