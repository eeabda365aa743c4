import Mathlib.Data.List.Sort
import NetLink.Channel.Packet

/-! What an Ack tells besides the seq in its header: the seqs that wait behind a gap, as ranges. -/

namespace NetLink.Channel

def AckFieldsSize : ℕ := 8
def SeqRangeSize : ℕ := 10

structure SeqRange where
  first : ℕ
  count : ℕ
  deriving DecidableEq, Repr

def SeqRange.last (r : SeqRange) : ℕ := r.first + r.count - 1

structure AckBody where
  serial : ℕ := 0
  mediaReceived : ℕ := 0
  ranges : List SeqRange := []
  deriving DecidableEq, Repr

def MaxAckRanges : ℕ := (MaxDatagramSize - BaseHeaderSize - AckFieldsSize) / SeqRangeSize

def addSeq (ranges : List SeqRange) (seq : ℕ) : List SeqRange :=
  match ranges.getLast? with
  | none => [⟨seq, 1⟩]
  | some back =>
    if seq ≤ back.last then ranges
    else if seq = back.last + 1 ∧ back.count < 65535 then
      ranges.dropLast ++ [{ back with count := back.count + 1 }]
    else ranges ++ [⟨seq, 1⟩]

def toRanges (seqs : List ℕ) : List SeqRange :=
  (seqs.insertionSort (· ≤ ·)).foldl addSeq []

def Covers (seen : ℕ → Prop) (ranges : List SeqRange) : Prop :=
  ∀ r ∈ ranges, 1 ≤ r.count ∧ ∀ seq, r.first ≤ seq → seq ≤ r.last → seen seq

lemma Covers.append_single {seen : ℕ → Prop} {ranges : List SeqRange} {seq : ℕ} (h : Covers seen ranges)
    (hs : seen seq) : Covers seen (ranges ++ [⟨seq, 1⟩]) := by
  intro r hr
  rw [List.mem_append, List.mem_singleton] at hr
  rcases hr with hr | rfl
  · exact h r hr
  · refine ⟨le_rfl, fun x hlo hhi => ?_⟩
    simp only [SeqRange.last] at hlo hhi
    obtain rfl : x = seq := by omega
    exact hs

lemma Covers.addSeq {seen : ℕ → Prop} {ranges : List SeqRange} {seq : ℕ} (h : Covers seen ranges) (hs : seen seq) :
    Covers seen (addSeq ranges seq) := by
  unfold Channel.addSeq
  split
  · have hnil : Covers seen [] := by simp [Covers]
    exact hnil.append_single hs
  · next back hb =>
    have hback := h back (List.mem_of_getLast? hb)
    split
    · exact h
    split
    · next hc =>
      intro r hr
      rw [List.mem_append, List.mem_singleton] at hr
      rcases hr with hr | rfl
      · exact h r (List.dropLast_subset _ hr)
      · refine ⟨by simp, fun x hlo hhi => ?_⟩
        simp only [SeqRange.last] at hlo hhi hc hback
        by_cases hx : x = seq
        · exact hx ▸ hs
        · exact hback.2 x hlo (by omega)
    · exact h.append_single hs

lemma covers_toRanges (seqs : List ℕ) : Covers (· ∈ seqs) (toRanges seqs) := by
  have hfold : ∀ (l : List ℕ) (ranges : List SeqRange), (∀ seq ∈ l, seq ∈ seqs) → Covers (· ∈ seqs) ranges →
      Covers (· ∈ seqs) (l.foldl addSeq ranges) := by
    intro l
    induction l with
    | nil => exact fun _ _ h => h
    | cons seq l ih =>
      exact fun ranges hl h => ih _ (fun x hx => hl x (List.mem_cons_of_mem _ hx))
        (h.addSeq (hl seq (List.mem_cons_self ..)))
  exact hfold _ [] (fun seq hs => (List.perm_insertionSort _ seqs).mem_iff.mp hs) (by simp [Covers])

/-- A datagram of a link: its header as it is on the wire, its body, and what `decodeAck` makes of the
body of an Ack. -/
structure Packet where
  header : PacketHeader
  body : List UInt8 := []
  ack : Option AckBody := none
  deriving DecidableEq, Repr

def makeDatagram (header : PacketHeader) (body : List UInt8) : Packet :=
  { header := header.onWire, body := body }

end NetLink.Channel
