import Mathlib.Data.List.Count
import NetLink.Channel.ReliableLink.Host

/-! The send side of a stream: its window, and where each unacknowledged packet is waiting. -/

namespace NetLink.Channel

open SequenceBuffer

namespace Stream

def retransmitted (s : Stream) (seq : ℕ) (rest : List ℕ) (e : InFlight) (now : TimePoint) (n : ℕ) : Stream :=
  { s with
    lost := rest
    inFlight := s.inFlight.assign seq (e.transmitted now n)
    onTheWire := s.onTheWire + 1 }

def transmitted (s : Stream) (c : FragmentCursor) (now : TimePoint) (n : ℕ) : Stream :=
  { s with
    nextSendSeq := s.nextSendSeq + 1
    cursor := c.advance
    inFlight := (s.inFlight.insert s.nextSendSeq (fragmentAt c)).assign s.nextSendSeq
      ((fragmentAt c).transmitted now n)
    onTheWire := s.onTheWire + 1 }

end Stream

def liveCount (b : SequenceBuffer InFlight) : ℕ := (b.entries.filter fun p => !p.2.lost).length

section Counting

variable {b : SequenceBuffer InFlight} {seq : ℕ} {e f : InFlight}

lemma liveCount_erase (h : b.WF) (hf : b.find seq = some e) :
    liveCount b = liveCount (b.erase seq) + if e.lost then 0 else 1 := by
  have hp := ((entries_erase h hf).filter fun p => !p.2.lost).length_eq
  cases he : e.lost <;> simp [liveCount, hp, he]

lemma liveCount_assign (h : b.WF) (hf : b.find seq = some e) :
    liveCount (b.assign seq f) = liveCount (b.erase seq) + if f.lost then 0 else 1 := by
  have hp := ((entries_assign (w := f) h hf).filter fun p => !p.2.lost).length_eq
  cases he : f.lost <;> simp [liveCount, hp, he]

lemma liveCount_insert (h : b.WF) (hfree : b.slot seq = none) :
    liveCount (b.insert seq e) = liveCount b + if e.lost then 0 else 1 := by
  have hp := ((entries_insert (v := e) h hfree).filter fun p => !p.2.lost).length_eq
  cases he : e.lost <;> simp [liveCount, hp, he]

lemma count_dropWhile {p : ℕ → Bool} (hp : p seq = false) (l : List ℕ) :
    (l.dropWhile p).count seq = l.count seq := by
  induction l with
  | nil => rfl
  | cons x l ih =>
    by_cases hx : p x
    · have hne : x ≠ seq := by
        rintro rfl
        simp [hp] at hx
      simp [hx, ih, List.count_cons_of_ne hne]
    · simp [hx]

end Counting

structure SendInv (window : ℕ) (sent : List SentRecord) (lane : Lane) (s : Stream) : Prop where
  wf : s.inFlight.WF
  cap : s.inFlight.capacity = window
  replaced : s.inFlight.replaced = 0
  base_pos : 1 ≤ s.sendBase
  base_le : s.sendBase ≤ s.nextSendSeq
  le_window : s.nextSendSeq ≤ s.sendBase + window
  key : ∀ seq, s.inFlight.contains seq → s.sendBase ≤ seq ∧ seq < s.nextSendSeq
  lost_once : ∀ seq e, s.inFlight.find seq = some e → s.lost.count seq = if e.lost then 1 else 0
  lost_lt : ∀ seq ∈ s.lost, seq < s.nextSendSeq
  live : ∀ seq e, s.inFlight.find seq = some e → e.lost = false → ⟨e.transmission, seq, lane⟩ ∈ sent
  wire : s.onTheWire = liveCount s.inFlight

namespace SendInv

variable {window : ℕ} {sent : List SentRecord} {lane : Lane} {s : Stream} {now : TimePoint}

lemma new (k : ℕ) (sent : List SentRecord) (lane : Lane) : SendInv (2 ^ k) sent lane (.new (2 ^ k)) where
  wf := wf_new k
  cap := by simp [Stream.new]
  replaced := rfl
  base_pos := le_rfl
  base_le := le_rfl
  le_window := by simp [Stream.new]
  key seq h := by simp [Stream.new, contains] at h
  lost_once seq e h := by simp [Stream.new] at h
  lost_lt seq h := by simp [Stream.new] at h
  live seq e h := by simp [Stream.new] at h
  wire := by simp [Stream.new, liveCount]

lemma mono {sent' : List SentRecord} (h : SendInv window sent lane s)
    (hs : ∀ seq e, s.inFlight.find seq = some e → e.lost = false →
      (⟨e.transmission, seq, lane⟩ : SentRecord) ∈ sent → ⟨e.transmission, seq, lane⟩ ∈ sent') :
    SendInv window sent' lane s :=
  { h with live := fun seq e hf hl => hs seq e hf hl (h.live seq e hf hl) }

lemma nextLost (h : SendInv window sent lane s) : SendInv window sent lane s.nextLost.2 where
  wf := h.wf
  cap := h.cap
  replaced := h.replaced
  base_pos := h.base_pos
  base_le := h.base_le
  le_window := h.le_window
  key := h.key
  lost_once seq e hf := by
    change s.inFlight.find seq = some e at hf
    rw [← h.lost_once seq e hf]
    cases hl : e.lost with
    | true => exact count_dropWhile (by simp [hf, hl]) _
    | false =>
      have hc := h.lost_once seq e hf
      rw [hl] at hc
      have hz : seq ∉ s.lost := List.count_eq_zero.mp (by simpa using hc)
      rw [List.count_eq_zero.mpr hz, List.count_eq_zero]
      exact fun hm => hz ((List.dropWhile_suffix _).subset hm)
  lost_lt seq hm := h.lost_lt seq ((List.dropWhile_suffix _).subset hm)
  live := h.live
  wire := h.wire

lemma nextLost_some {seq : ℕ} {e : InFlight} (h : s.nextLost.1 = some (seq, e)) :
    s.nextLost.2.lost = seq :: s.nextLost.2.lost.tail ∧ s.inFlight.find seq = some e ∧ e.lost = true := by
  simp only [Stream.nextLost] at h ⊢
  generalize hd : s.lost.dropWhile (fun seq => !(s.inFlight.find seq).any (·.lost)) = lost at h ⊢
  rcases lost with _ | ⟨x, rest⟩
  · simp at h
  · have hx := List.head?_dropWhile_not (fun seq => !(s.inFlight.find seq).any (·.lost)) s.lost
    rw [hd] at hx
    simp only [List.head?_cons, Option.bind_some, Option.map_eq_some_iff, Prod.mk.injEq] at h
    obtain ⟨e', he', rfl, rfl⟩ := h
    simp only [List.head?_cons, he', Option.any_some, Bool.not_eq_false'] at hx
    exact ⟨by rw [List.tail_cons], he', hx⟩

lemma retransmit {seq n : ℕ} {e : InFlight} {rest : List ℕ} (h : SendInv window sent lane s)
    (hl : s.lost = seq :: rest) (hf : s.inFlight.find seq = some e) (he : e.lost = true) :
    SendInv window (sent ++ [⟨n, seq, lane⟩]) lane (s.retransmitted seq rest e now n) where
  wf := wf_assign h.wf
  cap := by simpa [Stream.retransmitted] using h.cap
  replaced := by simpa [Stream.retransmitted] using h.replaced
  base_pos := h.base_pos
  base_le := h.base_le
  le_window := h.le_window
  key t ht := h.key t (by simpa [Stream.retransmitted, contains_assign h.wf] using ht)
  lost_once t f ht := by
    have hs := h.lost_once seq e hf
    rw [Stream.retransmitted, find_assign h.wf] at ht
    split at ht
    · next hc =>
      obtain rfl := Option.some.inj ht
      simp only [Stream.retransmitted, hl, he, hc.1, List.count_cons_self, if_true] at hs ⊢
      simpa using hs
    · next hc =>
      have hne : seq ≠ t := fun hc' => hc ⟨hc'.symm, by simp [contains, hf]⟩
      simpa [Stream.retransmitted, hl, List.count_cons_of_ne hne] using h.lost_once t f ht
  lost_lt t ht := h.lost_lt t (hl ▸ List.mem_cons_of_mem _ ht)
  live t f ht hlive := by
    rw [Stream.retransmitted, find_assign h.wf] at ht
    split at ht
    · next hc =>
      obtain rfl := Option.some.inj ht
      simp [hc.1]
    · exact List.mem_append_left _ (h.live t f ht hlive)
  wire := by
    have h1 := liveCount_erase h.wf hf
    have h2 := liveCount_assign (f := e.transmitted now n) h.wf hf
    have h3 := h.wire
    simp only [he, if_true] at h1
    simp only [InFlight.lost_transmitted, Bool.false_eq_true, if_false] at h2
    simp only [Stream.retransmitted, h2, h3, h1, Nat.add_zero]

lemma find_nextSendSeq (h : SendInv window sent lane s) : s.inFlight.find s.nextSendSeq = none := by
  rw [← Option.not_isSome_iff_eq_none]
  exact fun hc => absurd (h.key _ hc).2 (lt_irrefl _)

lemma slot_free (h : SendInv window sent lane s) (hr : s.nextSendSeq - s.sendBase < s.inFlight.capacity) :
    s.inFlight.slot s.nextSendSeq = none := by
  have hb := h.base_le
  have hw := h.le_window
  refine slot_eq_none h.wf (fun t ht => ?_) (⟨hb, by omega⟩) h.find_nextSendSeq
  have hk := h.key t ht
  rw [h.cap]
  omega

lemma find_transmitted {n : ℕ} {c : FragmentCursor} (h : SendInv window sent lane s)
    (hr : s.nextSendSeq - s.sendBase < s.inFlight.capacity) (t : ℕ) :
    (s.transmitted c now n).inFlight.find t =
      if t = s.nextSendSeq then some ((fragmentAt c).transmitted now n) else s.inFlight.find t := by
  have hfree := h.slot_free hr
  rw [Stream.transmitted, find_assign (wf_insert h.wf), find_insert h.wf hfree]
  by_cases ht : t = s.nextSendSeq <;> simp [ht, contains, find_insert h.wf hfree]

lemma transmit {n : ℕ} {c : FragmentCursor} (h : SendInv window sent lane s)
    (hr : s.nextSendSeq - s.sendBase < s.inFlight.capacity) :
    SendInv window (sent ++ [⟨n, s.nextSendSeq, lane⟩]) lane (s.transmitted c now n) := by
  have hbase := h.base_le
  have hcap := h.cap
  have hfree := h.slot_free hr
  have hwf := wf_insert (s := s.nextSendSeq) (v := fragmentAt c) h.wf
  constructor
  case wf => exact wf_assign hwf
  case cap => simpa [Stream.transmitted] using h.cap
  case replaced => simpa [Stream.transmitted, replaced_insert hfree] using h.replaced
  case base_pos => exact h.base_pos
  case base_le => exact Nat.le_succ_of_le h.base_le
  case le_window =>
    change s.nextSendSeq + 1 ≤ s.sendBase + window
    omega
  case key =>
    intro t ht
    rw [contains, h.find_transmitted hr] at ht
    split at ht
    · next hts =>
      exact hts ▸ ⟨hbase, Nat.lt_succ_self _⟩
    · exact ⟨(h.key t ht).1, Nat.lt_succ_of_lt (h.key t ht).2⟩
  case lost_once =>
    intro t f ht
    rw [h.find_transmitted hr] at ht
    split at ht
    · next hts =>
      obtain rfl := Option.some.inj ht
      rw [if_neg (by simp), List.count_eq_zero]
      exact fun hm => absurd (h.lost_lt t hm) (by omega)
    · exact h.lost_once t f ht
  case lost_lt => exact fun t ht => Nat.lt_succ_of_lt (h.lost_lt t ht)
  case live =>
    intro t f ht hlive
    rw [h.find_transmitted hr] at ht
    split at ht
    · next hts =>
      obtain rfl := Option.some.inj ht
      simp [hts]
    · exact List.mem_append_left _ (h.live t f ht hlive)
  case wire =>
    have hins : (s.inFlight.insert s.nextSendSeq (fragmentAt c)).find s.nextSendSeq = some (fragmentAt c) := by
      simp [find_insert h.wf hfree]
    have h1 := liveCount_erase hwf hins
    have h2 := liveCount_assign (f := (fragmentAt c).transmitted now n) hwf hins
    have h3 := liveCount_insert (e := fragmentAt c) h.wf hfree
    have h4 := h.wire
    have he : (fragmentAt c).lost = false := rfl
    simp only [he, InFlight.lost_transmitted, Bool.false_eq_true, if_false] at h1 h2 h3
    simp only [Stream.transmitted, h2, h4]
    omega

lemma release {seq : ℕ} {e : InFlight} (h : SendInv window sent lane s) (hf : s.inFlight.find seq = some e) :
    SendInv window sent lane (s.released (s.inFlight.erase seq) e) where
  wf := wf_erase h.wf
  cap := by simpa [Stream.released] using h.cap
  replaced := by simpa [Stream.released] using h.replaced
  base_pos := h.base_pos
  base_le := h.base_le
  le_window := h.le_window
  key t ht := h.key t ((contains_erase h.wf).mp ht).2
  lost_once t f ht := by
    rw [Stream.released, find_erase h.wf] at ht
    split at ht
    · simp at ht
    · exact h.lost_once t f ht
  lost_lt := h.lost_lt
  live t f ht := by
    rw [Stream.released, find_erase h.wf] at ht
    split at ht
    · simp at ht
    · exact h.live t f ht
  wire := by
    have h1 := liveCount_erase h.wf hf
    have h2 := h.wire
    cases he : e.lost <;> simp only [Stream.released, he, if_true, if_false, Bool.false_eq_true] at h1 ⊢ <;> omega

lemma markLost {seq : ℕ} {e : InFlight} (h : SendInv window (⟨e.transmission, seq, lane⟩ :: sent) lane s)
    (hf : s.inFlight.find seq = some e) (he : e.lost = false) :
    SendInv window sent lane (s.givenUp seq e) where
  wf := wf_assign h.wf
  cap := by simpa [Stream.givenUp] using h.cap
  replaced := by simpa [Stream.givenUp] using h.replaced
  base_pos := h.base_pos
  base_le := h.base_le
  le_window := h.le_window
  key t ht := h.key t (by simpa [Stream.givenUp, contains_assign h.wf] using ht)
  lost_once t f ht := by
    have hs := h.lost_once seq e hf
    rw [Stream.givenUp, find_assign h.wf] at ht
    split at ht
    · next hc =>
      obtain rfl := Option.some.inj ht
      simp only [he, Bool.false_eq_true, if_false] at hs
      simp [Stream.givenUp, hc.1, hs]
    · next hc =>
      have hne : seq ≠ t := fun hc' => hc ⟨hc'.symm, by simp [contains, hf]⟩
      simpa [Stream.givenUp, hne] using h.lost_once t f ht
  lost_lt t ht := by
    rw [Stream.givenUp, List.mem_append, List.mem_singleton] at ht
    rcases ht with ht | rfl
    · exact h.lost_lt t ht
    · exact (h.key t (by simp [contains, hf])).2
  live t f ht hlive := by
    rw [Stream.givenUp, find_assign h.wf] at ht
    split at ht
    · obtain rfl := Option.some.inj ht
      simp at hlive
    · next hc =>
      have hne : t ≠ seq := fun hc' => hc ⟨hc', by simp [contains, hf]⟩
      simpa [hne] using h.live t f ht hlive
  wire := by
    have h1 := liveCount_erase h.wf hf
    have h2 := liveCount_assign (f := { e with lost := true }) h.wf hf
    have h3 := h.wire
    simp only [he, if_true, if_false, Bool.false_eq_true] at h1 h2
    simp only [Stream.givenUp, h2]
    omega

end SendInv

end NetLink.Channel
