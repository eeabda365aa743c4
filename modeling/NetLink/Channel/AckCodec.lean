import NetLink.Channel.PacketFormat

/-! What an Ack says about the reorder buffer: the ranges it is made of, and what is read back from its body. -/

namespace NetLink.Channel

def SeqRange.Before (r r' : SeqRange) : Prop := r.last < r'.first ∧ (r.last + 1 = r'.first → r.count = 65535)

structure Packs (seen : List ℕ) (ranges : List SeqRange) : Prop where
  count : ∀ r ∈ ranges, 1 ≤ r.count ∧ r.count ≤ 65535
  ordered : ranges.Pairwise SeqRange.Before
  covers : ∀ seq, (∃ r ∈ ranges, r.first ≤ seq ∧ seq ≤ r.last) ↔ seq ∈ seen

variable {seen : List ℕ} {start : List SeqRange} {back : SeqRange} {seq : ℕ} {ranges : List SeqRange}
  {r : SeqRange} {d : List UInt8}

lemma addSeq_concat (start : List SeqRange) (back : SeqRange) (seq : ℕ) : addSeq (start ++ [back]) seq =
    if seq ≤ back.last then start ++ [back]
    else if seq = back.last + 1 ∧ back.count < 65535 then start ++ [{ back with count := back.count + 1 }]
    else start ++ [back] ++ [⟨seq, 1⟩] := by
  rw [addSeq, List.getLast?_concat]
  simp only [List.dropLast_concat]

lemma Packs.single (seq : ℕ) : Packs [seq] [⟨seq, 1⟩] where
  count := by simp
  ordered := List.pairwise_singleton ..
  covers x := by
    simp only [List.mem_singleton, exists_eq_left, SeqRange.last]
    omega

lemma Packs.duplicate (h : Packs seen ranges) (hs : seq ∈ seen) :
    Packs (seen ++ [seq]) ranges where
  count := h.count
  ordered := h.ordered
  covers x := by
    rw [h.covers, List.mem_append, List.mem_singleton]
    constructor
    · exact .inl
    · rintro (hx | rfl)
      · exact hx
      · exact hs

lemma Packs.extend (h : Packs seen (start ++ [back])) (hs : seq = back.last + 1) (hc : back.count < 65535) :
    Packs (seen ++ [seq]) (start ++ [{ back with count := back.count + 1 }]) := by
  obtain ⟨hpos, -⟩ := h.count back (by simp)
  obtain ⟨hstart, -, hback⟩ := List.pairwise_append.mp h.ordered
  refine ⟨fun r hr => ?_, List.pairwise_append.mpr ⟨hstart, List.pairwise_singleton .., ?_⟩, fun x => ?_⟩
  · rcases List.mem_append.mp hr with hr | hr
    · exact h.count r (List.mem_append_left _ hr)
    · obtain rfl := List.mem_singleton.mp hr
      exact ⟨by simp, hc⟩
  · intro r hr r' hr'
    obtain rfl := List.mem_singleton.mp hr'
    exact hback r hr back (List.mem_singleton_self back)
  · have hx := h.covers x
    simp only [List.mem_append, List.mem_singleton, or_and_right, exists_or, exists_eq_left] at hx ⊢
    rw [← hx, or_assoc]
    refine or_congr_right ?_
    clear hx
    simp only [SeqRange.last] at hs ⊢
    omega

lemma Packs.open (h : Packs seen (start ++ [back])) (hgap : back.last < seq)
    (hfull : seq = back.last + 1 → back.count = 65535) :
      Packs (seen ++ [seq]) (start ++ [back] ++ [⟨seq, 1⟩]) := by
  obtain ⟨-, -, hback⟩ := List.pairwise_append.mp h.ordered
  refine ⟨fun r hr => ?_, List.pairwise_append.mpr ⟨h.ordered, List.pairwise_singleton .., ?_⟩, fun x => ?_⟩
  · rcases List.mem_append.mp hr with hr | hr
    · exact h.count r hr
    · obtain rfl := List.mem_singleton.mp hr
      exact ⟨le_rfl, Nat.le_add_left 1 65534⟩
  · intro r hr r' hr'
    obtain rfl := List.mem_singleton.mp hr'
    rcases List.mem_append.mp hr with hr' | hr'
    · have hlt := (hback r hr' back (List.mem_singleton_self back)).1
      have hpos := (h.count back (by simp)).1
      rw [SeqRange.last] at hgap
      exact ⟨by dsimp only; omega, fun he => by dsimp only at he; omega⟩
    · obtain rfl := List.mem_singleton.mp hr'
      exact ⟨hgap, fun he => hfull he.symm⟩
  · have hx := h.covers x
    simp only [List.mem_append, List.mem_singleton, or_and_right, exists_or, exists_eq_left] at hx ⊢
    rw [hx]
    refine or_congr_right ?_
    simp only [SeqRange.last]
    omega

lemma Packs.addSeq (h : Packs seen ranges) (hmax : ∀ x ∈ seen, x ≤ seq) :
    Packs (seen ++ [seq]) (addSeq ranges seq) := by
  rcases List.eq_nil_or_concat' ranges with rfl | ⟨start, back, rfl⟩
  · obtain rfl : seen = [] := List.eq_nil_iff_forall_not_mem.mpr fun x hx => by simpa using (h.covers x).mpr hx
    exact .single seq
  · have hpos := (h.count back (by simp)).1
    have hlast : back.last ∈ seen := by
      refine (h.covers back.last).mp ⟨back, by simp, ?_, le_rfl⟩
      rw [SeqRange.last]
      omega
    have hle := hmax _ hlast
    rw [addSeq_concat]
    split
    · obtain rfl : seq = back.last := by omega
      exact h.duplicate hlast
    split
    · next hc =>
      exact h.extend hc.1 hc.2
    · refine h.open (by omega) fun hs => ?_
      have := (h.count back (by simp)).2
      omega

lemma packs_foldl {l : List ℕ} (h : Packs seen ranges)
    (hsorted : (seen ++ l).Pairwise (· ≤ ·)) : Packs (seen ++ l) (l.foldl addSeq ranges) := by
  induction l generalizing seen ranges with
  | nil => rwa [List.append_nil]
  | cons seq l ih =>
    have hmax : ∀ x ∈ seen, x ≤ seq := fun x hx =>
      (List.pairwise_append.mp hsorted).2.2 x hx seq (List.mem_cons_self ..)
    rw [List.append_cons] at hsorted ⊢
    exact ih (h.addSeq hmax) hsorted

lemma packs_toRanges (seqs : List ℕ) : Packs seqs (toRanges seqs) := by
  have hnil : Packs [] [] := ⟨nofun, .nil, by simp⟩
  have hsorted := List.pairwise_insertionSort (· ≤ ·) seqs
  have h := packs_foldl hnil hsorted
  refine ⟨h.count, h.ordered, fun x => ?_⟩
  rw [← (List.perm_insertionSort (· ≤ ·) seqs).mem_iff]
  exact h.covers x

structure SeqRange.Valid (r : SeqRange) : Prop where
  first : 1 ≤ r.first
  count : 1 ≤ r.count ∧ r.count < 2 ^ 16
  last : r.last < 2 ^ 64

lemma readUint64_at (before rest : List UInt8) (value : ℕ) :
    readUint64 (before ++ (writeUint64 value ++ rest)) before.length = value % 2 ^ 64 :=
  (readUint64_append _ before 0).trans (readUint64_writeUint64 rest value)

lemma length_encodeRange (r : SeqRange) : (encodeRange r).length = SeqRangeSize := rfl

lemma decodeRange_at (h : r.Valid) (before rest : List UInt8) :
    decodeRange (before ++ (encodeRange r ++ rest)) before.length = some r := by
  have hlast := h.last
  have hfirst := h.first
  obtain ⟨hpos, hcount⟩ := h.count
  have h₀ : readUint64 (before ++ (encodeRange r ++ rest)) before.length = r.first := by
    rw [encodeRange, List.append_assoc, readUint64_at, Nat.mod_eq_of_lt]
    rw [SeqRange.last] at hlast
    omega
  have h₈ : readUint16 (before ++ (encodeRange r ++ rest)) (before.length + 8) = r.count := by
    have hlen : before.length + 8 = (before ++ writeUint64 r.first).length := by rw [List.length_append]; rfl
    rw [encodeRange, List.append_assoc, ← List.append_assoc before, hlen, readUint16_at, Nat.mod_eq_of_lt hcount]
  rw [decodeRange, h₀, h₈]
  dsimp only
  rw [if_neg]
  rw [Nat.mod_eq_of_lt hlast, SeqRange.last]
  omega

lemma decodeRanges_at (h : ∀ r ∈ ranges, r.Valid) (before : List UInt8) :
    decodeRanges (before ++ ranges.flatMap encodeRange) ranges.length before.length = some ranges := by
  induction ranges generalizing before with
  | nil => rfl
  | cons r ranges ih =>
    have hrest := ih (fun x hx => h x (List.mem_cons_of_mem _ hx)) (before ++ encodeRange r)
    rw [List.length_append, length_encodeRange, List.append_assoc] at hrest
    rw [List.flatMap_cons, List.length_cons, decodeRanges, decodeRange_at (h r (List.mem_cons_self ..)),
      Option.bind_eq_bind, Option.bind_some, hrest]
    rfl

lemma length_flatMap_encodeRange (ranges : List SeqRange) :
    (ranges.flatMap encodeRange).length = ranges.length * SeqRangeSize := by
  rw [List.length_flatMap]
  simp [length_encodeRange]

lemma decodeAck_encodeAck {ack : AckBody} (hs : ack.serial < 2 ^ 32) (hm : ack.mediaReceived < 2 ^ 32)
    (hr : ∀ r ∈ ack.ranges, r.Valid) (n : ℕ) :
    decodeAck (encodeAck ack n) = some { ack with ranges := ack.ranges.take n } := by
  have hlen : (encodeAck ack n).length = AckFieldsSize + (ack.ranges.take n).length * SeqRangeSize := by
    rw [encodeAck, List.length_append, length_flatMap_encodeRange]
    rfl
  have hvalid : ∀ r ∈ ack.ranges.take n, r.Valid := fun r hmem => hr r (List.mem_of_mem_take hmem)
  have hranges : decodeRanges (encodeAck ack n) (ack.ranges.take n).length AckFieldsSize =
    some (ack.ranges.take n) :=
    decodeRanges_at hvalid (writeUint32 ack.serial ++ writeUint32 ack.mediaReceived)
  have h₀ : readUint32 (encodeAck ack n) 0 = ack.serial := by
    rw [encodeAck, List.append_assoc, readUint32_writeUint32, Nat.mod_eq_of_lt hs]
  have h₄ : readUint32 (encodeAck ack n) 4 = ack.mediaReceived := by
    rw [encodeAck, List.append_assoc]
    exact (readUint32_at (writeUint32 ack.serial) _ _).trans (Nat.mod_eq_of_lt hm)
  have hcount : ((encodeAck ack n).length - AckFieldsSize) / SeqRangeSize = (ack.ranges.take n).length := by
    rw [hlen, Nat.add_sub_cancel_left, Nat.mul_div_cancel _ (by decide)]
  have hwhole : ((encodeAck ack n).length - AckFieldsSize) % SeqRangeSize = 0 := by
    rw [hlen, Nat.add_sub_cancel_left, Nat.mul_mod_left]
  rw [decodeAck, if_neg (by omega), hcount, h₀, h₄, hranges]
  rfl

lemma decodeRange_spec {offset : ℕ} (h : decodeRange d offset = some r) :
    r = ⟨readUint64 d offset, readUint16 d (offset + 8)⟩ ∧ r.Valid := by
  have hfirst := readUint64_lt d offset
  have hcount := readUint16_lt d (offset + 8)
  rw [decodeRange] at h
  dsimp only at h
  split at h
  · cases h
  · next hok =>
    obtain rfl := Option.some.inj h
    simp only [SeqRange.last, not_or, not_lt] at hok
    refine ⟨rfl, ⟨by dsimp only; omega, ⟨by dsimp only; omega, hcount⟩, ?_⟩⟩
    rw [SeqRange.last]
    dsimp only
    omega

lemma encodeRange_of_decodeRange {offset : ℕ} (h : decodeRange d offset = some r)
    (hd : offset + SeqRangeSize ≤ d.length) : encodeRange r ++ d.drop (offset + SeqRangeSize) = d.drop offset := by
  obtain ⟨rfl, -⟩ := decodeRange_spec h
  rw [SeqRangeSize] at hd ⊢
  have h₈ := writeUint16_readUint16 (d := d) (k := offset + 8) (by omega)
  rw [encodeRange, List.append_assoc, h₈, writeUint64_readUint64 (by omega)]

lemma decodeRanges_spec {n offset : ℕ} (h : decodeRanges d n offset = some ranges)
    (hd : offset + n * SeqRangeSize ≤ d.length) :
    ranges.length = n ∧ (∀ r ∈ ranges, r.Valid) ∧
      ranges.flatMap encodeRange ++ d.drop (offset + n * SeqRangeSize) = d.drop offset := by
  induction n generalizing offset ranges with
  | zero =>
    obtain rfl := Option.some.inj h
    exact ⟨rfl, nofun, by rw [Nat.zero_mul]; rfl⟩
  | succ n ih =>
    simp only [decodeRanges, Option.bind_eq_bind, Option.bind_eq_some_iff, Option.pure_def, Option.some.injEq] at h
    obtain ⟨r, hr, rest, hrest, rfl⟩ := h
    rw [Nat.succ_mul, Nat.add_comm (n * _), ← Nat.add_assoc] at hd ⊢
    obtain ⟨hlen, hvalid, hbytes⟩ := ih hrest hd
    refine ⟨by rw [List.length_cons, hlen], ?_, ?_⟩
    · exact List.forall_mem_cons.mpr ⟨(decodeRange_spec hr).2, hvalid⟩
    · rw [List.flatMap_cons, List.append_assoc, hbytes, encodeRange_of_decodeRange hr (by omega)]

lemma encodeAck_of_decodeAck {bytes : List UInt8} {ack : AckBody} (h : decodeAck bytes = some ack) :
    (∀ r ∈ ack.ranges, r.Valid) ∧ ∀ n, ack.ranges.length ≤ n → encodeAck ack n = bytes := by
  rw [decodeAck] at h
  split at h
  · cases h
  next hlen =>
  obtain ⟨hlong, hwhole⟩ : AckFieldsSize ≤ bytes.length ∧ (bytes.length - AckFieldsSize) % SeqRangeSize = 0 := by
    omega
  simp only [Option.bind_eq_bind, Option.bind_eq_some_iff, Option.pure_def, Option.some.injEq] at h
  obtain ⟨ranges, hranges, rfl⟩ := h
  have hsize : AckFieldsSize + (bytes.length - AckFieldsSize) / SeqRangeSize * SeqRangeSize = bytes.length := by
    rw [Nat.div_mul_cancel (Nat.dvd_of_mod_eq_zero hwhole)]
    omega
  obtain ⟨-, hvalid, hbytes⟩ := decodeRanges_spec hranges hsize.le
  refine ⟨hvalid, fun n hn => ?_⟩
  rw [hsize, List.drop_length, List.append_nil] at hbytes
  rw [AckFieldsSize] at hlong hbytes
  have h₄ := writeUint32_readUint32 (d := bytes) (k := 4) (by omega)
  have h₀ := writeUint32_readUint32 (d := bytes) (k := 0) (by omega)
  rw [encodeAck, List.take_of_length_le hn, List.append_assoc, hbytes, h₄, h₀, List.drop_zero]

theorem acks_describe_the_reorder_buffer :
    (∀ seqs : List ℕ, (∀ seq ∈ seqs, 1 ≤ seq ∧ seq < 2 ^ 64 - 1) →
      (toRanges seqs).Pairwise SeqRange.Before ∧
      (∀ seq, (∃ r ∈ toRanges seqs, r.first ≤ seq ∧ seq ≤ r.last) ↔ seq ∈ seqs) ∧
      (∀ r ∈ toRanges seqs, 1 ≤ r.count ∧ r.count ≤ 65535 ∧ r.first + r.count < 2 ^ 64) ∧
      ∀ (serial mediaReceived : UInt32) (n : ℕ), ∃ ack : AckBody,
        decodeAck (encodeAck ⟨serial.toNat, mediaReceived.toNat, toRanges seqs⟩ n) = some ack ∧
        ack.serial = serial.toNat ∧ ack.mediaReceived = mediaReceived.toNat ∧
        ack.ranges = (toRanges seqs).take (min n (toRanges seqs).length) ∧
        ∀ r ∈ ack.ranges, ∀ seq, r.first ≤ seq → seq ≤ r.last → seq ∈ seqs) ∧
    ∀ (bytes : List UInt8) (ack : AckBody), decodeAck bytes = some ack →
      (∀ limit, ack.ranges.length ≤ limit → encodeAck ack limit = bytes) ∧
      ∀ r ∈ ack.ranges, r.count ≠ 0 ∧ r.first ≠ 0 ∧ r.first ≤ r.last ∧ r.last < 2 ^ 64 := by
  refine ⟨fun seqs hseqs => ?_, fun bytes ack h => ?_⟩
  · have h := packs_toRanges seqs
    have hlast (r : SeqRange) (hr : r ∈ toRanges seqs) : r.first ∈ seqs ∧ r.last ∈ seqs := by
      have hpos := (h.count r hr).1
      have hle : r.first ≤ r.last := by rw [SeqRange.last]; omega
      exact ⟨(h.covers _).mp ⟨r, hr, le_rfl, hle⟩, (h.covers _).mp ⟨r, hr, hle, le_rfl⟩⟩
    have hroom (r : SeqRange) (hr : r ∈ toRanges seqs) : r.first + r.count < 2 ^ 64 := by
      have := hseqs _ (hlast r hr).2
      rw [SeqRange.last] at this
      omega
    have hvalid (r : SeqRange) (hr : r ∈ toRanges seqs) : r.Valid := by
      have hcount := h.count r hr
      have := hseqs _ (hlast r hr).2
      exact ⟨(hseqs _ (hlast r hr).1).1, ⟨hcount.1, by omega⟩, by omega⟩
    refine ⟨h.ordered, h.covers, fun r hr => ⟨(h.count r hr).1, (h.count r hr).2, hroom r hr⟩,
      fun serial media n => ?_⟩
    refine ⟨_, decodeAck_encodeAck serial.toNat_lt media.toNat_lt hvalid n, rfl, rfl, ?_, ?_⟩
    · exact List.take_eq_take_min
    · intro r hr seq hlo hhi
      exact (h.covers seq).mp ⟨r, List.mem_of_mem_take hr, hlo, hhi⟩
  · obtain ⟨hvalid, hbytes⟩ := encodeAck_of_decodeAck h
    refine ⟨hbytes, fun r hr => ?_⟩
    obtain ⟨hfirst, ⟨hcount, -⟩, hlast⟩ := hvalid r hr
    have hle : r.first ≤ r.last := by rw [SeqRange.last]; omega
    exact ⟨by omega, by omega, hle, hlast⟩

theorem acks_describe_two_ranges : toRanges [7, 3, 4] = [⟨3, 2⟩, ⟨7, 1⟩] ∧
    (∀ seq, (∃ r ∈ toRanges [7, 3, 4], r.first ≤ seq ∧ seq ≤ r.last) ↔ seq ∈ [7, 3, 4]) ∧
    ∀ limit, 2 ≤ limit → encodeAck ⟨9, 1, [⟨3, 2⟩, ⟨7, 1⟩]⟩ limit = encodeAck ⟨9, 1, [⟨3, 2⟩, ⟨7, 1⟩]⟩ 2 := by
  obtain ⟨hseqs, hbytes⟩ := acks_describe_the_reorder_buffer
  exact ⟨by decide +kernel, (hseqs [7, 3, 4] (by decide)).2.1,
    (hbytes (encodeAck ⟨9, 1, [⟨3, 2⟩, ⟨7, 1⟩]⟩ 2) ⟨9, 1, [⟨3, 2⟩, ⟨7, 1⟩]⟩ (by decide +kernel)).1⟩

end NetLink.Channel
