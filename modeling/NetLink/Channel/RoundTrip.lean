import NetLink.Channel.MediaAssembly

/-! From a message to its datagrams and back: what a link makes of a message is put together again at the other
end, in order by the assembler of a stream and in any order by the one of the media lane. -/

namespace NetLink.Channel

def datagrams (link : ℕ → ReliableLink) (lane : Lane) (seq : ℕ) (cursor : FragmentCursor) : List Packet :=
  let entry := fragmentAt cursor
  let header := (link cursor.next).headerOf lane seq entry
  ((link cursor.next).offer header entry).1.toList ++
    if cursor.next + 1 < cursor.count then datagrams link lane (seq + 1)
      { cursor with next := cursor.next + 1 } else []
termination_by cursor.count - cursor.next

def datagramAt (link : ℕ → ReliableLink) (lane : Lane) (seq : ℕ) (m : OutboundMessage) (i : ℕ) : Packet :=
  makeDatagram ((link i).headerOf lane (seq + i) (fragmentAt { cursorFor m with next := i }))
    (fragmentAt { cursorFor m with next := i }).bytes

section Datagrams

variable (link : ℕ → ReliableLink) {lane : Lane} (seq : ℕ) {m : OutboundMessage} {i : ℕ}

lemma datagrams_eq (lane : Lane) (cursor : FragmentCursor) :
    datagrams link lane seq cursor =
      makeDatagram ((link cursor.next).headerOf lane seq (fragmentAt cursor)) (fragmentAt cursor).bytes ::
        if cursor.next + 1 < cursor.count then datagrams link lane (seq + 1)
          { cursor with next := cursor.next + 1 }
        else [] := by
  rw [datagrams]
  rfl

lemma datagrams_from (lane : Lane) (k : ℕ) (hk : fragmentsOf m.body.length = i + k + 1) :
    datagrams link lane (seq + i) { cursorFor m with next := i } =
      (List.range' i (k + 1)).map (datagramAt link lane seq m) := by
  induction k generalizing i with
  | zero =>
    have hlast : ¬i + 1 < (cursorFor m).count := by
      rw [cursorFor]
      dsimp only
      omega
    rw [datagrams_eq]
    dsimp only
    rw [if_neg hlast]
    rfl
  | succ k ih =>
    have hmore : i + 1 < (cursorFor m).count := by
      rw [cursorFor]
      dsimp only
      omega
    rw [datagrams_eq]
    dsimp only
    rw [if_pos hmore, Nat.add_assoc, ih (by omega), List.range'_succ, List.map_cons]
    rfl

lemma datagrams_cursorFor (lane : Lane) (m : OutboundMessage) : datagrams link lane seq (cursorFor m) =
    (List.range (fragmentsOf m.body.length)).map (datagramAt link lane seq m) := by
  obtain ⟨k, hk⟩ := Nat.exists_eq_add_of_lt (fragmentsOf_pos m.body.length)
  rw [hk, Nat.zero_add, List.range_eq_range']
  exact datagrams_from link seq lane k hk

lemma carries_datagramAt (lane : Lane) (m : OutboundMessage) (i : ℕ) :
    Carries (fragmentAt { cursorFor m with next := i }) (datagramAt link lane seq m i).header
    (datagramAt link lane seq m i).body :=
  carries_makeDatagram _ _ _ _

lemma maxMessageSize_le (lane : Lane) : maxMessageSize lane ≤ MaxMessagePayload := by
  cases lane <;> decide

lemma fragmentsOf_mono {a b : ℕ} (h : a ≤ b) : fragmentsOf a ≤ fragmentsOf b := by
  have hpos := fragmentsOf_pos b
  have hle := le_fragmentsOf_mul b
  by_contra hlt
  rw [not_le] at hlt
  have hmul := mul_lt_of_lt_fragmentsOf hlt hpos
  omega

lemma flags_datagramAt (lane : Lane) (m : OutboundMessage) (i : ℕ) : (datagramAt link lane seq m i).header.flags =
    if (fragmentAt { cursorFor m with next := i }).fragCount > 1 then
      (PacketFlags.data lane).setFragment true
        ((fragmentAt { cursorFor m with next := i }).fragIndex + 1 ==
          (fragmentAt { cursorFor m with next := i }).fragCount)
    else .data lane :=
  flags_headerOf _ _ _ _

lemma isValid_data (lane : Lane) : (PacketFlags.data lane).isValid = true := by
  cases lane <;> decide

lemma isValid_fragment (lane : Lane) (last : Bool) :
    ((PacketFlags.data lane).setFragment true last).isValid = true := by
  cases lane <;> cases last <;> decide

lemma flags_datagramAt_spec (lane : Lane) (m : OutboundMessage) (i : ℕ) :
    (datagramAt link lane seq m i).header.flags.isValid = true ∧
    (datagramAt link lane seq m i).header.flags.kind = .data ∧
      (datagramAt link lane seq m i).header.flags.lane = lane := by
  rw [flags_datagramAt]
  split
  · exact ⟨isValid_fragment _ _, PacketFlags.kind_fragment _ _, PacketFlags.lane_fragment _ _⟩
  · exact ⟨isValid_data _, PacketFlags.kind_data _, PacketFlags.lane_data _⟩

lemma fields_headerOf (l : ReliableLink) (lane : Lane) (seq : ℕ) (e : InFlight) :
    (l.headerOf lane seq e).srcStreamID = l.mLocalStreamID ∧ (l.headerOf lane seq e).seq = seq := by
  rw [ReliableLink.headerOf]
  dsimp only
  split <;> exact ⟨rfl, rfl⟩

lemma seq_datagramAt (lane : Lane) (m : OutboundMessage) (i : ℕ) :
    (datagramAt link lane seq m i).header.seq = seq + i :=
  (fields_headerOf (link i) lane (seq + i) _).2

lemma onWire_onWire (h : PacketHeader) : h.onWire.onWire = h.onWire := by
  have hflags : h.onWire.flags = h.flags := rfl
  have hsm : h.onWire.startsMessage = h.startsMessage := by
    rw [PacketHeader.startsMessage, PacketHeader.startsMessage, hflags, PacketHeader.onWire]
    cases h.flags.isFragmented <;> rfl
  have hsf : h.onWire.startsFragmentedMessage = h.startsFragmentedMessage := by
    rw [PacketHeader.startsFragmentedMessage, PacketHeader.startsFragmentedMessage, hflags, PacketHeader.onWire]
    cases h.flags.isFragmented <;> rfl
  rw [PacketHeader.onWire, hsm, hsf, hflags]
  simp only [PacketHeader.onWire]
  cases h.flags.isFragmented <;> cases h.startsMessage <;> cases h.startsFragmentedMessage <;> rfl

lemma joins_datagramAt (hl : m.body.length ≤ maxMessageSize lane) (hi : i < fragmentsOf m.body.length)
    (hs : 1 < fragmentsOf m.body.length) :
    MediaAssembler.Joins m i (datagramAt link lane seq m i).header (datagramAt link lane seq m i).body :=
  ⟨hl.trans (maxMessageSize_le lane), hi, hs, carries_datagramAt link seq lane m i⟩

lemma isFragmented_datagramAt (hl : m.body.length ≤ maxMessageSize lane) (hi : i < fragmentsOf m.body.length) :
    (datagramAt link lane seq m i).header.flags.isFragmented = decide (1 < fragmentsOf m.body.length) := by
  have hc := (carries_datagramAt link seq lane m i).fragmented
  rw [fragmentAt_cursor (hl.trans (maxMessageSize_le lane)) hi] at hc
  exact hc

lemma wellFormed_datagramAt (hid : (link i).mLocalStreamID ≠ 0) (hseq : 1 ≤ seq)
    (hl : m.body.length ≤ maxMessageSize lane) (hi : i < fragmentsOf m.body.length) :
    (datagramAt link lane seq m i).header.WellFormed := by
  obtain ⟨hvalid, hkind, hlane⟩ := flags_datagramAt_spec link seq lane m i
  have hfrag := isFragmented_datagramAt link seq hl hi
  have hsource : (datagramAt link lane seq m i).header.srcStreamID = (link i).mLocalStreamID :=
    (fields_headerOf (link i) lane (seq + i) _).1
  have hseveral : (datagramAt link lane seq m i).header.flags.isFragmented = true →
    1 < fragmentsOf m.body.length := by
    rw [hfrag]
    exact of_decide_eq_true
  refine ⟨⟨hvalid, ?_, fun _ => ?_, fun hf => ?_, fun hf => ?_⟩, ?_, fun hf => ?_⟩
  · rw [hsource]
    exact hid
  · rw [seq_datagramAt]
    omega
  · have hj := joins_datagramAt link seq hl hi (hseveral hf)
    rw [hj.fragIndex, hj.fragCount, hj.isLastFragment, hlane]
    exact ⟨hi, fragmentsOf_mono hl, rfl⟩
  · rw [PacketHeader.startsFragmentedMessage, Bool.and_eq_true, beq_iff_eq] at hf
    have hj := joins_datagramAt link seq hl hi (hseveral hf.1)
    have h0 : i = 0 := by rw [← hj.fragIndex, hf.2]
    rw [(hj.announced h0).2, hj.fragCount, hlane]
    exact ⟨hl, rfl⟩
  · rw [hkind]
    decide
  · rw [(joins_datagramAt link seq hl hi (hseveral hf)).fragCount]
    exact hseveral hf

lemma length_datagramAt (hl : m.body.length ≤ maxMessageSize lane) (hi : i < fragmentsOf m.body.length) :
    (datagramAt link lane seq m i).body.length = min MaxFragmentBody (m.body.length - i * MaxFragmentBody) :=
  length_bytes (hl.trans (maxMessageSize_le lane)) hi

lemma encodedSize_le (h : PacketHeader) : h.encodedSize ≤ MaxHeaderSize := by
  rw [PacketHeader.encodedSize, MaxHeaderSize]
  split <;> split <;> split <;> omega

lemma size_datagramAt (hl : m.body.length ≤ maxMessageSize lane) (hi : i < fragmentsOf m.body.length) :
    (datagramAt link lane seq m i).header.encodedSize + (datagramAt link lane seq m i).body.length ≤
      MaxDatagramSize := by
  have hheader := encodedSize_le (datagramAt link lane seq m i).header
  have hsum : MaxHeaderSize + MaxFragmentBody = MaxDatagramSize := by decide
  rw [length_datagramAt link seq hl hi]
  omega

lemma isBodySizeValid_datagramAt (hl : m.body.length ≤ maxMessageSize lane) (hi : i < fragmentsOf m.body.length) :
    isBodySizeValid (datagramAt link lane seq m i).header (datagramAt link lane seq m i).body.length = true := by
  obtain ⟨-, hkind, -⟩ := flags_datagramAt_spec link seq lane m i
  have hlen := length_datagramAt link seq hl hi
  have hfrag := isFragmented_datagramAt link seq hl hi
  rw [isBodySizeValid, hkind]
  dsimp only
  by_cases hs : 1 < fragmentsOf m.body.length
  · have hj := joins_datagramAt link seq hl hi hs
    have hsize := hj.size
    rw [hj.isFragmented, if_neg (by decide)]
    split at hsize
    · next hlast => rw [if_pos hlast, Bool.and_eq_true, decide_eq_true_iff, decide_eq_true_iff]; exact hsize
    · next hlast => rw [if_neg hlast, beq_iff_eq]; exact hsize
  · rw [hfrag, decide_eq_false hs, if_pos (by decide), decide_eq_true_iff, hlen]
    exact min_le_left _ _

lemma decodePacket_datagramAt (hid : (link i).mLocalStreamID ≠ 0) (hseq : 1 ≤ seq) (hwrap : seq + i < 2 ^ 64)
    (hl : m.body.length ≤ maxMessageSize lane) (hi : i < fragmentsOf m.body.length) :
    decodePacket (datagramAt link lane seq m i).bytes = some (datagramAt link lane seq m i) := by
  refine decodePacket_data (wellFormed_datagramAt link seq hid hseq hl hi) (onWire_onWire _) ?_
    (flags_datagramAt_spec link seq lane m i).2.1 (isBodySizeValid_datagramAt link seq hl hi)
      (size_datagramAt link seq hl hi)
  rw [seq_datagramAt]
  exact hwrap

end Datagrams

namespace MessageAssembler

def acceptAll (a : MessageAssembler) :
    List (Option AssemblyBudget × Packet) → MessageAssembler × List (Option AssembledMessage)
  | [] => (a, [])
  | x :: rest =>
    let next := a.accept x.1 x.2.header x.2.body
    ((next.1.acceptAll rest).1, next.2.2 :: (next.1.acceptAll rest).2)

def Room (a : MessageAssembler) (fed : List (Option AssemblyBudget × Packet)) : Prop :=
  ∀ x ∈ fed.head?, hasRoomFor (a.released x.1) x.2.header = true

variable {link : ℕ → ReliableLink} {lane : Lane} {seq i : ℕ} {m : OutboundMessage} {a : MessageAssembler}
  {fed : List (Option AssemblyBudget × Packet)}

lemma acceptAll_from (hl : m.body.length ≤ maxMessageSize lane) (k : ℕ)
    (hk : fragmentsOf m.body.length = i + k + 1)
    (hfed : fed.map Prod.snd = (List.range' i (k + 1)).map (datagramAt link lane seq m))
    (ha : 0 < i → a = midway m i) (hroom : i = 0 → Room a fed) :
    a.acceptAll fed = ({}, List.replicate k none ++ [some ⟨m.tag, m.body⟩]) := by
  induction k generalizing i a fed with
  | zero =>
    obtain ⟨x, rest, rfl, hx, hrest⟩ := List.map_eq_cons_iff.mp hfed
    obtain rfl := List.map_eq_nil_iff.mp hrest
    have hnext := accept_next x.1 (hl.trans (maxMessageSize_le lane)) (by omega)
      (carries_datagramAt link seq lane m i) ha fun h0 => hx ▸ hroom h0 x rfl
    rw [if_neg (by omega), if_neg (by omega), ← hx] at hnext
    rw [acceptAll, acceptAll]
    dsimp only
    rw [hnext.1, hnext.2]
    rfl
  | succ k ih =>
    rw [List.range'_succ, List.map_cons] at hfed
    obtain ⟨x, rest, rfl, hx, hrest⟩ := List.map_eq_cons_iff.mp hfed
    have hnext := accept_next x.1 (hl.trans (maxMessageSize_le lane)) (by omega)
      (carries_datagramAt link seq lane m i) ha fun h0 => hx ▸ hroom h0 x rfl
    rw [if_pos (by omega), if_pos (by omega), ← hx, assembling, if_neg (Nat.succ_ne_zero i)] at hnext
    rw [acceptAll, hnext.1, hnext.2, ih (by omega) hrest (fun _ => rfl) (fun h0 => absurd h0 (Nat.succ_ne_zero i))]
    rfl

lemma acceptAll_datagrams (hl : m.body.length ≤ maxMessageSize lane)
    (hfed : fed.map Prod.snd = datagrams link lane seq (cursorFor m)) (hroom : Room a fed) :
    a.acceptAll fed = ({}, List.replicate (fragmentsOf m.body.length - 1) none ++ [some ⟨m.tag, m.body⟩]) := by
  obtain ⟨k, hk⟩ := Nat.exists_eq_add_of_lt (fragmentsOf_pos m.body.length)
  rw [datagrams_cursorFor, List.range_eq_range', hk, Nat.zero_add] at hfed
  rw [acceptAll_from hl k hk hfed (fun h0 => absurd h0 (Nat.lt_irrefl 0)) fun _ => hroom, hk]
  congr 4
  omega

end MessageAssembler

namespace MediaAssembler

def acceptAll (m : MediaAssembler) : List Packet → MediaAssembler × List (Option AssembledMessage)
  | [] => (m, [])
  | p :: rest =>
    let next := m.accept p.header p.body
    ((next.1.acceptAll rest).1, next.2 :: (next.1.acceptAll rest).2)

variable {link : ℕ → ReliableLink} {id i j : ℕ} {msg : OutboundMessage} {m : MediaAssembler} {slot : Slot}
  {header : PacketHeader}

lemma Blank.acceptAll (h : m.Blank) (fed : List Packet) : (m.acceptAll fed).1.Blank := by
  induction fed generalizing m with
  | nil => exact h
  | cons p rest ih => exact ih (h.accept p.header p.body)

lemma fragmentsOf_media (hl : msg.body.length ≤ maxMessageSize .media) : fragmentsOf msg.body.length ≤ 64 :=
  (fragmentsOf_mono hl).trans (by decide)

lemma Sole.accept {body : List UInt8} (hb : m.Blank) (h : Sole m id i slot)
    (hj : Joins msg j header body)
    (hs : fragmentsOf msg.body.length ≤ 64) (hseq : header.seq = id + j) (hid : 1 ≤ id) :
    m.accept header body = m.put i header body := by
  obtain ⟨target, m', hseat, hacc⟩ := accept_of_passes hb (hj.passes hs (by omega))
  rw [hseq, hj.fragIndex, Nat.add_sub_cancel] at hseat
  obtain ⟨rfl, rfl⟩ := h.seated hseat
  rcases hacc with ⟨hn, -⟩ | ⟨k, hk, hacc⟩
  · cases hn
  · obtain rfl := Option.some.inj hk
    exact hacc

lemma put_all (hl : msg.body.length ≤ maxMessageSize .media) (hs : 1 < fragmentsOf msg.body.length) (hid : 1 ≤ id)
    (rest : List ℕ) (hb : m.Blank) (h : Sole m id i slot) (hh : Holds msg slot) (hnodup : (j :: rest).Nodup)
    (hlt : ∀ k ∈ j :: rest, k < fragmentsOf msg.body.length ∧ k ∉ arrived slot)
    (hcount : (arrived slot).card + rest.length + 1 = fragmentsOf msg.body.length) :
    (m.put i (datagramAt link .media id msg j).header (datagramAt link .media id msg j).body).2 ::
        ((m.put i (datagramAt link .media id msg j).header (datagramAt link .media id msg j).body).1.acceptAll
          (rest.map (datagramAt link .media id msg))).2 =
      List.replicate rest.length none ++ [some ⟨msg.tag, msg.body⟩] := by
  induction rest generalizing j m slot with
  | nil =>
    have hj := joins_datagramAt link id hl (hlt j List.mem_cons_self).1 hs
    rcases put_joins h.toAt hh hj with ⟨hin, -⟩ | ⟨-, hmore, -⟩ | ⟨-, -, hput⟩
    · exact absurd hin (hlt j List.mem_cons_self).2
    · rw [List.length_nil] at hcount
      omega
    · rw [hput]
      rfl
  | cons k rest ih =>
    have hj := joins_datagramAt link id hl (hlt j List.mem_cons_self).1 hs
    have hk := joins_datagramAt link id hl (hlt k (by simp)).1 hs
    rw [List.length_cons] at hcount
    rcases put_joins h.toAt hh hj with ⟨hin, -⟩ | ⟨hnew, -, hput⟩ | ⟨-, hdone, -⟩
    · exact absurd hin (hlt j List.mem_cons_self).2
    · have hsole := h.store (datagramAt link .media id msg j).header (datagramAt link .media id msg j).body
      have harr := hh.arrived_store hj
      have hblank := hb.put h.toAt (datagramAt link .media id msg j).header (datagramAt link .media id msg j).body
      rw [hput] at hblank ⊢
      rw [List.map_cons, acceptAll]
      dsimp only
      rw [hsole.accept hblank hk (fragmentsOf_media hl) (seq_datagramAt link id .media msg k) hid,
        ih hblank hsole (hh.store hj hnew)]
      · rfl
      · exact (List.nodup_cons.mp hnodup).2
      · intro k' hk'
        rw [harr, Finset.mem_insert, not_or]
        refine ⟨(hlt k' (List.mem_cons_of_mem _ hk')).1, ?_, (hlt k' (List.mem_cons_of_mem _ hk')).2⟩
        rintro rfl
        exact (List.nodup_cons.mp hnodup).1 hk'
      · rw [harr, Finset.card_insert_of_notMem hnew]
        omega
    · omega

lemma accept_free {body : List UInt8} (hb : m.Blank)
    (hfree : ∃ s ∈ m.mSlots, s.used = false)
    (hn : m.Without id) (hj : Joins msg j header body) (hs : fragmentsOf msg.body.length ≤ 64)
    (hseq : header.seq = id + j) (hid : 1 ≤ id) :
    ∃ m' i, m'.Blank ∧ Sole m' id i (fresh id (fragmentsOf msg.body.length)) ∧
      m.accept header body = m'.put i header body := by
  obtain ⟨target, m', hseat, hacc⟩ := accept_of_passes hb (hj.passes hs (by omega))
  rw [hseq, hj.fragIndex, Nat.add_sub_cancel, hj.fragCount] at hseat
  obtain ⟨s, hm, hu⟩ := hfree
  cases hseat with
  | has ha hown => exact absurd hown (hn _ _ ha)
  | free _ hk _ =>
    obtain ⟨k, hk', hacc⟩ := hacc.resolve_left fun hbad => nomatch hbad.1
    obtain rfl := Option.some.inj hk'
    refine ⟨_, _, hb.set (fun hu => absurd hu.symm Bool.false_ne_true) _,
      sole_set (List.getElem?_eq_some_iff.mp hk).1 (fun k s hk hs => absurd hs (hn k s hk))
      rfl rfl _, hacc⟩
  | evict _ hall _ _ =>
    rw [(hall s hm).1] at hu
    cases hu
  | refuse _ hall =>
    rw [(hall s hm).1] at hu
    cases hu

lemma acceptAll_datagrams {fed : List Packet} (hl : msg.body.length ≤ maxMessageSize .media) (hid : 1 ≤ id)
    (hb : m.Blank) (hfree : ∃ s ∈ m.mSlots, s.used = false) (hn : m.Without id)
    (hfed : fed.Perm (datagrams link .media id (cursorFor msg))) :
    (m.acceptAll fed).2 = List.replicate (fragmentsOf msg.body.length - 1) none ++ [some ⟨msg.tag, msg.body⟩] := by
  rw [datagrams_cursorFor] at hfed
  by_cases hs : 1 < fragmentsOf msg.body.length
  · -- the fragments name their places, so the order they come in is that of the indices
    have hat : ∀ p ∈ fed, datagramAt link .media id msg p.header.fragIndex = p := by
      intro p hp
      obtain ⟨k, hk, rfl⟩ := List.mem_map.mp (hfed.mem_iff.mp hp)
      rw [(joins_datagramAt link id hl (List.mem_range.mp hk) hs).fragIndex]
    have horder : (fed.map (·.header.fragIndex)).Perm (List.range (fragmentsOf msg.body.length)) := by
      have hmap := hfed.map (·.header.fragIndex)
      rw [List.map_map] at hmap
      refine hmap.trans (.of_eq ?_)
      conv_rhs => rw [← List.map_id (List.range _)]
      refine List.map_congr_left fun k hk => ?_
      exact (joins_datagramAt link id hl (List.mem_range.mp hk) hs).fragIndex
    have hsplit : fed = (fed.map (·.header.fragIndex)).map (datagramAt link .media id msg) := by
      rw [List.map_map]
      conv_lhs => rw [← List.map_id fed]
      exact List.map_congr_left fun p hp => (hat p hp).symm
    rw [hsplit]
    generalize fed.map (·.header.fragIndex) = order at horder
    have hlength := horder.length_eq
    rw [List.length_range] at hlength
    cases order with
    | nil =>
      rw [List.length_nil] at hlength
      omega
    | cons j rest =>
      have hlt : ∀ k ∈ j :: rest, k < fragmentsOf msg.body.length :=
        fun k hk => List.mem_range.mp (horder.mem_iff.mp hk)
      have hj := joins_datagramAt link id hl (hlt j List.mem_cons_self) hs
      obtain ⟨m', i, hblank, hsole, hacc⟩ :=
        accept_free hb hfree hn hj (fragmentsOf_media hl) (seq_datagramAt link id .media msg j) hid
      rw [List.length_cons] at hlength
      rw [List.map_cons, acceptAll]
      dsimp only
      rw [hacc, put_all hl hs hid rest hblank hsole (holds_fresh id msg) (horder.nodup_iff.mpr List.nodup_range)]
      · rw [← hlength, Nat.add_sub_cancel]
      · intro k hk
        rw [arrived_fresh]
        exact ⟨hlt k hk, Finset.notMem_empty k⟩
      · rw [arrived_fresh, Finset.card_empty]
        omega
  · have hone : fragmentsOf msg.body.length = 1 := by
      have hpos := fragmentsOf_pos msg.body.length
      omega
    rw [hone] at hfed ⊢
    obtain rfl := List.perm_singleton.mp hfed
    obtain ⟨hnone, htag, hbody⟩ :=
      (carries_datagramAt link id .media msg 0).whole (hl.trans (maxMessageSize_le .media)) hs
    rw [acceptAll, acceptAll]
    dsimp only
    rw [accept_unfragmented m hnone, htag, hbody]
    rfl

end MediaAssembler

theorem fragmentation_round_trip (link : ℕ → ReliableLink) (lane : Lane) (seq : ℕ) (m : OutboundMessage)
    (hid : ∀ i, (link i).mLocalStreamID ≠ 0) (hseq : 1 ≤ seq) (hwrap : seq + fragmentsOf m.body.length ≤ 2 ^ 64)
    (hl : m.body.length ≤ maxMessageSize lane) :
    (datagrams link lane seq (cursorFor m)).length = fragmentsOf m.body.length ∧
    (∀ p ∈ datagrams link lane seq (cursorFor m), p.bytes.length ≤ MaxDatagramSize ∧
      decodePacket p.bytes = some p) ∧
    (∀ i < fragmentsOf m.body.length, fragmentAt { cursorFor m with next := i } =
      { message := m.body, offset := i * MaxFragmentBody,
        length := min MaxFragmentBody (m.body.length - i * MaxFragmentBody),
        tag := m.tag, totalLength := m.body.length, fragIndex := i, fragCount := fragmentsOf m.body.length }) ∧
    (∀ (a : MessageAssembler) (fed : List (Option AssemblyBudget × Packet)),
      fed.map Prod.snd = datagrams link lane seq (cursorFor m) → a.Room fed →
      (a.acceptAll fed).2 = List.replicate (fragmentsOf m.body.length - 1) none ++ [some ⟨m.tag, m.body⟩] ∧
        (a.acceptAll fed).1.mAssembling = false) ∧
    (∀ fed : List Packet, (MediaAssembler.acceptAll {} fed).1.Blank) ∧
    (lane = .media → ∀ (a : MediaAssembler) (fed : List Packet), a.Blank → (∃ s ∈ a.mSlots, s.used = false) →
      a.Without seq → fed.Perm (datagrams link lane seq (cursorFor m)) →
      (a.acceptAll fed).2 = List.replicate (fragmentsOf m.body.length - 1) none ++ [some ⟨m.tag, m.body⟩]) := by
  refine ⟨?_, fun p hp => ?_, fun i hi => fragmentAt_cursor (hl.trans (maxMessageSize_le lane)) hi,
    fun a fed hfed hroom => ?_, MediaAssembler.blank_empty.acceptAll, ?_⟩
  · rw [datagrams_cursorFor, List.length_map, List.length_range]
  · rw [datagrams_cursorFor] at hp
    obtain ⟨i, hi, rfl⟩ := List.mem_map.mp hp
    rw [List.mem_range] at hi
    refine ⟨?_, decodePacket_datagramAt link seq (hid i) hseq (by omega) hl hi⟩
    rw [Packet.bytes, encodePacket, List.length_append, length_encodeHeader]
    exact size_datagramAt link seq hl hi
  · rw [MessageAssembler.acceptAll_datagrams hl hfed hroom]
    exact ⟨rfl, rfl⟩
  · rintro rfl a fed hb hfree hn hfed
    exact MediaAssembler.acceptAll_datagrams hl hseq hb hfree hn hfed

def twoFragments : OutboundMessage := { tag := 5, body := List.replicate (MaxFragmentBody + 1) 0 }

theorem fragmentation_round_trip_two :
    (datagrams (fun _ => .new {} 7 none) .media 1 (cursorFor twoFragments)).length = 2 ∧
    ((({} : MediaAssembler).acceptAll
      (datagrams (fun _ => .new {} 7 none) .media 1 (cursorFor twoFragments)).reverse).2 =
      [none, some ⟨5, twoFragments.body⟩]) := by
  have hl : twoFragments.body.length = MaxFragmentBody + 1 := List.length_replicate
  have htwo : fragmentsOf twoFragments.body.length = 2 := by
    rw [hl]
    decide
  obtain ⟨hlength, -, -, -, hblank, hmedia⟩ :=
    fragmentation_round_trip (fun _ => .new {} 7 none) .media 1 twoFragments
    (fun _ => by decide) le_rfl (by rw [htwo]; decide) (by rw [hl]; decide)
  rw [htwo] at hlength hmedia
  refine ⟨hlength, hmedia rfl {} _ (hblank []) ⟨{}, by decide, rfl⟩ ?_ (List.reverse_perm _)⟩
  intro i slot h
  have hmem := List.mem_of_getElem? h.mem
  rw [List.eq_of_mem_replicate hmem] at h
  cases h.used

end NetLink.Channel
