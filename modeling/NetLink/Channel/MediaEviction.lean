import NetLink.Channel.MediaStream

/-! Who has to leave when the slots of a media assembler are full: a message is given up only for newer ones, so
one that few newer ones crowd gets complete. -/

namespace NetLink.Channel.MediaAssembler

section Seat

variable {link : ℕ → ReliableLink} {seq id j k given : ℕ} {messages : List OutboundMessage} {msg : OutboundMessage}
  {p : Packet} {m : MediaAssembler} {header : PacketHeader}

inductive Seat (m : MediaAssembler) (id k : ℕ) : ℕ → Prop
  | has {slot : Slot} (h : m.At k slot) (hid : slot.id = id) : Seat m id k 0
  | free {slot : Slot} (hn : m.Without id) (hm : m.mSlots[k]? = some slot) (hu : slot.used = false) : Seat m id k 0
  | evict {slot : Slot} (hn : m.Without id) (hall : ∀ s ∈ m.mSlots, s.used = true ∧ slot.id ≤ s.id)
    (h : m.At k slot)
      (hlt : slot.id < id) : Seat m id k 1

structure Refuses (m : MediaAssembler) (id : ℕ) : Prop where
  without : m.Without id
  newer : ∀ s ∈ m.mSlots, s.used = true ∧ id < s.id

structure Filled (m : MediaAssembler) (id count j k : ℕ) (new : Slot) (out : Option AssembledMessage) : Prop where
  own : new.used = true → new.id = id
  arrived : ∀ i ∈ arrived new, i = j ∨ ∃ slot, m.At k slot ∧ slot.id = id ∧ i ∈ arrived slot
  done : out.isSome = true → new.used = false ∧
    ∃ slot, m.At k slot ∧ slot.id = id ∧ ∀ i < count, i ≠ j → i ∈ MediaAssembler.arrived slot

lemma Seated.seat {count : ℕ} {target : Option ℕ} {m' : MediaAssembler} (h : Seated m id count target m') :
    m.Refuses id ∧ target = none ∧ m' = m ∨ ∃ k given, Seat m id k given ∧ target = some k ∧
      ∀ new, { m' with mSlots := m'.mSlots.set k new } =
        ({ mSlots := m.mSlots.set k new, mAbandoned := m.mAbandoned + given } : MediaAssembler) := by
  cases h with
  | has ha hown => exact .inr ⟨_, 0, .has ha hown, rfl, fun _ => rfl⟩
  | free hnone hm hu => exact .inr ⟨_, 0, .free hnone hm hu, rfl, fun new => by rw [List.set_set]; rfl⟩
  | evict hnone hall ha hlt => exact .inr ⟨_, 1, .evict hnone hall ha hlt, rfl, fun new => by rw [List.set_set]⟩
  | refuse hnone hall => exact .inl ⟨⟨hnone, hall⟩, rfl, rfl⟩

lemma mem_arrived_of_done {slot : Slot} {body : List UInt8} (hh : Holds msg slot)
    (hj : Joins msg j header body) (hnew : j ∉ arrived slot)
    (hdone : fragmentsOf msg.body.length ≤ (arrived slot).card + 1) :
    ∀ a < fragmentsOf msg.body.length, a ≠ j → a ∈ arrived slot := by
  have hall : insert j (arrived slot) = Finset.range (fragmentsOf msg.body.length) := by
    refine Finset.eq_of_subset_of_card_le (fun a ha => Finset.mem_range.mpr ?_) ?_
    · rcases Finset.mem_insert.mp ha with rfl | ha
      · exact hj.index
      · rw [← hh.count]
        exact (mem_arrived.mp ha).1
    · rw [Finset.card_range, Finset.card_insert_of_notMem hnew]
      exact hdone
  intro a ha hne
  rw [← Finset.mem_range, ← hall, Finset.mem_insert] at ha
  exact ha.resolve_left hne

lemma Seated.filled {m' : MediaAssembler} {body : List UInt8}
    (hs : Seated m id (fragmentsOf msg.body.length) (some k) m') (hj : Joins msg j header body)
    (hh : ∀ slot, m'.At k slot → slot.id = id → Holds msg slot) :
    ∃ new, (m'.put k header body).1 = { m' with mSlots := m'.mSlots.set k new } ∧
      Filled m id (fragmentsOf msg.body.length) j k new (m'.put k header body).2 := by
  obtain ⟨slot, hat, hown, hold⟩ := hs.at
  have hholds := hh slot hat hown
  -- what arrived in the slot arrived before: a slot that was just claimed has nothing
  have hthere : ∀ a ∈ arrived slot, m' = m := by
    rintro a ha
    rcases hold with hold | rfl
    · exact hold
    · rw [arrived_fresh] at ha
      exact absurd ha (Finset.notMem_empty a)
  rcases put_joins hat hholds hj with ⟨-, hput⟩ | ⟨-, -, hput⟩ | ⟨hnew, hdone, hput⟩
  · refine ⟨slot, ?_, fun _ => hown, fun a ha => .inr ⟨slot, hthere a ha ▸ hat, hown, ha⟩, ?_⟩
    · obtain ⟨hi, he⟩ := List.getElem?_eq_some_iff.mp hat.mem
      rw [hput, ← he, List.set_getElem_self]
    · rw [hput]
      exact nofun
  · refine ⟨_, congrArg Prod.fst hput, fun _ => ?_, fun a ha => ?_, ?_⟩
    · rw [id_store, hown]
    · rw [hholds.arrived_store hj] at ha
      exact (Finset.mem_insert.mp ha).imp_right fun ha => ⟨slot, hthere a ha ▸ hat, hown, ha⟩
    · rw [hput]
      exact nofun
  · have hrest := mem_arrived_of_done hholds hj hnew hdone
    obtain ⟨a, ha, hne⟩ : ∃ a < fragmentsOf msg.body.length, a ≠ j := by
      have hseveral := hj.several
      rcases Nat.eq_zero_or_pos j with rfl | hpos
      · exact ⟨1, hseveral, by decide⟩
      · exact ⟨0, by omega, hpos.ne⟩
    refine ⟨_, congrArg Prod.fst hput, fun hu => absurd hu Bool.false_ne_true, fun a ha => ?_,
      fun _ => ⟨rfl, slot, hthere a (hrest a ha hne) ▸ hat, hown, hrest⟩⟩
    exact absurd (mem_arrived.mp ha).1 (Nat.not_lt_zero a)

lemma accept_seat (h : Every (Honest seq messages) m) (hp : Part link seq messages p id msg j)
    (hs : MediaSized messages) (hn : 1 < fragmentsOf msg.body.length) (hid : 1 ≤ id) :
    m.Refuses id ∧ m.accept p.header p.body = (m, none) ∨
      ∃ k given new, Seat m id k given ∧
        (m.accept p.header p.body).1 = { mSlots := m.mSlots.set k new, mAbandoned := m.mAbandoned + given } ∧
        Filled m id (fragmentsOf msg.body.length) j k new (m.accept p.header p.body).2 := by
  have hj := hp.joins hs hn
  have hseq := hp.seq_eq
  obtain ⟨target, m', hseat, hacc⟩ :=
    accept_of_passes h.blank (hj.passes (fragmentsOf_media (hp.length_le hs)) (by omega))
  rw [hseq, hj.fragIndex, Nat.add_sub_cancel, hj.fragCount] at hseat
  have hevery := hseat.every h ⟨msg, hp.mem, holds_fresh id msg⟩
  rcases hseat.seat with ⟨hrefuses, rfl, rfl⟩ | ⟨k, given, hk, rfl, hset⟩
  · exact .inl ⟨hrefuses, (hacc.resolve_right fun ⟨_, hi, _⟩ => nomatch hi).2⟩
  · obtain ⟨i, hi, hacc⟩ := hacc.resolve_left fun hbad => nomatch hbad.1
    obtain rfl := Option.some.inj hi
    obtain ⟨new, he, hfilled⟩ := hseat.filled hj fun slot hat hown =>
      (hevery.each k slot hat).holds (hown.symm ▸ hp.mem)
    rw [hacc]
    exact .inr ⟨k, given, new, hk, he.trans (hset new), hfilled⟩

end Seat

section Orderly

variable {link : ℕ → ReliableLink} {seq id j k given : ℕ} {messages : List OutboundMessage} {msg : OutboundMessage}
  {p : Packet} {m : MediaAssembler} {new : Slot}

structure Orderly (seq : ℕ) (messages : List OutboundMessage) (m : MediaAssembler) : Prop where
  honest : Every (Honest seq messages) m
  distinct : ∀ k l s t, m.At k s → m.At l t → s.id = t.id → k = l
  length : m.mSlots.length = MediaAssemblySlots

lemma orderly_empty (seq : ℕ) (messages : List OutboundMessage) : Orderly seq messages {} := by
  refine ⟨every_empty _, fun k l s t hk => ?_, rfl⟩
  exact absurd hk.used (by rw [List.eq_of_mem_replicate (List.mem_of_getElem? hk.mem)]; decide)

lemma Orderly.sole {slot : Slot} (h : Orderly seq messages m) (ha : m.At k slot) (hid : slot.id = id) :
    Sole m id k slot :=
  ⟨ha, hid, fun l s hl hs => h.distinct l k s slot hl ha (hs.trans hid.symm)⟩

lemma Seat.only (h : Orderly seq messages m) (hseat : Seat m id k given) {l : ℕ} {s : Slot} (hl : m.At l s)
    (hs : s.id = id) :
    l = k := by
  cases hseat with
  | has ha hid => exact h.distinct l k s _ hl ha (hs.trans hid.symm)
  | free hn _ _ => exact absurd hs (hn l s hl)
  | evict hn _ _ _ => exact absurd hs (hn l s hl)

lemma Orderly.accept (h : Orderly seq messages m) (hp : Part link seq messages p id msg j)
    (hs : MediaSized messages) (hid : 1 ≤ id) : Orderly seq messages (m.accept p.header p.body).1 := by
  have hhonest := (accept_part h.honest hp hs).1
  by_cases hn : 1 < fragmentsOf msg.body.length
  · rcases accept_seat h.honest hp hs hn hid with ⟨-, hacc⟩ | ⟨k, given, new, hseat, hacc, hnew⟩
    · rw [hacc]
      exact h
    · refine ⟨hhonest, ?_, ?_⟩
      · rw [hacc]
        intro a b s t ha hb hst
        rcases at_set ha with ⟨rfl, rfl⟩ | ⟨hak, ha'⟩ <;> rcases at_set hb with ⟨rfl, rfl⟩ | ⟨hbk, hb'⟩
        · rfl
        · exact absurd (hseat.only h hb' (hst.symm.trans (hnew.own ha.used))) hbk
        · exact absurd (hseat.only h ha' (hst.trans (hnew.own hb.used))) hak
        · exact h.distinct a b s t ha' hb' hst
      · rw [hacc]
        exact List.length_set.trans h.length
  · rw [accept_unfragmented m (hp.whole hs hn).1]
    exact h

def occupied (m : MediaAssembler) : Finset ℕ := ((m.mSlots.filter (·.used)).map (·.id)).toFinset

lemma mem_occupied : id ∈ occupied m ↔ ∃ k slot, m.At k slot ∧ slot.id = id := by
  rw [occupied, List.mem_toFinset, List.mem_map]
  constructor
  · rintro ⟨slot, hs, hid⟩
    obtain ⟨hm, hu⟩ := List.mem_filter.mp hs
    obtain ⟨k, hk⟩ := List.getElem?_of_mem hm
    exact ⟨k, slot, ⟨hk, hu⟩, hid⟩
  · rintro ⟨k, slot, hk, hid⟩
    exact ⟨slot, List.mem_filter.mpr ⟨List.mem_of_getElem? hk.mem, hk.used⟩, hid⟩

lemma occupied_empty : occupied {} = ∅ := by decide

lemma Orderly.card_occupied (h : Orderly seq messages m) (hall : ∀ s ∈ m.mSlots, s.used = true) :
    MediaAssemblySlots ≤ (occupied m).card := by
  have hat : ∀ k < MediaAssemblySlots, m.At k (m.mSlots.getD k {}) := by
    intro k hk
    rw [← h.length] at hk
    have hm := exists_of_mem_range (List.mem_range.mpr hk)
    exact ⟨hm, hall _ (List.mem_of_getElem? hm)⟩
  rw [← Finset.card_range MediaAssemblySlots]
  refine Finset.card_le_card_of_injOn (fun k => (m.mSlots.getD k {}).id) (fun k hk => ?_) fun a ha b hb he => ?_
  · exact mem_occupied.mpr ⟨k, _, hat k (Finset.mem_range.mp hk), rfl⟩
  · exact h.distinct a b _ _ (hat a (Finset.mem_range.mp ha)) (hat b (Finset.mem_range.mp hb)) he

end Orderly

section Keeping

variable {link : ℕ → ReliableLink} {seq id other j i k given n : ℕ} {messages : List OutboundMessage}
  {msg msg' : OutboundMessage} {p : Packet} {m : MediaAssembler} {new slot : Slot} {crowd has : Finset ℕ}

lemma occupied_set {l : ℕ} (hnew : new.used = true → new.id = other)
    (h : l ∈ occupied { mSlots := m.mSlots.set k new, mAbandoned := n }) : l = other ∨ l ∈ occupied m := by
  obtain ⟨a, s, ha, rfl⟩ := mem_occupied.mp h
  rcases at_set ha with ⟨-, rfl⟩ | ⟨-, ha'⟩
  · exact .inl (hnew ha.used)
  · exact .inr (mem_occupied.mpr ⟨a, s, ha', rfl⟩)

structure Keeping (seq : ℕ) (messages : List OutboundMessage) (crowd : Finset ℕ) (id : ℕ) (msg : OutboundMessage)
    (has : Finset ℕ) (m : MediaAssembler) : Prop extends Orderly seq messages m where
  own : ∃ i slot, m.At i slot ∧ slot.id = id ∧ Holds msg slot ∧ arrived slot = has
  newer : ∀ l ∈ occupied m, id < l → l ∈ crowd

lemma Keeping.not_oldest (h : Keeping seq messages crowd id msg has m) (hc : crowd.card < MediaAssemblySlots)
    (hn : m.Without other) (hall : ∀ s ∈ m.mSlots, s.used = true ∧ id ≤ s.id) (hlt : id < other)
    (hin : other ∈ crowd) : False := by
  have hcard := h.toOrderly.card_occupied fun s hs => (hall s hs).1
  have hnot : other ∉ occupied m := by
    intro ho
    obtain ⟨a, s, ha, hs⟩ := mem_occupied.mp ho
    exact hn a s ha hs
  have hsub : insert other (occupied m) ⊆ insert id crowd := by
    intro l hl
    rcases Finset.mem_insert.mp hl with rfl | hl
    · exact Finset.mem_insert_of_mem hin
    · obtain ⟨a, s, ha, rfl⟩ := mem_occupied.mp hl
      rcases Nat.eq_or_lt_of_le (hall s (List.mem_of_getElem? ha.mem)).2 with he | hs
      · rw [← he]
        exact Finset.mem_insert_self _ _
      · exact Finset.mem_insert_of_mem (h.newer _ hl hs)
  have hle := (Finset.card_le_card hsub).trans (Finset.card_insert_le id crowd)
  rw [Finset.card_insert_of_notMem hnot] at hle
  omega

lemma Keeping.accept_other (h : Keeping seq messages crowd id msg has m) (hc : crowd.card < MediaAssemblySlots)
    (hp : Part link seq messages p other msg' j) (hs : MediaSized messages) (hid : 1 ≤ other) (hne : other ≠ id)
    (hin : 1 < fragmentsOf msg'.body.length → id < other → other ∈ crowd) :
    Keeping seq messages crowd id msg has (m.accept p.header p.body).1 := by
  refine ⟨h.toOrderly.accept hp hs hid, ?_, ?_⟩ <;> by_cases hn : 1 < fragmentsOf msg'.body.length
  · obtain ⟨i, slot, ha, hown, hh, harr⟩ := h.own
    rcases accept_seat h.honest hp hs hn hid with ⟨-, hacc⟩ | ⟨k, given, new, hseat, hacc, hnew⟩
    · rw [hacc]
      exact h.own
    · have hki : k ≠ i := by
        rintro rfl
        cases hseat with
        | has ha' hid' =>
          rw [Option.some.inj (ha'.mem.symm.trans ha.mem)] at hid'
          exact hne (hid'.symm.trans hown)
        | free _ hm hu =>
          rw [Option.some.inj (hm.symm.trans ha.mem), ha.used] at hu
          cases hu
        | evict hnone hall ha' hlt =>
          rw [Option.some.inj (ha'.mem.symm.trans ha.mem), hown] at hall hlt
          exact h.not_oldest hc hnone hall hlt (hin hn hlt)
      rw [hacc]
      exact ⟨i, slot, ⟨(List.getElem?_set_ne hki).trans ha.mem, ha.used⟩, hown, hh, harr⟩
  · rw [accept_unfragmented m (hp.whole hs hn).1]
    exact h.own
  · intro l hl hlt
    rcases accept_seat h.honest hp hs hn hid with ⟨-, hacc⟩ | ⟨k, given, new, hseat, hacc, hnew⟩
    · rw [hacc] at hl
      exact h.newer l hl hlt
    · rw [hacc] at hl
      rcases occupied_set hnew.own hl with rfl | hl
      · exact hin hn hlt
      · exact h.newer l hl hlt
  · rw [accept_unfragmented m (hp.whole hs hn).1]
    exact h.newer

lemma Keeping.accept_own (h : Keeping seq messages crowd id msg has m) (hp : Part link seq messages p id msg j)
    (hs : MediaSized messages) (hn : 1 < fragmentsOf msg.body.length) (hid : 1 ≤ id) (hnew : j ∉ has) :
    (has.card + 1 < fragmentsOf msg.body.length ∧ (m.accept p.header p.body).2 = none ∧
        Keeping seq messages crowd id msg (insert j has) (m.accept p.header p.body).1) ∨
      (fragmentsOf msg.body.length ≤ has.card + 1 ∧ (m.accept p.header p.body).2 = some ⟨msg.tag, msg.body⟩) := by
  obtain ⟨i, slot, ha, hown, hh, rfl⟩ := h.own
  have hj := hp.joins hs hn
  have hsole := h.toOrderly.sole ha hown
  have hacc := hsole.accept h.honest.blank hj (fragmentsOf_media (hp.length_le hs)) hp.seq_eq hid
  rcases put_joins ha hh hj with ⟨hin, -⟩ | ⟨-, hmore, hput⟩ | ⟨-, hdone, hput⟩
  · exact absurd hin hnew
  · refine .inl ⟨hmore, ?_, h.toOrderly.accept hp hs hid, ?_, ?_⟩
    · rw [hacc, hput]
    · rw [hacc, hput]
      have hstored := hsole.store p.header p.body
      exact ⟨i, _, hstored.toAt, hstored.own, hh.store hj hnew, hh.arrived_store hj⟩
    · rw [hacc, hput]
      intro l hl hlt
      rcases occupied_set (fun _ => (id_store slot p.header p.body).trans hown) hl with rfl | hl
      · exact absurd hlt (Nat.lt_irrefl _)
      · exact h.newer l hl hlt
  · refine .inr ⟨hdone, ?_⟩
    rw [hacc, hput]

lemma put_fresh (hj : Joins msg j p.header p.body) (hk : k < m.mSlots.length) (n : ℕ) :
    MediaAssembler.put { mSlots := m.mSlots.set k (fresh id (fragmentsOf msg.body.length)), mAbandoned := n } k
      p.header p.body =
      ({ mSlots := m.mSlots.set k (store (fresh id (fragmentsOf msg.body.length)) p.header p.body),
         mAbandoned := n }, none) := by
  have hat : At { mSlots := m.mSlots.set k (fresh id (fragmentsOf msg.body.length)), mAbandoned := n } k
      (fresh id (fragmentsOf msg.body.length)) := ⟨List.getElem?_set_self hk, rfl⟩
  have hseveral := hj.several
  have hempty := arrived_fresh id (fragmentsOf msg.body.length)
  rcases put_joins hat (holds_fresh id msg) hj with ⟨hin, -⟩ | ⟨-, -, hput⟩ | ⟨-, hdone, -⟩
  · rw [hempty] at hin
    exact absurd hin (Finset.notMem_empty j)
  · rw [hput]
    dsimp only
    rw [List.set_set]
  · rw [hempty, Finset.card_empty] at hdone
    omega

lemma keeping_of_store (hj : Joins msg j p.header p.body) (hk : k < m.mSlots.length)
    (horder : Orderly seq messages
      { mSlots := m.mSlots.set k (store (fresh id (fragmentsOf msg.body.length)) p.header p.body),
        mAbandoned := n })
    (hnewer : ∀ l ∈ occupied m, id < l → l ∈ crowd) : Keeping seq messages crowd id msg {j}
      { mSlots := m.mSlots.set k (store (fresh id (fragmentsOf msg.body.length)) p.header p.body),
        mAbandoned := n } := by
  have hh := holds_fresh id msg
  have hempty := arrived_fresh id (fragmentsOf msg.body.length)
  have hid : (store (fresh id (fragmentsOf msg.body.length)) p.header p.body).id = id := id_store _ _ _
  refine ⟨horder, ⟨k, _, ⟨List.getElem?_set_self hk, used_store _ _ _⟩, hid, hh.store hj ?_, ?_⟩,
    fun l hl hlt => ?_⟩
  · rw [hempty]
    exact Finset.notMem_empty j
  · rw [hh.arrived_store hj, hempty]
    rfl
  · rcases occupied_set (fun _ => hid) hl with rfl | hl
    · exact absurd hlt (Nat.lt_irrefl _)
    · exact hnewer l hl hlt

lemma keeping_first (h : Orderly seq messages m) (hw : m.Without id) (hp : Part link seq messages p id msg j)
    (hs : MediaSized messages) (hn : 1 < fragmentsOf msg.body.length) (hid : 1 ≤ id)
    (hc : crowd.card < MediaAssemblySlots) (hnewer : ∀ l ∈ occupied m, id < l → l ∈ crowd) :
    (m.accept p.header p.body).2 = none ∧ Keeping seq messages crowd id msg {j} (m.accept p.header p.body).1 := by
  have hj := hp.joins hs hn
  have hseq := hp.seq_eq
  have horder := h.accept hp hs hid
  obtain ⟨target, m', hseat, hacc⟩ :=
    accept_of_passes h.honest.blank (hj.passes (fragmentsOf_media (hp.length_le hs)) (by omega))
  rw [hseq, hj.fragIndex, Nat.add_sub_cancel, hj.fragCount] at hseat
  cases hseat with
  | has ha hown => exact absurd hown (hw _ _ ha)
  | free _ hm _ =>
    obtain ⟨k, hk, hacc⟩ := hacc.resolve_left fun hbad => nomatch hbad.1
    obtain rfl := Option.some.inj hk
    have hlt := (List.getElem?_eq_some_iff.mp hm).1
    rw [hacc, put_fresh hj hlt] at horder ⊢
    exact ⟨rfl, keeping_of_store hj hlt horder hnewer⟩
  | evict _ _ ha _ =>
    obtain ⟨k, hk, hacc⟩ := hacc.resolve_left fun hbad => nomatch hbad.1
    obtain rfl := Option.some.inj hk
    rw [hacc, put_fresh hj (lt_length_of_at ha)] at horder ⊢
    exact ⟨rfl, keeping_of_store hj (lt_length_of_at ha) horder hnewer⟩
  | refuse _ hall =>
    have hcard := h.card_occupied fun s hs => (hall s hs).1
    have hsub : occupied m ⊆ crowd := by
      intro l hl
      obtain ⟨a, s, ha, rfl⟩ := mem_occupied.mp hl
      exact hnewer _ hl (hall s (List.mem_of_getElem? ha.mem)).2
    have hle := Finset.card_le_card hsub
    omega

end Keeping

def messageOf (p : Packet) : ℕ := p.header.seq - p.header.fragIndex

section Runs

variable {link : ℕ → ReliableLink} {seq id j : ℕ} {messages : List OutboundMessage} {msg msg' : OutboundMessage}
  {p : Packet} {m : MediaAssembler} {crowd has : Finset ℕ} {fed rest : List Packet}

lemma messageOf_part (h : Part link seq messages p id msg j) (hs : MediaSized messages) : messageOf p = id := by
  have hseq := h.seq_eq
  have hindex := h.index
  by_cases hn : 1 < fragmentsOf msg.body.length
  · rw [messageOf, hseq, (h.joins hs hn).fragIndex, Nat.add_sub_cancel]
  · have hzero : p.header.fragIndex = 0 := by
      have hf := (h.whole hs hn).1
      rw [h.packet] at hf ⊢
      exact if_neg (ne_true_of_eq_false hf)
    rw [messageOf, hseq, hzero]
    omega

lemma part_of_messageOf (hp : p ∈ mediaStream link seq messages) (hs : MediaSized messages)
    (hm : (id, msg) ∈ numbered seq messages) (hid : messageOf p = id) :
    ∃ j, Part link seq messages p id msg j := by
  obtain ⟨id', msg', j, h⟩ := part_of_mem hp
  rw [messageOf_part h hs] at hid
  subst hid
  rw [numbered_unique hm h.mem]
  exact ⟨j, h⟩

lemma Orderly.acceptAll (h : Orderly seq messages m) (hs : MediaSized messages) (hseq : 1 ≤ seq)
    (hfed : ∀ p ∈ fed, p ∈ mediaStream link seq messages) : Orderly seq messages (m.acceptAll fed).1 := by
  induction fed generalizing m with
  | nil => exact h
  | cons p rest ih =>
    obtain ⟨id, msg, j, hp⟩ := part_of_mem (hfed p List.mem_cons_self)
    exact ih (h.accept hp hs (hseq.trans (le_of_mem_numbered hp.mem))) fun q hq =>
      hfed q (List.mem_cons_of_mem _ hq)

lemma occupied_acceptAll (h : Orderly seq messages m) (hs : MediaSized messages) (hseq : 1 ≤ seq)
    (hfed : ∀ p ∈ fed, p ∈ mediaStream link seq messages) :
    ∀ l ∈ occupied (m.acceptAll fed).1, l ∈ occupied m ∨ ∃ p ∈ fed, messageOf p = l := by
  induction fed generalizing m with
  | nil => exact fun l hl => .inl hl
  | cons p rest ih =>
    obtain ⟨id, msg, j, hp⟩ := part_of_mem (hfed p List.mem_cons_self)
    have hid := hseq.trans (le_of_mem_numbered hp.mem)
    intro l hl
    rcases ih (h.accept hp hs hid) (fun q hq => hfed q (List.mem_cons_of_mem _ hq)) l hl with hl | ⟨q, hq, hl⟩
    · by_cases hn : 1 < fragmentsOf msg.body.length
      · rcases accept_seat h.honest hp hs hn hid with ⟨-, hacc⟩ | ⟨k, given, new, -, hacc, hnew⟩
        · rw [hacc] at hl
          exact .inl hl
        · rw [hacc] at hl
          rcases occupied_set hnew.own hl with rfl | hl
          · exact .inr ⟨p, List.mem_cons_self, messageOf_part hp hs⟩
          · exact .inl hl
      · rw [accept_unfragmented m (hp.whole hs hn).1] at hl
        exact .inl hl
    · exact .inr ⟨q, List.mem_cons_of_mem _ hq, hl⟩

lemma Keeping.lt (h : Keeping seq messages crowd id msg has m) (hj : j ∈ has) :
    j < fragmentsOf msg.body.length := by
  obtain ⟨i, slot, -, -, hh, rfl⟩ := h.own
  rw [← hh.count]
  exact (mem_arrived.mp hj).1

def Awaits (link : ℕ → ReliableLink) (id : ℕ) (msg : OutboundMessage) (has : Finset ℕ)
    (rest : List Packet) : Prop :=
  ∀ j < fragmentsOf msg.body.length, j ∈ has ↔ datagramAt (fun i => link (id + i)) .media id msg j ∉ rest

lemma Awaits.own {q : Packet} (h : Awaits link id msg has (q :: rest)) (hp : Part link seq messages q id msg j)
    (hs : MediaSized messages) (hn : 1 < fragmentsOf msg.body.length) (hq : q ∉ rest) :
    Awaits link id msg (insert j has) rest := by
  intro j' hj'
  have hpart : Part link seq messages (datagramAt (fun i => link (id + i)) .media id msg j') id msg j' :=
    ⟨hp.mem, hj', rfl⟩
  have hsame : datagramAt (fun i => link (id + i)) .media id msg j' = q ↔ j' = j := by
    refine ⟨fun he => ?_, fun he => he ▸ hp.packet.symm⟩
    rw [← (hpart.joins hs hn).fragIndex, he, (hp.joins hs hn).fragIndex]
  have hold := h j' hj'
  rw [List.mem_cons, not_or, hsame] at hold
  rw [Finset.mem_insert, hold]
  refine ⟨?_, fun hr => ?_⟩
  · rintro (rfl | ⟨-, hr⟩)
    · rw [hsame.mpr rfl]
      exact hq
    · exact hr
  · by_cases he : j' = j
    · exact .inl he
    · exact .inr ⟨he, hr⟩

lemma Awaits.other {q : Packet} (h : Awaits link id msg has (q :: rest)) (hm : (id, msg) ∈ numbered seq messages)
    (hs : MediaSized messages) (hq : messageOf q ≠ id) : Awaits link id msg has rest := by
  intro j hj
  have hpart : Part link seq messages (datagramAt (fun i => link (id + i)) .media id msg j) id msg
    j := ⟨hm, hj, rfl⟩
  rw [h j hj, List.mem_cons, not_or, and_iff_right]
  intro he
  rw [← he, messageOf_part hpart hs] at hq
  exact hq rfl

lemma Awaits.le_card (h : Awaits link id msg has []) : fragmentsOf msg.body.length ≤ has.card := by
  have hsub : Finset.range (fragmentsOf msg.body.length) ⊆ has := fun j hj =>
    (h j (Finset.mem_range.mp hj)).mpr List.not_mem_nil
  have hle := Finset.card_le_card hsub
  rwa [Finset.card_range] at hle

lemma Awaits.messageOf_ne (h : Awaits link id msg has rest) (hlt : ∀ j ∈ has, j < fragmentsOf msg.body.length)
    (hle : fragmentsOf msg.body.length ≤ has.card) (hm : (id, msg) ∈ numbered seq messages)
    (hs : MediaSized messages) (hfed : ∀ p ∈ rest, p ∈ mediaStream link seq messages)
    (hp : p ∈ rest) : messageOf p ≠ id := by
  intro hid
  obtain ⟨j, hpart⟩ := part_of_messageOf (hfed p hp) hs hm hid
  have hall : has = Finset.range (fragmentsOf msg.body.length) := by
    refine Finset.eq_of_subset_of_card_le (fun l hl => Finset.mem_range.mpr (hlt l hl)) ?_
    rw [Finset.card_range]
    exact hle
  rw [hpart.packet] at hp
  refine (h j hpart.index).mp ?_ hp
  rw [hall]
  exact Finset.mem_range.mpr hpart.index

lemma Keeping.run (h : Keeping seq messages crowd id msg has m) (hc : crowd.card < MediaAssemblySlots)
    (hs : MediaSized messages) (hseq : 1 ≤ seq) (hm : (id, msg) ∈ numbered seq messages)
    (hn : 1 < fragmentsOf msg.body.length) (hfed : ∀ p ∈ rest, p ∈ mediaStream link seq messages)
    (hnodup : rest.Nodup)
    (hin : ∀ p ∈ rest, p.header.flags.isFragmented = true → id < messageOf p → messageOf p ∈ crowd)
    (hmissing : Awaits link id msg has rest) (hlast : ∀ p ∈ rest.getLast?, messageOf p = id) :
    ∀ k p, rest[k]? = some p → messageOf p = id →
      (m.acceptAll rest).2[k]? = some (if k + 1 = rest.length then some ⟨msg.tag, msg.body⟩ else none) := by
  induction rest generalizing has m with
  | nil => exact nofun
  | cons q rest ih =>
    have hid := hseq.trans (le_of_mem_numbered hm)
    have hfed' : ∀ p ∈ rest, p ∈ mediaStream link seq messages := fun p hp => hfed p (List.mem_cons_of_mem _ hp)
    have hin' : ∀ p ∈ rest, p.header.flags.isFragmented = true → id < messageOf p → messageOf p ∈ crowd :=
      fun p hp => hin p (List.mem_cons_of_mem _ hp)
    have hlast' : ∀ p ∈ rest.getLast?, messageOf p = id := by
      intro p hp
      refine hlast p ?_
      rw [List.getLast?_cons, Option.mem_def.mp hp]
      rfl
    obtain ⟨hq, hnodup'⟩ := List.nodup_cons.mp hnodup
    have hsucc : ∀ k : ℕ, (k + 1 + 1 = (q :: rest).length) = (k + 1 = rest.length) := by
      intro k
      rw [List.length_cons, Nat.add_right_cancel_iff]
    by_cases hown : messageOf q = id
    · obtain ⟨j, hp⟩ := part_of_messageOf (hfed q List.mem_cons_self) hs hm hown
      have hnew : j ∉ has := fun hj => (hmissing j hp.index).mp hj (hp.packet ▸ List.mem_cons_self)
      have hmissing' := hmissing.own hp hs hn hq
      rcases h.accept_own hp hs hn hid hnew with ⟨hmore, hnone, hkeep⟩ | ⟨hdone, hsome⟩
      · have hne : rest ≠ [] := by
          rintro rfl
          have hle := hmissing'.le_card.trans (Finset.card_insert_le j has)
          omega
        intro k p hk hpid
        cases k with
        | zero =>
          rw [if_neg]
          · exact congrArg some hnone
          · rw [List.length_cons]
            have hpos := List.length_pos_iff.mpr hne
            omega
        | succ k =>
          rw [if_congr (iff_of_eq (hsucc k)) rfl rfl]
          exact ih hkeep hfed' hnodup' hin' hmissing' hlast' k p hk hpid
      · have hnil : rest = [] := by
          by_contra hne
          obtain ⟨p, hp'⟩ := Option.isSome_iff_exists.mp (List.getLast?_isSome.mpr hne)
          refine hmissing'.messageOf_ne (fun l hl => ?_) ?_ hm hs hfed' (List.mem_of_getLast? hp') (hlast' p hp')
          · rcases Finset.mem_insert.mp hl with rfl | hl
            · exact hp.index
            · exact h.lt hl
          · rw [Finset.card_insert_of_notMem hnew]
            exact hdone
        subst hnil
        intro k p hk hpid
        cases k with
        | zero => exact congrArg some hsome
        | succ k => cases hk
    · obtain ⟨other, msg', j, hp⟩ := part_of_mem (hfed q List.mem_cons_self)
      have hother := messageOf_part hp hs
      have hkeep := h.accept_other hc hp hs (hseq.trans (le_of_mem_numbered hp.mem)) (hother ▸ hown) fun hn' hlt =>
        hother ▸ hin q List.mem_cons_self (hp.joins hs hn').isFragmented (hother.symm ▸ hlt)
      have hmissing' := hmissing.other hm hs hown
      intro k p hk hpid
      cases k with
      | zero =>
        rw [Option.some.inj hk] at hown
        exact absurd hpid hown
      | succ k =>
        rw [if_congr (iff_of_eq (hsucc k)) rfl rfl]
        exact ih hkeep hfed' hnodup' hin' hmissing' hlast' k p hk hpid

lemma window_results {window : List Packet} (h : Orderly seq messages m) (hw : m.Without id)
    (hs : MediaSized messages) (hseq : 1 ≤ seq) (hm : (id, msg) ∈ numbered seq messages)
    (hn : 1 < fragmentsOf msg.body.length) (hc : crowd.card < MediaAssemblySlots)
    (hnewer : ∀ l ∈ occupied m, id < l → l ∈ crowd) (hfed : ∀ p ∈ window, p ∈ mediaStream link seq messages)
    (hnodup : window.Nodup) (hin : ∀ p ∈ window, p.header.flags.isFragmented = true → id < messageOf p →
      messageOf p ∈ crowd)
    (hall : ∀ j < fragmentsOf msg.body.length, datagramAt (fun i => link (id + i)) .media id msg j ∈ window)
    (hfirst : ∀ p ∈ window.head?, messageOf p = id) (hlast : ∀ p ∈ window.getLast?, messageOf p = id) :
    ∀ k p, window[k]? = some p → messageOf p = id →
      (m.acceptAll window).2[k]? = some (if k + 1 = window.length then some ⟨msg.tag, msg.body⟩ else none) := by
  cases window with
  | nil => exact nofun
  | cons first rest =>
    obtain ⟨j, hp⟩ := part_of_messageOf (hfed first List.mem_cons_self) hs hm (hfirst first rfl)
    obtain ⟨hnone, hkeep⟩ := keeping_first h hw hp hs hn (hseq.trans (le_of_mem_numbered hm)) hc hnewer
    obtain ⟨hq, hnodup'⟩ := List.nodup_cons.mp hnodup
    have hmissing : Awaits link id msg {j} rest := by
      have hnothing : Awaits link id msg ∅ (first :: rest) := fun j' hj' =>
        iff_of_false (Finset.notMem_empty j') (not_not.mpr (hall j' hj'))
      exact hnothing.own hp hs hn hq
    have hlast' : ∀ p ∈ rest.getLast?, messageOf p = id := by
      intro p hp
      refine hlast p ?_
      rw [List.getLast?_cons, Option.mem_def.mp hp]
      rfl
    have hrun := hkeep.run hc hs hseq hm hn (fun p hp => hfed p (List.mem_cons_of_mem _ hp)) hnodup'
      (fun p hp => hin p (List.mem_cons_of_mem _ hp)) hmissing hlast'
    intro k p hk hpid
    cases k with
    | zero =>
      rw [if_neg]
      · exact congrArg some hnone
      · -- a second fragment is yet to come
        rw [List.length_cons]
        intro hz
        obtain rfl := List.length_eq_zero_iff.mp (Nat.add_right_cancel hz).symm
        have hle := hmissing.le_card
        rw [Finset.card_singleton] at hle
        omega
    | succ k =>
      rw [List.length_cons, if_congr (Nat.add_right_cancel_iff (n := 1)) rfl rfl]
      exact hrun k p hk hpid

lemma acceptAll_append (m : MediaAssembler) (fed more : List Packet) :
    (m.acceptAll (fed ++ more)).2 = (m.acceptAll fed).2 ++ ((m.acceptAll fed).1.acceptAll more).2 := by
  induction fed generalizing m with
  | nil => rfl
  | cons p rest ih =>
    rw [List.cons_append, MediaAssembler.acceptAll, MediaAssembler.acceptAll]
    dsimp only
    rw [ih, List.cons_append]

lemma length_acceptAll (m : MediaAssembler) (fed : List Packet) : (m.acceptAll fed).2.length = fed.length := by
  induction fed generalizing m with
  | nil => rfl
  | cons p rest ih => exact congrArg (· + 1) (ih _)

def newer (m : MediaAssembler) (id : ℕ) (fed : List Packet) : Finset ℕ :=
  {l ∈ occupied m ∪ ((fed.filter (·.header.flags.isFragmented)).map messageOf).toFinset | id < l}

theorem uncrowded_completes (link : ℕ → ReliableLink) (seq : ℕ) (messages : List OutboundMessage) (hseq : 1 ≤ seq)
    (hs : MediaSized messages) (id : ℕ) (msg : OutboundMessage) (hm : (id, msg) ∈ numbered seq messages)
    (hn : 1 < fragmentsOf msg.body.length) (before window after : List Packet)
    (hnodup : (before ++ window ++ after).Nodup)
    (hfed : ∀ p ∈ before ++ window ++ after, p ∈ mediaStream link seq messages)
    (hall : ∀ j < fragmentsOf msg.body.length, datagramAt (fun i => link (id + i)) .media id msg j ∈ window)
    (hfirst : ∀ p ∈ window.head?, messageOf p = id) (hlast : ∀ p ∈ window.getLast?, messageOf p = id)
    (hcrowd : (newer (acceptAll {} before).1 id window).card ≤ MediaAssemblySlots - 1) :
    ∀ k p, (before ++ window ++ after)[k]? = some p → messageOf p = id →
      (acceptAll {} (before ++ window ++ after)).2[k]? =
        some (if k + 1 = (before ++ window).length then some ⟨msg.tag, msg.body⟩ else none) := by
  obtain ⟨hnodup', -, hafter⟩ := List.nodup_append.mp hnodup
  obtain ⟨-, hnodupw, hbefore⟩ := List.nodup_append.mp hnodup'
  have hfedb : ∀ p ∈ before, p ∈ mediaStream link seq messages := fun p hp =>
    hfed p (List.mem_append_left _ (List.mem_append_left _ hp))
  have hfedw : ∀ p ∈ window, p ∈ mediaStream link seq messages := fun p hp =>
    hfed p (List.mem_append_left _ (List.mem_append_right _ hp))
  -- all fragments of the message are in the window, so no other packet is one of them
  have hinside : ∀ p ∈ before ++ window ++ after, messageOf p = id → p ∈ window := by
    intro p hp hid
    obtain ⟨j, hpart⟩ := part_of_messageOf (hfed p hp) hs hm hid
    rw [hpart.packet]
    exact hall j hpart.index
  have hstart : Orderly seq messages (acceptAll {} before).1 :=
    (orderly_empty seq messages).acceptAll hs hseq hfedb
  have hw : (acceptAll {} before).1.Without id := by
    intro a s ha hid
    rcases occupied_acceptAll (orderly_empty seq messages) hs hseq hfedb id (mem_occupied.mpr ⟨a, s, ha, hid⟩)
      with hin | ⟨p, hp, hpid⟩
    · rw [occupied_empty] at hin
      exact Finset.notMem_empty id hin
    · exact hbefore p hp p (hinside p (List.mem_append_left _ (List.mem_append_left _ hp)) hpid) rfl
  have hres := window_results hstart hw hs hseq hm hn (hcrowd.trans_lt (by decide))
    (fun l hl hlt => Finset.mem_filter.mpr ⟨Finset.mem_union_left _ hl, hlt⟩) hfedw hnodupw
    (fun p hp hf hlt => Finset.mem_filter.mpr ⟨Finset.mem_union_right _ (List.mem_toFinset.mpr
      (List.mem_map_of_mem (List.mem_filter.mpr ⟨hp, hf⟩))), hlt⟩) hall hfirst hlast
  intro k p hk hpid
  have hwindow := hinside p (List.mem_of_getElem? hk) hpid
  rw [acceptAll_append, acceptAll_append]
  have hlb := length_acceptAll {} before
  have hlw := length_acceptAll (acceptAll {} before).1 window
  rcases Nat.lt_or_ge k before.length with hlt | hge
  · rw [List.append_assoc, List.getElem?_append_left hlt] at hk
    exact absurd rfl (hbefore p (List.mem_of_getElem? hk) p hwindow)
  rcases Nat.lt_or_ge k (before ++ window).length with hlt' | hge'
  · rw [List.length_append] at hlt' ⊢
    rw [List.append_assoc, List.getElem?_append_right hge, List.getElem?_append_left (by omega)] at hk
    rw [List.append_assoc, List.getElem?_append_right (by omega), List.getElem?_append_left (by omega), hlb,
      hres _ p hk hpid,
      if_congr (show k - before.length + 1 = window.length ↔
        k + 1 = before.length + window.length by omega) rfl rfl]
  · rw [List.getElem?_append_right hge'] at hk
    exact absurd rfl (hafter p (List.mem_append_right _ hwindow) p (List.mem_of_getElem? hk))

def crowded : List Packet := pairParts [(3, 1), (5, 0), (7, 0), (9, 0), (3, 0)]

theorem uncrowded_completes_two :
    newer (acceptAll {} (pairParts [(1, 0)])).1 3 crowded = {5, 7, 9} ∧
    (acceptAll {} (pairParts [(1, 0)] ++ crowded ++ pairParts [(1, 1)])).2[5]? =
      some (some ⟨5, twoFragments.body⟩) := by
  have hnewer : newer (acceptAll {} (pairParts [(1, 0)])).1 3 crowded = {5, 7, 9} := by decide +kernel
  refine ⟨hnewer, uncrowded_completes (fun _ => .new {} 7 none) 1 (List.replicate 5 twoFragments) le_rfl
    (mediaSized_pairs 5) 3 twoFragments (by decide +kernel) ?_ (pairParts [(1, 0)]) crowded (pairParts [(1, 1)])
    (by decide +kernel) ?_ (fun j hj => ?_) (by decide +kernel) (by decide +kernel) ?_ 5 _ rfl (by decide +kernel)⟩
  · rw [fragmentsOf_twoFragments]
    decide
  · exact pairParts_sent [(1, 0), (3, 1), (5, 0), (7, 0), (9, 0), (3, 0), (1, 1)] 5 (by decide +kernel)
  · rw [fragmentsOf_twoFragments] at hj
    have hplaces : ∀ j < 2, (3, j) ∈ [(3, 1), (5, 0), (7, 0), (9, 0), (3, 0)] := by decide
    exact mem_pairParts (hplaces j hj)
  · rw [hnewer]
    decide

end Runs

end NetLink.Channel.MediaAssembler
