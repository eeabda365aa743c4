import NetLink.Channel.RoundTrip

/-! The media lane of an honest sender, and what a media assembler makes of any of its datagrams; of any packets at
all, it keeps within its slots. -/

namespace NetLink.Channel

def numbered : ℕ → List OutboundMessage → List (ℕ × OutboundMessage)
  | _, [] => []
  | seq, m :: rest => (seq, m) :: numbered (seq + fragmentsOf m.body.length) rest

def mediaStream (link : ℕ → ReliableLink) (seq : ℕ) (messages : List OutboundMessage) : List Packet :=
  (numbered seq messages).flatMap fun x => datagrams (fun i => link (x.1 + i)) .media x.1 (cursorFor x.2)

section Numbered

variable {link : ℕ → ReliableLink} {seq id j : ℕ} {messages : List OutboundMessage} {m m' : OutboundMessage}
  {p : Packet}

lemma le_of_mem_numbered (h : (id, m) ∈ numbered seq messages) : seq ≤ id := by
  induction messages generalizing seq with
  | nil => cases h
  | cons first rest ih =>
    rcases List.mem_cons.mp h with he | h
    · rw [(Prod.mk.inj he).1]
    · exact (Nat.le_add_right _ _).trans (ih h)

lemma mem_of_mem_numbered (h : (id, m) ∈ numbered seq messages) : m ∈ messages := by
  induction messages generalizing seq with
  | nil => cases h
  | cons first rest ih =>
    rcases List.mem_cons.mp h with he | h
    · rw [(Prod.mk.inj he).2]
      exact List.mem_cons_self
    · exact List.mem_cons_of_mem _ (ih h)

lemma numbered_unique (h : (id, m) ∈ numbered seq messages) (h' : (id, m') ∈ numbered seq messages) : m = m' := by
  induction messages generalizing seq with
  | nil => cases h
  | cons first rest ih =>
    have hpos := fragmentsOf_pos first.body.length
    rcases List.mem_cons.mp h with he | h <;> rcases List.mem_cons.mp h' with he' | h'
    · rw [(Prod.mk.inj he).2, (Prod.mk.inj he').2]
    · have hle := le_of_mem_numbered h'
      have heq := (Prod.mk.inj he).1
      omega
    · have hle := le_of_mem_numbered h
      have heq := (Prod.mk.inj he').1
      omega
    · exact ih h h'

structure Part (link : ℕ → ReliableLink) (seq : ℕ) (messages : List OutboundMessage) (p : Packet) (id : ℕ)
    (m : OutboundMessage) (j : ℕ) : Prop where
  mem : (id, m) ∈ numbered seq messages
  index : j < fragmentsOf m.body.length
  packet : p = datagramAt (fun i => link (id + i)) .media id m j

lemma part_of_mem (h : p ∈ mediaStream link seq messages) : ∃ id m j, Part link seq messages p id m j := by
  obtain ⟨⟨id, m⟩, hm, hp⟩ := List.mem_flatMap.mp h
  rw [datagrams_cursorFor] at hp
  obtain ⟨j, hj, rfl⟩ := List.mem_map.mp hp
  exact ⟨id, m, j, hm, List.mem_range.mp hj, rfl⟩

lemma Part.mem_mediaStream (h : Part link seq messages p id m j) : p ∈ mediaStream link seq messages := by
  refine List.mem_flatMap.mpr ⟨(id, m), h.mem, ?_⟩
  rw [datagrams_cursorFor, h.packet]
  exact List.mem_map_of_mem (List.mem_range.mpr h.index)

def MediaSized (messages : List OutboundMessage) : Prop := ∀ m ∈ messages, m.body.length ≤ maxMessageSize .media

lemma Part.length_le (h : Part link seq messages p id m j) (hs : MediaSized messages) :
    m.body.length ≤ maxMessageSize .media :=
  hs m (mem_of_mem_numbered h.mem)

lemma Part.seq_eq (h : Part link seq messages p id m j) : p.header.seq = id + j := by
  rw [h.packet, seq_datagramAt]

lemma Part.joins (h : Part link seq messages p id m j) (hs : MediaSized messages)
    (hn : 1 < fragmentsOf m.body.length) :
    MediaAssembler.Joins m j p.header p.body := by
  rw [h.packet]
  exact joins_datagramAt _ id (h.length_le hs) h.index hn

lemma Part.whole (h : Part link seq messages p id m j) (hs : MediaSized messages)
    (hn : ¬1 < fragmentsOf m.body.length) :
    p.header.flags.isFragmented = false ∧ p.header.tag = m.tag ∧ p.body = m.body := by
  have hj : j = 0 := by
    have hindex := h.index
    omega
  have hc := carries_datagramAt (fun i => link (id + i)) id .media m j
  rw [← h.packet, hj] at hc
  exact hc.whole ((h.length_le hs).trans (maxMessageSize_le .media)) hn

end Numbered

namespace MediaAssembler

variable {link : ℕ → ReliableLink} {seq id j : ℕ} {messages : List OutboundMessage} {msg : OutboundMessage}
  {p : Packet} {m : MediaAssembler} {slot : Slot}

def Honest (seq : ℕ) (messages : List OutboundMessage) (slot : Slot) : Prop :=
  ∃ msg, (slot.id, msg) ∈ numbered seq messages ∧ Holds msg slot

lemma Honest.holds (h : Honest seq messages slot) (hm : (slot.id, msg) ∈ numbered seq messages) :
    Holds msg slot := by
  obtain ⟨msg', hm', hh⟩ := h
  rw [numbered_unique hm hm']
  exact hh

lemma accept_part (h : Every (Honest seq messages) m) (hp : Part link seq messages p id msg j)
    (hs : MediaSized messages) :
    Every (Honest seq messages) (m.accept p.header p.body).1 ∧
      ∀ out, (m.accept p.header p.body).2 = some out → out = ⟨msg.tag, msg.body⟩ := by
  by_cases hn : 1 < fragmentsOf msg.body.length
  · have hj := hp.joins hs hn
    by_cases hpass : Passes p.header p.body
    · obtain ⟨target, m', hseat, hacc⟩ := accept_of_passes h.blank hpass
      rw [hp.seq_eq, hj.fragIndex, Nat.add_sub_cancel, hj.fragCount] at hseat
      have hevery := hseat.every h ⟨msg, hp.mem, holds_fresh id msg⟩
      rcases hacc with ⟨-, hacc⟩ | ⟨i, rfl, hacc⟩
      · rw [hacc]
        exact ⟨hevery, nofun⟩
      obtain ⟨slot, hat, hid, -⟩ := hseat.at
      have hm := hp.mem
      rw [← hid] at hm
      have hh := (hevery.each i slot hat).holds hm
      rcases put_joins hat hh hj with ⟨-, hput⟩ | ⟨hnew, -, hput⟩ | ⟨-, -, hput⟩
      · rw [hacc, hput]
        exact ⟨hevery, nofun⟩
      · rw [hacc, hput]
        refine ⟨hevery.set (.inr ⟨(used_store ..).trans hat.used, msg, ?_, hh.store hj hnew⟩) _, nofun⟩
        rw [id_store]
        exact hm
      · rw [hacc, hput]
        exact ⟨hevery.set (.inl rfl) _, fun out ho => (Option.some.inj ho).symm⟩
    · rw [accept_of_not_passes m hj.isFragmented hpass]
      exact ⟨h, nofun⟩
  · obtain ⟨hf, htag, hbody⟩ := hp.whole hs hn
    rw [accept_unfragmented m hf, htag, hbody]
    exact ⟨h, fun out ho => (Option.some.inj ho).symm⟩

lemma every_empty (P : Slot → Prop) : Every P {} := by
  refine ⟨blank_empty, fun i slot h => ?_⟩
  have hu := h.used
  rw [List.eq_of_mem_replicate (List.mem_of_getElem? h.mem)] at hu
  cases hu

lemma acceptAll_stream {fed : List Packet} (h : Every (Honest seq messages) m) (hs : MediaSized messages)
    (hfed : ∀ p ∈ fed, p ∈ mediaStream link seq messages) :
    Every (Honest seq messages) (m.acceptAll fed).1 ∧
      ∀ out, some out ∈ (m.acceptAll fed).2 → ∃ msg ∈ messages, out = ⟨msg.tag, msg.body⟩ := by
  induction fed generalizing m with
  | nil => exact ⟨h, nofun⟩
  | cons p rest ih =>
    obtain ⟨id, msg, j, hp⟩ := part_of_mem (hfed p List.mem_cons_self)
    obtain ⟨hnext, hout⟩ := accept_part h hp hs
    obtain ⟨hend, hrest⟩ := ih hnext fun q hq => hfed q (List.mem_cons_of_mem _ hq)
    refine ⟨hend, fun out ho => ?_⟩
    rcases List.mem_cons.mp ho with ho | ho
    · exact ⟨msg, mem_of_mem_numbered hp.mem, hout out ho.symm⟩
    · exact hrest out ho

structure OnMedia (p : Packet) : Prop where
  accepted : p.Accepted
  data : p.header.flags.kind = .data
  lane : p.header.flags.lane = .media

lemma OnMedia.index_lt (h : OnMedia p) (hf : p.header.flags.isFragmented = true) :
    p.header.fragIndex < p.header.fragCount :=
  (h.accepted.wellFormed.1.fragments hf).1

namespace Checked

/-- `put`, where a shift by 64 or more and a copy that leaves the body of the slot have no result. -/
def put (m : MediaAssembler) (i : ℕ) (header : PacketHeader) (body : List UInt8) :
    Option (MediaAssembler × Option AssembledMessage) :=
  if 64 ≤ header.fragIndex then none
  else
    let slot := m.mSlots.getD i {}
    if slot.count ≠ header.fragCount ∨ slot.present.testBit header.fragIndex then some (m, none)
    else if slot.body.length < header.fragIndex * MaxFragmentBody + body.length then none
    else
      let slot := store slot header body
      if slot.received < slot.count then some ({ m with mSlots := m.mSlots.set i slot }, none)
      else
        let length := (slot.count - 1) * MaxFragmentBody + slot.lastLength
        let m := { m with mSlots := m.mSlots.set i {} }
        if length ≠ slot.totalLength then some (m, none) else some (m, some ⟨slot.tag, slot.body.take length⟩)

def accept (m : MediaAssembler) (header : PacketHeader) (body : List UInt8) :
    Option (MediaAssembler × Option AssembledMessage) :=
  if !header.flags.isFragmented then some (m, some ⟨header.tag, body⟩)
  else if header.fragCount > 64 ∨ header.seq ≤ header.fragIndex then some (m, none)
  else if (if header.flags.isLastFragment then body.isEmpty || body.length > MaxFragmentBody
      else body.length != MaxFragmentBody) then some (m, none)
  else
    match m.slotFor (header.seq - header.fragIndex) header.fragCount with
    | (none, m) => some (m, none)
    | (some i, m) => put m i header body

variable {header : PacketHeader} {body : List UInt8} {i : ℕ}

lemma put_eq (ha : m.At i slot) (hs : Sized slot) (hi : header.fragIndex < header.fragCount)
    (hc : header.fragCount ≤ 64) (hb : body.length ≤ MaxFragmentBody) :
    put m i header body = some (m.put i header body) := by
  rw [put, MediaAssembler.put, if_neg (by omega), getD_of_mem ha.mem]
  dsimp only
  split
  · rfl
  next hgood =>
  rw [not_or, not_not] at hgood
  rw [if_neg (not_lt.mpr (hs.fits (by rw [hgood.1]; exact hi) hb))]
  split
  · rfl
  · split <;> rfl

lemma accept_eq (h : Every Sized m) (hi : header.flags.isFragmented = true → header.fragIndex < header.fragCount) :
    accept m header body = some (m.accept header body) := by
  by_cases hf : header.flags.isFragmented = true
  · by_cases hpass : Passes header body
    · have hseat := seated h.blank (header.seq - header.fragIndex) header.fragCount
      have hfrag : ¬(!header.flags.isFragmented) = true := by
        rw [hf]
        decide
      have hcount := not_or.mpr ⟨not_lt.mpr hpass.count, not_le.mpr hpass.seq⟩
      have hsize := ne_true_of_eq_false ((badSize_iff header body).mpr hpass.size)
      rw [accept, if_neg hfrag, if_neg hcount, if_neg hsize, MediaAssembler.accept, if_neg hfrag,
        if_neg hcount, if_neg hsize]
      rcases hs : m.slotFor (header.seq - header.fragIndex) header.fragCount with ⟨target, m'⟩
      rw [hs] at hseat
      cases target with
      | none => rfl
      | some i =>
        obtain ⟨slot, hat, -⟩ := hseat.at
        exact put_eq hat ((hseat.every h (sized_fresh _ _)).each i slot hat) (hi hf) hpass.count hpass.size_le
    · rw [accept_of_not_passes m hf hpass, accept, if_neg (by rw [hf]; decide)]
      split
      · rfl
      next hcount =>
      rw [not_or, not_lt, not_le] at hcount
      rw [if_pos]
      rw [← Bool.not_eq_false]
      exact fun hb => hpass ⟨hf, hcount.1, hcount.2, (badSize_iff header body).mp hb⟩
  · rw [Bool.not_eq_true] at hf
    rw [accept_unfragmented m hf, accept, hf]
    rfl

end Checked

lemma put_sized {header : PacketHeader} {body : List UInt8} {i : ℕ} (h : Every Sized m) (ha : m.At i slot)
    (hi : header.fragIndex < header.fragCount) (hb : body.length ≤ MaxFragmentBody) :
      Every Sized (m.put i header body).1 := by
  rw [put, getD_of_mem ha.mem]
  dsimp only
  split
  · exact h
  next hgood =>
  rw [not_or, not_not] at hgood
  have hlt : header.fragIndex < slot.count := by rw [hgood.1]; exact hi
  split
  · refine h.set (.inr ⟨(used_store ..).trans ha.used, (h.each i slot ha).store hlt hb ?_⟩) _
    exact fun hin => hgood.2 (mem_arrived.mp hin).2
  · split
    · exact h.set (.inl rfl) _
    · exact h.set (.inl rfl) _

lemma accept_sized (h : Every Sized m) (hp : OnMedia p) : Every Sized (m.accept p.header p.body).1 := by
  by_cases hf : p.header.flags.isFragmented = true
  · by_cases hpass : Passes p.header p.body
    · obtain ⟨target, m', hseat, hacc⟩ := accept_of_passes h.blank hpass
      have hevery := hseat.every h (sized_fresh _ _)
      rcases hacc with ⟨-, hacc⟩ | ⟨i, rfl, hacc⟩
      · rw [hacc]
        exact hevery
      · obtain ⟨slot, hat, -⟩ := hseat.at
        rw [hacc]
        exact put_sized hevery hat (hp.index_lt hf) hpass.size_le
    · rw [accept_of_not_passes m hf hpass]
      exact h
  · rw [accept_unfragmented m (by rwa [Bool.not_eq_true] at hf)]
    exact h

lemma acceptAll_sized {fed : List Packet} (h : Every Sized m) (hfed : ∀ p ∈ fed, OnMedia p) :
    Every Sized (m.acceptAll fed).1 := by
  induction fed generalizing m with
  | nil => exact h
  | cons p rest ih =>
    exact ih (accept_sized h (hfed p List.mem_cons_self)) fun q hq => hfed q (List.mem_cons_of_mem _ hq)

theorem media_messages_sent :
    (∀ (link : ℕ → ReliableLink) (seq : ℕ) (messages : List OutboundMessage) (fed : List Packet)
        (out : AssembledMessage),
      MediaSized messages → (∀ p ∈ fed, p ∈ mediaStream link seq messages) →
      some out ∈ (acceptAll {} fed).2 → ∃ msg ∈ messages, out = ⟨msg.tag, msg.body⟩) ∧
    ∀ (fed : List Packet) (p : Packet), (∀ q ∈ fed, OnMedia q) → OnMedia p →
      Checked.accept (acceptAll {} fed).1 p.header p.body =
        some ((acceptAll {} fed).1.accept p.header p.body) := by
  refine ⟨fun link seq messages fed out hs hfed ho => ?_, fun fed p hfed hp => ?_⟩
  · exact (acceptAll_stream (every_empty _) hs hfed).2 out ho
  · exact Checked.accept_eq (acceptAll_sized (every_empty _) hfed) hp.index_lt

lemma length_twoFragments : twoFragments.body.length = MaxFragmentBody + 1 := List.length_replicate

def pairParts (places : List (ℕ × ℕ)) : List Packet :=
  places.map fun x => datagramAt (fun _ => .new {} 7 none) .media x.1 twoFragments x.2

lemma fragmentsOf_twoFragments : fragmentsOf twoFragments.body.length = 2 := by
  rw [length_twoFragments]
  decide

lemma mediaSized_pairs (n : ℕ) : MediaSized (List.replicate n twoFragments) := by
  intro m hm
  rw [List.eq_of_mem_replicate hm, length_twoFragments]
  decide

lemma mem_pairParts {places : List (ℕ × ℕ)} (h : (id, j) ∈ places) :
    datagramAt (fun _ => .new {} 7 none) .media id twoFragments j ∈ pairParts places :=
  List.mem_map.mpr ⟨(id, j), h, rfl⟩

lemma pairParts_sent (places : List (ℕ × ℕ)) (n : ℕ)
    (h : ∀ x ∈ places, x.2 < 2 ∧ (x.1, twoFragments) ∈ numbered 1 (List.replicate n twoFragments)) :
    ∀ p ∈ pairParts places, p ∈ mediaStream (fun _ => .new {} 7 none) 1 (List.replicate n twoFragments) := by
  intro p hp
  obtain ⟨x, hx, rfl⟩ := List.mem_map.mp hp
  refine Part.mem_mediaStream ⟨(h x hx).2, ?_, rfl⟩
  rw [fragmentsOf_twoFragments]
  exact (h x hx).1

def sampleParts : List Packet := pairParts [(1, 1), (1, 0)]

lemma onMedia_sampleParts : ∀ p ∈ sampleParts, OnMedia p := by
  intro p hp
  obtain ⟨x, hx, rfl⟩ := List.mem_map.mp hp
  obtain ⟨-, hkind, hlane⟩ := flags_datagramAt_spec (fun _ => .new {} 7 none) x.1 .media twoFragments x.2
  have hplace : ∀ x ∈ [(1, 1), (1, 0)], 1 ≤ x.1 ∧ x.2 < 2 ∧ x.1 + x.2 < 2 ^ 64 := by decide
  obtain ⟨hid, hlt, hwrap⟩ := hplace x hx
  refine ⟨⟨_, decodePacket_datagramAt _ x.1 ?_ hid hwrap ?_ ?_⟩, hkind, hlane⟩
  · exact (by decide : (7 : UInt32) ≠ 0)
  · exact mediaSized_pairs 1 _ List.mem_cons_self
  · rw [fragmentsOf_twoFragments]
    exact hlt

theorem media_messages_sent_two :
    (∃ msg ∈ [twoFragments], (⟨5, twoFragments.body⟩ : AssembledMessage) = ⟨msg.tag, msg.body⟩) ∧
    ∀ p ∈ sampleParts, Checked.accept (acceptAll {} sampleParts).1 p.header p.body =
      some ((acceptAll {} sampleParts).1.accept p.header p.body) := by
  refine ⟨media_messages_sent.1 (fun _ => .new {} 7 none) 1 [twoFragments] sampleParts _ (mediaSized_pairs 1)
    (pairParts_sent _ 1 (by decide +kernel)) (by decide +kernel), fun p hp => ?_⟩
  exact media_messages_sent.2 sampleParts p onMedia_sampleParts (onMedia_sampleParts p hp)

end MediaAssembler

end NetLink.Channel
