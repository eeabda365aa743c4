import NetLink.Channel.MediaEviction
import Mathlib.Data.List.Induction

/-! How many messages a media assembler says it gave up. -/

namespace NetLink.Channel.MediaAssembler

def givenUp (m : MediaAssembler) (p : Packet) : Finset ℕ :=
  (occupied m \ occupied (m.accept p.header p.body).1).erase (messageOf p)

structure Tally where
  assembler : MediaAssembler := {}
  begun : Finset ℕ := ∅
  returned : Finset ℕ := ∅
  lost : Finset ℕ := ∅

namespace Tally

def next (t : Tally) (p : Packet) : Tally where
  assembler := (t.assembler.accept p.header p.body).1
  begun := if p.header.flags.isFragmented then insert (messageOf p) t.begun else t.begun
  returned := if (t.assembler.accept p.header p.body).2.isSome then insert (messageOf p) t.returned else t.returned
  lost := t.lost ∪ t.assembler.givenUp p

def after (fed : List Packet) : Tally := fed.foldl next {}

/-- A fragment of a message that was given up comes when its message has no slot and there is one for it. -/
def Reopens (t : Tally) (p : Packet) : Prop :=
  messageOf p ∈ t.lost ∧ messageOf p ∉ occupied t.assembler ∧
    ∃ s ∈ t.assembler.mSlots, s.used = false ∨ s.id < messageOf p

end Tally

section GivenUp

variable {link : ℕ → ReliableLink} {seq id j k given n : ℕ} {messages : List OutboundMessage}
  {msg : OutboundMessage} {p : Packet} {m : MediaAssembler} {new : Slot}

lemma Seat.given_cases (h : Seat m id k given) : given = 0 ∨ given = 1 := by
  cases h with
  | has _ _ => exact .inl rfl
  | free _ _ _ => exact .inl rfl
  | evict _ _ _ _ => exact .inr rfl

lemma givenUp_seat (h : Orderly seq messages m) (hseat : Seat m id k given)
    (hnew : new.used = true → new.id = id) :
    (∀ l ∈ occupied m, l ≠ id → l ∉ occupied { mSlots := m.mSlots.set k new, mAbandoned := n } →
      given = 1 ∧ ∃ slot, m.At k slot ∧ slot.id = l) ∧
    (given = 1 → ∃ l ∈ occupied m, l ≠ id ∧ l ∉ occupied { mSlots := m.mSlots.set k new, mAbandoned := n }) := by
  refine ⟨fun l hl hne hgone => ?_, fun hg => ?_⟩
  · obtain ⟨a, s, ha, rfl⟩ := mem_occupied.mp hl
    have hak : a = k := by
      by_contra hak
      refine hgone (mem_occupied.mpr ⟨a, s, ⟨?_, ha.used⟩, rfl⟩)
      exact (List.getElem?_set_ne (Ne.symm hak)).trans ha.mem
    subst hak
    cases hseat with
    | has ha' hid =>
      rw [Option.some.inj (ha'.mem.symm.trans ha.mem)] at hid
      exact absurd hid hne
    | free _ hm hu =>
      rw [Option.some.inj (hm.symm.trans ha.mem), ha.used] at hu
      cases hu
    | evict _ _ _ _ => exact ⟨rfl, s, ha, rfl⟩
  · cases hseat with
    | has _ _ => cases hg
    | free _ _ _ => cases hg
    | @evict slot hn hall ha hlt =>
      refine ⟨slot.id, mem_occupied.mpr ⟨k, slot, ha, rfl⟩, hlt.ne, fun hin => ?_⟩
      obtain ⟨a, s, has, hid⟩ := mem_occupied.mp hin
      rcases at_set has with ⟨rfl, rfl⟩ | ⟨hak, ha'⟩
      · exact hlt.ne (hid.symm.trans (hnew has.used))
      · exact hak (h.distinct a k s slot ha' ha hid)

lemma mAbandoned_accept (h : Orderly seq messages m) (hp : Part link seq messages p id msg j)
    (hs : MediaSized messages) (hid : 1 ≤ id) :
    (m.accept p.header p.body).1.mAbandoned = m.mAbandoned + (givenUp m p).card := by
  have hmess := messageOf_part hp hs
  by_cases hn : 1 < fragmentsOf msg.body.length
  · rcases accept_seat h.honest hp hs hn hid with ⟨-, hacc⟩ | ⟨k, given, new, hseat, hacc, hnew⟩
    · rw [givenUp, hacc, Finset.sdiff_self, Finset.erase_empty, Finset.card_empty]
      rfl
    · obtain ⟨hgone, hone⟩ := givenUp_seat (n := m.mAbandoned + given) h hseat hnew.own
      have hmem : ∀ l, l ∈ givenUp m p ↔ l ∈ occupied m ∧ l ≠ id ∧
          l ∉ occupied { mSlots := m.mSlots.set k new, mAbandoned := m.mAbandoned + given } := by
        intro l
        rw [givenUp, hacc, hmess, Finset.mem_erase, Finset.mem_sdiff]
        exact ⟨fun h => ⟨h.2.1, h.1, h.2.2⟩, fun h => ⟨h.2.1, h.1, h.2.2⟩⟩
      have hcard : (givenUp m p).card = given := by
        rcases hseat.given_cases with rfl | rfl
        · rw [Finset.card_eq_zero, Finset.eq_empty_iff_forall_notMem]
          intro l hl
          obtain ⟨hin, hne, hout⟩ := (hmem l).mp hl
          exact absurd (hgone l hin hne hout).1 (by decide)
        · obtain ⟨l, hin, hne, hout⟩ := hone rfl
          obtain ⟨-, slot, ha, rfl⟩ := hgone l hin hne hout
          rw [Finset.card_eq_one]
          refine ⟨slot.id, Finset.eq_singleton_iff_unique_mem.mpr ⟨(hmem _).mpr ⟨hin, hne, hout⟩,
            fun l' hl' => ?_⟩⟩
          obtain ⟨hin', hne', hout'⟩ := (hmem l').mp hl'
          obtain ⟨-, slot', ha', rfl⟩ := hgone l' hin' hne' hout'
          rw [Option.some.inj (ha'.mem.symm.trans ha.mem)]
      rw [hacc, hcard]
  · rw [givenUp, accept_unfragmented m (hp.whole hs hn).1, Finset.sdiff_self, Finset.erase_empty,
      Finset.card_empty]
    rfl

lemma occupied_accept (h : Orderly seq messages m) (hp : Part link seq messages p id msg j)
    (hs : MediaSized messages) (hid : 1 ≤ id) {l : ℕ} (hl : l ∈ occupied (m.accept p.header p.body).1) :
    l ∈ occupied m ∨ l = id ∧ 1 < fragmentsOf msg.body.length ∧ ∃ s ∈ m.mSlots, s.used = false ∨ s.id < id := by
  by_cases hn : 1 < fragmentsOf msg.body.length
  · rcases accept_seat h.honest hp hs hn hid with ⟨-, hacc⟩ | ⟨k, given, new, hseat, hacc, hnew⟩
    · rw [hacc] at hl
      exact .inl hl
    · rw [hacc] at hl
      rcases occupied_set hnew.own hl with rfl | hl
      · cases hseat with
        | has ha hid => exact .inl (mem_occupied.mpr ⟨k, _, ha, hid⟩)
        | free _ hm hu => exact .inr ⟨rfl, hn, _, List.mem_of_getElem? hm, .inl hu⟩
        | evict _ _ ha hlt => exact .inr ⟨rfl, hn, _, List.mem_of_getElem? ha.mem, .inr hlt⟩
      · exact .inl hl
  · rw [accept_unfragmented m (hp.whole hs hn).1] at hl
    exact .inl hl

end GivenUp

structure Counted (link : ℕ → ReliableLink) (seq : ℕ) (messages : List OutboundMessage) (fed : List Packet)
    (t : Tally) : Prop where
  orderly : Orderly seq messages t.assembler
  abandoned : t.assembler.mAbandoned = t.lost.card
  begun : ∀ l, l ∈ occupied t.assembler ∨ l ∈ t.lost → l ∈ t.begun
  several : ∀ l ∈ t.begun, ∀ msg, (l, msg) ∈ numbered seq messages → 1 < fragmentsOf msg.body.length
  apart : ∀ l ∈ t.lost, l ∉ occupied t.assembler
  kept : ∀ l ∈ t.lost, l ∉ t.returned
  gone : ∀ l ∈ t.returned, l ∉ occupied t.assembler
  slots : ∀ k slot, t.assembler.At k slot → ∀ msg, (slot.id, msg) ∈ numbered seq messages → ∀ i ∈ arrived slot,
    datagramAt (fun n => link (slot.id + n)) .media slot.id msg i ∈ fed
  done : ∀ l ∈ t.returned, ∀ msg, (l, msg) ∈ numbered seq messages → ∀ i < fragmentsOf msg.body.length,
    datagramAt (fun n => link (l + n)) .media l msg i ∈ fed

namespace Counted

variable {link : ℕ → ReliableLink} {seq id j : ℕ} {messages : List OutboundMessage} {msg : OutboundMessage}
  {p : Packet} {fed : List Packet} {t : Tally}

lemma start (link : ℕ → ReliableLink) (seq : ℕ) (messages : List OutboundMessage) :
    Counted link seq messages [] {} := by
  have hnone : ∀ l, l ∉ occupied {} := fun l => by
    rw [occupied_empty]
    exact Finset.notMem_empty l
  refine ⟨orderly_empty seq messages, rfl, ?_, nofun, nofun, nofun, nofun, fun k slot ha => ?_, nofun⟩
  · rintro l (hl | hl)
    · exact absurd hl (hnone l)
    · exact hl
  · exact absurd (mem_occupied.mpr ⟨k, slot, ha, rfl⟩) (hnone slot.id)

variable (h : Counted link seq messages fed t) (hp : Part link seq messages p id msg j) (hs : MediaSized messages)
  (hid : 1 ≤ id)
include h hp

lemma not_returned (hnew : p ∉ fed) : id ∉ t.returned := by
  intro hr
  have hin := h.done id hr msg hp.mem j hp.index
  rw [← hp.packet] at hin
  exact hnew hin

include hs hid

lemma of_returned (hout : (t.assembler.accept p.header p.body).2.isSome = true) :
    (1 < fragmentsOf msg.body.length → id ∈ occupied t.assembler) ∧
      id ∉ occupied (t.assembler.accept p.header p.body).1 ∧
      ∀ i < fragmentsOf msg.body.length, datagramAt (fun n => link (id + n)) .media id msg i ∈ fed ++ [p] := by
  have hlast : datagramAt (fun n => link (id + n)) .media id msg j ∈ fed ++ [p] := by
    rw [← hp.packet]
    exact List.mem_append_right _ List.mem_cons_self
  by_cases hn : 1 < fragmentsOf msg.body.length
  · rcases accept_seat h.orderly.honest hp hs hn hid with ⟨-, hacc⟩ | ⟨k, given, new, hseat, hacc, hnew⟩
    · rw [hacc] at hout
      cases hout
    · obtain ⟨hu, slot, ha, hown, hrest⟩ := hnew.done hout
      refine ⟨fun _ => mem_occupied.mpr ⟨k, slot, ha, hown⟩, fun hin => ?_, fun i hi => ?_⟩
      · rw [hacc] at hin
        obtain ⟨a, s, has, hsid⟩ := mem_occupied.mp hin
        rcases at_set has with ⟨-, rfl⟩ | ⟨hak, ha'⟩
        · rw [has.used] at hu
          cases hu
        · exact hak (hseat.only h.orderly ha' hsid)
      · by_cases hij : i = j
        · rw [hij]
          exact hlast
        · have hm := hp.mem
          rw [← hown] at hm
          have hin := h.slots k slot ha msg hm i (hrest i hi hij)
          rw [hown] at hin
          exact List.mem_append_left _ hin
  · refine ⟨fun hn' => absurd hn' hn, fun hin => ?_, fun i hi => ?_⟩
    · rw [accept_unfragmented _ (hp.whole hs hn).1] at hin
      exact hn (h.several id (h.begun id (.inl hin)) msg hp.mem)
    · have hj := hp.index
      have hij : i = j := by omega
      rw [hij]
      exact hlast

lemma slots_accept {k : ℕ} {slot : Slot} (ha : At (t.assembler.accept p.header p.body).1 k slot)
    {msg' : OutboundMessage} (hm : (slot.id, msg') ∈ numbered seq messages) {i : ℕ} (hi : i ∈ arrived slot) :
    datagramAt (fun n => link (slot.id + n)) .media slot.id msg' i ∈ fed ++ [p] := by
  by_cases hn : 1 < fragmentsOf msg.body.length
  · rcases accept_seat h.orderly.honest hp hs hn hid with ⟨-, hacc⟩ | ⟨a, given, new, -, hacc, hnew⟩
    · rw [hacc] at ha
      exact List.mem_append_left _ (h.slots k slot ha msg' hm i hi)
    · rw [hacc] at ha
      rcases at_set ha with ⟨rfl, rfl⟩ | ⟨-, ha'⟩
      · have hown := hnew.own ha.used
        rcases hnew.arrived i hi with rfl | ⟨old, hold, hoid, hin⟩
        · rw [hown] at hm ⊢
          rw [numbered_unique hm hp.mem, ← hp.packet]
          exact List.mem_append_right _ List.mem_cons_self
        · rw [hown, ← hoid] at hm ⊢
          exact List.mem_append_left _ (h.slots k old hold msg' hm i hin)
      · exact List.mem_append_left _ (h.slots k slot ha' msg' hm i hi)
  · rw [accept_unfragmented _ (hp.whole hs hn).1] at ha
    exact List.mem_append_left _ (h.slots k slot ha msg' hm i hi)

lemma next (hnew : p ∉ fed) (hopen : ¬t.Reopens p) : Counted link seq messages (fed ++ [p]) (t.next p) := by
  have hmess := messageOf_part hp hs
  have hnotret := h.not_returned hp hnew
  have hgiven : ∀ l ∈ t.assembler.givenUp p, l ≠ id ∧ l ∈ occupied t.assembler ∧
      l ∉ occupied (t.assembler.accept p.header p.body).1 := by
    intro l hl
    rw [givenUp, hmess, Finset.mem_erase, Finset.mem_sdiff] at hl
    exact hl
  -- `next` adds at most the message of the packet to what begun and to what was returned
  have hbegun : ∀ l ∈ t.begun, l ∈ (t.next p).begun := by
    intro l hl
    rw [Tally.next]
    dsimp only
    split
    · exact Finset.mem_insert_of_mem hl
    · exact hl
  have hreturned : ∀ l ∈ (t.next p).returned, l ∈ t.returned ∨
      l = id ∧ (t.assembler.accept p.header p.body).2.isSome = true := by
    intro l hl
    rw [Tally.next, hmess] at hl
    dsimp only at hl
    split at hl
    · next hout => exact (Finset.mem_insert.mp hl).symm.imp_right fun he => ⟨he, hout⟩
    · exact .inl hl
  have hocc : ∀ l ∈ occupied (t.assembler.accept p.header p.body).1, l ∈ occupied t.assembler ∨
    l = id := fun l hl =>
    (occupied_accept h.orderly hp hs hid hl).imp_right And.left
  refine ⟨h.orderly.accept hp hs hid, ?_, ?_, ?_, ?_, ?_, ?_, ?_, ?_⟩
  · have hdisj : Disjoint t.lost (t.assembler.givenUp p) :=
      Finset.disjoint_left.mpr fun l hl hg => h.apart l hl (hgiven l hg).2.1
    rw [Tally.next]
    dsimp only
    rw [mAbandoned_accept h.orderly hp hs hid, h.abandoned, Finset.card_union_of_disjoint hdisj]
  · rintro l (hl | hl)
    · rcases occupied_accept h.orderly hp hs hid hl with hl | ⟨rfl, hn, -⟩
      · exact hbegun l (h.begun l (.inl hl))
      · rw [Tally.next, hmess]
        dsimp only
        rw [if_pos (hp.joins hs hn).isFragmented]
        exact Finset.mem_insert_self _ _
    · rcases Finset.mem_union.mp hl with hl | hl
      · exact hbegun l (h.begun l (.inr hl))
      · exact hbegun l (h.begun l (.inl (hgiven l hl).2.1))
  · intro l hl msg' hm
    rw [Tally.next, hmess] at hl
    dsimp only at hl
    split at hl
    · next hf =>
      rcases Finset.mem_insert.mp hl with rfl | hl
      · rw [numbered_unique hm hp.mem]
        by_contra hn
        rw [(hp.whole hs hn).1] at hf
        cases hf
      · exact h.several l hl msg' hm
    · exact h.several l hl msg' hm
  · intro l hl hin
    rcases Finset.mem_union.mp hl with hl | hl
    · rcases occupied_accept h.orderly hp hs hid hin with hin | ⟨rfl, -, hroom⟩
      · exact h.apart l hl hin
      · exact hopen (by rw [Tally.Reopens, hmess]; exact ⟨hl, h.apart l hl, hroom⟩)
    · exact (hgiven l hl).2.2 hin
  · intro l hl hr
    rcases hreturned l hr with hr | ⟨rfl, hout⟩
    · rcases Finset.mem_union.mp hl with hl | hl
      · exact h.kept l hl hr
      · exact h.gone l hr (hgiven l hl).2.1
    · rcases Finset.mem_union.mp hl with hl | hl
      · exact h.apart l hl ((h.of_returned hp hs hid hout).1 (h.several l (h.begun l (.inr hl)) msg hp.mem))
      · exact (hgiven l hl).1 rfl
  · intro l hr hin
    rcases hreturned l hr with hr | ⟨rfl, hout⟩
    · rcases hocc l hin with hin | rfl
      · exact h.gone l hr hin
      · exact hnotret hr
    · exact (h.of_returned hp hs hid hout).2.1 hin
  · exact fun k slot ha msg' hm i hi => h.slots_accept hp hs hid ha hm hi
  · intro l hr msg' hm i hi
    rcases hreturned l hr with hr | ⟨rfl, hout⟩
    · exact List.mem_append_left _ (h.done l hr msg' hm i hi)
    · rw [numbered_unique hm hp.mem] at hi ⊢
      exact (h.of_returned hp hs hid hout).2.2 i hi

end Counted

lemma counted_after {link : ℕ → ReliableLink} {seq : ℕ} {messages : List OutboundMessage} {fed : List Packet}
    (hseq : 1 ≤ seq) (hs : MediaSized messages) (hnodup : fed.Nodup)
    (hfed : ∀ p ∈ fed, p ∈ mediaStream link seq messages)
    (hopen : ∀ done p rest, fed = done ++ p :: rest → ¬(Tally.after done).Reopens p) :
    Counted link seq messages fed (Tally.after fed) := by
  induction fed using List.reverseRecOn with
  | nil => exact Counted.start link seq messages
  | append_singleton fed p ih =>
    obtain ⟨id, msg, j, hp⟩ := part_of_mem (hfed p (List.mem_append_right _ List.mem_cons_self))
    obtain ⟨hnodup', -, hdisj⟩ := List.nodup_append.mp hnodup
    have hbefore := ih hnodup' (fun q hq => hfed q (List.mem_append_left _ hq)) fun done q rest he =>
      hopen done q (rest ++ [p]) (by rw [he, List.append_assoc, List.cons_append])
    rw [Tally.after, List.foldl_append]
    exact hbefore.next hp hs (hseq.trans (le_of_mem_numbered hp.mem)) (fun hin =>
      hdisj p hin p List.mem_cons_self rfl)
      (hopen fed p [] rfl)

def Tally.incomplete (t : Tally) : Finset ℕ := t.begun \ t.returned

theorem abandoned_le_incomplete (link : ℕ → ReliableLink) (seq : ℕ) (messages : List OutboundMessage)
    (fed : List Packet) (hseq : 1 ≤ seq) (hs : MediaSized messages) (hnodup : fed.Nodup)
    (hfed : ∀ p ∈ fed, p ∈ mediaStream link seq messages)
    (hopen : ∀ done p rest, fed = done ++ p :: rest → ¬(Tally.after done).Reopens p) :
    (Tally.after fed).assembler.mAbandoned ≤ (Tally.after fed).incomplete.card := by
  have h := counted_after hseq hs hnodup hfed hopen
  rw [h.abandoned]
  refine Finset.card_le_card fun l hl => ?_
  exact Finset.mem_sdiff.mpr ⟨h.begun l (.inr hl), h.kept l hl⟩

def five : List Packet := pairParts [(1, 0), (3, 0), (5, 0), (7, 0), (9, 0)]

theorem abandoned_le_incomplete_five :
    (Tally.after five).assembler.mAbandoned = 1 ∧ 1 ≤ (Tally.after five).incomplete.card := by
  have hone : (Tally.after five).assembler.mAbandoned = 1 := by decide +kernel
  have hle := abandoned_le_incomplete (fun _ => .new {} 7 none) 1 (List.replicate 5 twoFragments) five le_rfl
    (mediaSized_pairs 5)
    (by decide +kernel) (pairParts_sent _ _ (by decide +kernel)) fun done p rest he hr => by
      have hnone : ∀ n < 5, (Tally.after (five.take n)).lost = ∅ := by decide +kernel
      have hlen : five.length = (done ++ p :: rest).length := congrArg List.length he
      rw [List.length_append, List.length_cons] at hlen
      have hdone : done = five.take done.length := by rw [he, List.take_left]
      have hlt : done.length < 5 := by
        have hfive : five.length = 5 := rfl
        omega
      have hlost := hr.1
      rw [hdone, hnone _ hlt] at hlost
      exact Finset.notMem_empty _ hlost
  rw [hone] at hle
  exact ⟨hone, hle⟩

def twice : List Packet :=
  pairParts [(1, 0), (3, 0), (5, 0), (7, 0), (9, 0), (3, 1), (1, 1), (11, 0), (5, 1), (7, 1), (9, 1), (11, 1)]

theorem abandoned_exceeds_incomplete :
    ¬∀ (link : ℕ → ReliableLink) (seq : ℕ) (messages : List OutboundMessage) (fed : List Packet), 1 ≤ seq →
      MediaSized messages → fed.Nodup → (∀ p ∈ fed, p ∈ mediaStream link seq messages) →
      (Tally.after fed).assembler.mAbandoned ≤ (Tally.after fed).incomplete.card := by
  intro h
  have hle := h (fun _ => .new {} 7 none) 1 (List.replicate 6 twoFragments) twice le_rfl (mediaSized_pairs 6)
    (by decide +kernel)
    (pairParts_sent _ _ (by decide +kernel))
  revert hle
  decide +kernel

end NetLink.Channel.MediaAssembler
