import Mathlib.Data.Finmap
import NetLink.Channel.SequenceBuffer

/-! The buffer as the finite map it stands for, and what is left of that where seqs collide. -/

namespace NetLink.Channel.SequenceBuffer

variable {α : Type}

def size (b : SequenceBuffer α) : ℕ := b.mSize

/-- What the callback of `forEach` makes of an entry, after those it has seen: the value it leaves there, or `none`
to have the entry erased. -/
abbrev Visitor (α : Type) := List (ℕ × α) → ℕ → α → Option α

def visitSlots (fn : Visitor α) :
    List (ℕ × α) → ℕ → List (Option (ℕ × α)) → List (Option (ℕ × α)) × ℕ × List (ℕ × α)
  | seen, size, [] => ([], size, seen)
  | seen, size, none :: slots =>
    let rest := visitSlots fn seen size slots
    (none :: rest.1, rest.2)
  | seen, size, some (s, v) :: slots =>
    let kept := fn seen s v
    let rest := visitSlots fn (seen ++ [(s, v)]) (if kept.isSome then size else size - 1) slots
    (kept.map (s, ·) :: rest.1, rest.2)

def forEach (b : SequenceBuffer α) (fn : Visitor α) : List (ℕ × α) × SequenceBuffer α :=
  let r := visitSlots fn [] b.mSize b.mSlots
  (r.2.2, { b with mSlots := r.1, mSize := r.2.1 })

def outcome (fn : Visitor α) : List (ℕ × α) → List (ℕ × α) → List (ℕ × α)
  | _, [] => []
  | seen, (s, v) :: order => ((fn seen s v).map (s, ·)).toList ++ outcome fn (seen ++ [(s, v)]) order

section Visits

variable (fn : Visitor α) (seen : List (ℕ × α)) (n : ℕ) (slots : List (Option (ℕ × α)))

lemma filterMap_visitSlots :
    (visitSlots fn seen n slots).1.filterMap id = outcome fn seen (slots.filterMap id) := by
  induction slots generalizing seen n with
  | nil => rfl
  | cons x slots ih =>
    rcases x with _ | ⟨s, v⟩
    · exact ih seen n
    · rw [visitSlots, List.filterMap_cons_some (f := id) (a := some (s, v)) rfl, outcome]
      cases fn seen s v with
      | none => exact ih _ _
      | some w => exact congrArg ((s, w) :: ·) (ih _ _)

lemma seen_visitSlots : (visitSlots fn seen n slots).2.2 = seen ++ slots.filterMap id := by
  induction slots generalizing seen n with
  | nil => exact (List.append_nil _).symm
  | cons x slots ih =>
    rcases x with _ | ⟨s, v⟩
    · exact ih seen n
    · rw [visitSlots, List.filterMap_cons_some (f := id) (a := some (s, v)) rfl, ih, List.append_assoc,
        List.singleton_append]

lemma size_visitSlots (h : (slots.filterMap id).length ≤ n) :
    (visitSlots fn seen n slots).2.1 + (slots.filterMap id).length =
      n + (outcome fn seen (slots.filterMap id)).length := by
  induction slots generalizing seen n with
  | nil => rfl
  | cons x slots ih =>
    rcases x with _ | ⟨s, v⟩
    · exact ih seen n h
    · rw [List.filterMap_cons_some (f := id) (a := some (s, v)) rfl, List.length_cons] at h ⊢
      rw [visitSlots, outcome]
      cases hfn : fn seen s v with
      | none =>
        have := ih (seen ++ [(s, v)]) (n - 1) (by omega)
        simp only [Option.isSome_none, Bool.false_eq_true, if_false, Option.map_none, Option.toList_none,
          List.nil_append]
        omega
      | some w =>
        have := ih (seen ++ [(s, v)]) n (by omega)
        simp only [Option.isSome_some, if_true, Option.map_some, Option.toList_some, List.length_append,
          List.length_singleton]
        omega

lemma length_visitSlots : (visitSlots fn seen n slots).1.length = slots.length := by
  induction slots generalizing seen n with
  | nil => rfl
  | cons x slots ih =>
    rcases x with _ | ⟨s, v⟩
    · rw [visitSlots, List.length_cons, List.length_cons, ih]
    · rw [visitSlots, List.length_cons, List.length_cons, ih]

lemma key_visitSlots {i s : ℕ} {w : α} (h : (visitSlots fn seen n slots).1[i]? = some (some (s, w))) :
    ∃ v, slots[i]? = some (some (s, v)) := by
  induction slots generalizing seen n i with
  | nil => cases h
  | cons x slots ih =>
    rcases x with _ | ⟨t, v⟩
    · rw [visitSlots] at h
      cases i with
      | zero => cases h
      | succ i => exact ih seen n h
    · rw [visitSlots] at h
      cases i with
      | zero =>
        rw [List.getElem?_cons_zero, Option.some.injEq, Option.map_eq_some_iff] at h
        obtain ⟨_, -, he⟩ := h
        obtain ⟨rfl, -⟩ := Prod.mk.inj he
        exact ⟨v, rfl⟩
      | succ i => exact ih _ _ h

end Visits

variable {b : SequenceBuffer α} {s t : ℕ} {v : α} {fn : Visitor α} {order : List (ℕ × α)}

lemma visited_forEach : (b.forEach fn).1 = b.entries := seen_visitSlots fn [] b.mSize b.mSlots

lemma entries_forEach : (b.forEach fn).2.entries = outcome fn [] b.entries :=
  filterMap_visitSlots fn [] b.mSize b.mSlots

lemma nodup_entries (h : b.WF) : (b.entries.map Prod.fst).Nodup := by
  rw [entries, List.map_filterMap, List.Nodup, List.pairwise_filterMap, List.pairwise_iff_getElem]
  intro i j hi hj hij s hs t ht
  obtain ⟨⟨s', v⟩, hv, rfl⟩ := Option.map_eq_some_iff.mp hs
  obtain ⟨⟨t', w⟩, hw, rfl⟩ := Option.map_eq_some_iff.mp ht
  have hsi := h.placed i s' v (by rw [List.getElem?_eq_getElem hi]; exact congrArg some hv)
  have htj := h.placed j t' w (by rw [List.getElem?_eq_getElem hj]; exact congrArg some hw)
  intro he
  obtain rfl : s' = t' := he
  omega

lemma wf_forEach (fn : Visitor α) (h : b.WF) : (b.forEach fn).2.WF where
  pow := by
    obtain ⟨k, hk⟩ := h.pow
    exact ⟨k, (length_visitSlots fn [] b.mSize b.mSlots).trans hk⟩
  placed i u w hi := by
    obtain ⟨x, hx⟩ := key_visitSlots fn [] b.mSize b.mSlots hi
    have hp := h.placed i u x hx
    rw [index] at hp ⊢
    rw [forEach, length_visitSlots]
    exact hp
  size := by
    have hs := h.size
    have hn := size_visitSlots fn [] b.mSize b.mSlots hs.ge
    rw [entries_forEach]
    change (visitSlots fn [] b.mSize b.mSlots).2.1 = _
    rw [entries] at hs ⊢
    omega

lemma wf_clear (h : b.WF) : b.clear.WF where
  pow := by simpa [clear] using h.pow
  placed i u w hi := by
    rw [clear, List.getElem?_map, Option.map_eq_some_iff] at hi
    obtain ⟨_, -, hn⟩ := hi
    cases hn
  size := by
    have hs := h.size
    rw [entries] at hs
    simp [clear, entries, hs]

lemma find_clear : b.clear.find s = none := by
  rw [Option.eq_none_iff_forall_ne_some]
  intro v hv
  rw [find_eq_some_iff, clear, List.getElem?_map, Option.map_eq_some_iff] at hv
  obtain ⟨_, -, hn⟩ := hv
  cases hn

lemma find_insert_of_wf (h : b.WF) :
    (b.insert s v).find t = if t = s then some v else if b.index t = b.index s then none else b.find t := by
  rw [insert, find_set h]
  by_cases ht : t = s
  · simp [ht]
  · simp [ht, Ne.symm ht]

def InWindow (b : SequenceBuffer α) (s : ℕ) : Prop :=
  ∃ base, (∀ u, b.contains u → base ≤ u ∧ u < base + b.capacity) ∧ base ≤ s ∧ s < base + b.capacity

lemma inWindow_of_entries (base : ℕ) (h : ∀ p ∈ b.entries, base ≤ p.1 ∧ p.1 < base + b.capacity)
    (hs : base ≤ s ∧ s < base + b.capacity) : b.InWindow s := by
  refine ⟨base, fun u hu => ?_, hs⟩
  obtain ⟨v, hv⟩ := contains_iff.mp hu
  exact h (u, v) (List.mem_filterMap.mpr ⟨_, List.mem_of_getElem? (find_eq_some_iff.mp hv), rfl⟩)

lemma InWindow.find_insert (hw : b.InWindow s) (h : b.WF) :
    (b.insert s v).find t = if t = s then some v else b.find t := by
  obtain ⟨base, hin, hs⟩ := hw
  rw [find_insert_of_wf h]
  by_cases ht : t = s
  · rw [if_pos ht, if_pos ht]
  rw [if_neg ht, if_neg ht]
  split
  · next hi =>
    rcases hf : b.find t with _ | w
    · rfl
    · exact absurd hi (index_ne_of_window h hs (hin t (contains_iff.mpr ⟨w, hf⟩)) ht)
  · rfl

inductive Op (α : Type)
  | insert (s : ℕ) (v : α)
  | take (s : ℕ)
  | erase (s : ℕ)
  | clear
  | forEach (fn : Visitor α)

inductive Answer (α : Type)
  | done
  | taken (v : Option α)
  | erased (found : Bool)
  | visited (order : List (ℕ × α))
  deriving DecidableEq

def perform (b : SequenceBuffer α) : Op α → Answer α × SequenceBuffer α
  | .insert s v => (.done, b.insert s v)
  | .take s => (.taken (b.take s).1, (b.take s).2)
  | .erase s => (.erased (b.contains s), b.erase s)
  | .clear => (.done, b.clear)
  | .forEach fn => (.visited (b.forEach fn).1, (b.forEach fn).2)

def performAll : SequenceBuffer α → List (Op α) → List (Answer α) × SequenceBuffer α
  | b, [] => ([], b)
  | b, op :: ops =>
    let rest := performAll (b.perform op).2 ops
    ((b.perform op).1 :: rest.1, rest.2)

def Op.Windowed (b : SequenceBuffer α) : Op α → Prop
  | .insert s _ => b.InWindow s
  | _ => True

def Windowed : SequenceBuffer α → List (Op α) → Prop
  | _, [] => True
  | b, op :: ops => op.Windowed b ∧ Windowed (b.perform op).2 ops

abbrev SeqMap (α : Type) := Finmap fun _ : ℕ => α

structure Enumerates (m : SeqMap α) (order : List (ℕ × α)) : Prop where
  nodup : (order.map Prod.fst).Nodup
  mem : ∀ s v, (s, v) ∈ order ↔ m.lookup s = some v

inductive MapStep : SeqMap α → Op α → Answer α → SeqMap α → Prop
  | insert (m : SeqMap α) (s : ℕ) (v : α) : MapStep m (.insert s v) .done (m.insert s v)
  | take (m : SeqMap α) (s : ℕ) : MapStep m (.take s) (.taken (m.lookup s)) (m.erase s)
  | erase (m : SeqMap α) (s : ℕ) : MapStep m (.erase s) (.erased (decide (s ∈ m))) (m.erase s)
  | clear (m : SeqMap α) : MapStep m .clear .done ∅
  | forEach {m m' : SeqMap α} {order : List (ℕ × α)} (fn : Visitor α) (h : Enumerates m order)
      (h' : Enumerates m' (outcome fn [] order)) : MapStep m (.forEach fn) (.visited order) m'

inductive MapRun : SeqMap α → List (Op α) → List (Answer α) → SeqMap α → Prop
  | nil (m : SeqMap α) : MapRun m [] [] m
  | cons {m m' m'' : SeqMap α} {op : Op α} {ops : List (Op α)} {answer : Answer α} {answers : List (Answer α)}
      (h : MapStep m op answer m') (hs : MapRun m' ops answers m'') : MapRun m (op :: ops) (answer :: answers) m''

structure Represents (b : SequenceBuffer α) (m : SeqMap α) : Prop where
  wf : b.WF
  find : ∀ s, b.find s = m.lookup s

lemma exists_enumerated (h : (order.map Prod.fst).Nodup) :
    ∃ m : SeqMap α, Enumerates m order := by
  have hkeys : (order.map fun p => (⟨p.1, p.2⟩ : Sigma fun _ : ℕ => α)).NodupKeys := by
    rw [List.NodupKeys, List.keys, List.map_map]
    exact h
  refine ⟨(order.map fun p => ⟨p.1, p.2⟩).toFinmap, h, fun s v => ?_⟩
  rw [Finmap.dlookup_list_toFinmap, ← Option.mem_def, List.mem_dlookup_iff hkeys, List.mem_map]
  constructor
  · exact fun hm => ⟨(s, v), hm, rfl⟩
  · rintro ⟨⟨s', v'⟩, hm, he⟩
    cases he
    exact hm

variable {m : SeqMap α}

lemma Represents.enumerates (h : b.Represents m) : Enumerates m b.entries where
  nodup := nodup_entries h.wf
  mem s v := by rw [mem_entries_iff h.wf, h.find]

lemma represents_of_enumerates (hwf : b.WF) (h : Enumerates m b.entries) : b.Represents m where
  wf := hwf
  find s := by
    apply Option.ext
    intro v
    rw [← mem_entries_iff hwf, h.mem]

lemma Represents.contains (h : b.Represents m) (s : ℕ) : b.contains s = true ↔ s ∈ m := by
  rw [SequenceBuffer.contains, h.find, Finmap.lookup_isSome]

lemma Enumerates.length (h : Enumerates m order) : order.length = m.keys.card := by
  have hkeys : m.keys = (order.map Prod.fst).toFinset := by
    ext s
    rw [Finmap.mem_keys, Finmap.mem_iff, List.mem_toFinset, List.mem_map]
    constructor
    · rintro ⟨v, hv⟩
      exact ⟨(s, v), (h.mem s v).mpr hv, rfl⟩
    · rintro ⟨⟨s', v⟩, hm, rfl⟩
      exact ⟨v, (h.mem s' v).mp hm⟩
  rw [hkeys, List.toFinset_card_of_nodup h.nodup, List.length_map]

lemma Represents.size (h : b.Represents m) : b.size = m.keys.card := h.wf.size.trans h.enumerates.length

lemma Represents.erase (h : b.Represents m) (s : ℕ) : (b.erase s).Represents (m.erase s) where
  wf := wf_erase h.wf
  find t := by
    rw [find_erase h.wf, h.find]
    by_cases ht : t = s
    · rw [if_pos ht, ht, Finmap.lookup_erase]
    · rw [if_neg ht, Finmap.lookup_erase_ne ht]

lemma Represents.step (h : b.Represents m) {op : Op α} (hw : op.Windowed b) :
    ∃ m', MapStep m op (b.perform op).1 m' ∧ (b.perform op).2.Represents m' := by
  cases op with
  | insert s v =>
    refine ⟨m.insert s v, .insert m s v, wf_insert h.wf, fun t => ?_⟩
    rw [perform, InWindow.find_insert hw h.wf, h.find]
    by_cases ht : t = s
    · rw [if_pos ht, ht, Finmap.lookup_insert]
    · rw [if_neg ht, Finmap.lookup_insert_of_ne m ht]
  | take s =>
    refine ⟨m.erase s, ?_, h.erase s⟩
    rw [perform, SequenceBuffer.take, h.find]
    exact .take m s
  | erase s =>
    refine ⟨m.erase s, ?_, h.erase s⟩
    have hfound : b.contains s = decide (s ∈ m) := by
      rw [Bool.eq_iff_iff, h.contains, decide_eq_true_eq]
    rw [perform, hfound]
    exact .erase m s
  | clear => exact ⟨∅, .clear m, wf_clear h.wf, fun t => find_clear⟩
  | forEach fn =>
    have hwf := wf_forEach fn h.wf
    obtain ⟨m', hm'⟩ := exists_enumerated (nodup_entries hwf)
    refine ⟨m', ?_, represents_of_enumerates hwf hm'⟩
    rw [entries_forEach] at hm'
    rw [perform, visited_forEach]
    exact .forEach fn h.enumerates hm'

lemma Represents.run (h : b.Represents m) {ops : List (Op α)} (hw : b.Windowed ops) :
    ∃ m', MapRun m ops (b.performAll ops).1 m' ∧ (b.performAll ops).2.Represents m' := by
  induction ops generalizing b m with
  | nil => exact ⟨m, .nil m, h⟩
  | cons op ops ih =>
    obtain ⟨m₁, hstep, h₁⟩ := h.step hw.1
    obtain ⟨m', hrun, h'⟩ := ih h₁ hw.2
    exact ⟨m', .cons hstep hrun, h'⟩

def record (last : ℕ → Option α) : Op α → Answer α → ℕ → Option α
  | .insert s v, _, t => if t = s then some v else last t
  | .forEach fn, .visited order, t => ((outcome fn [] order).lookup t).or (last t)
  | _, _, t => last t

def lastValues : (ℕ → Option α) → List (Op α) → List (Answer α) → ℕ → Option α
  | last, op :: ops, answer :: answers => lastValues (record last op answer) ops answers
  | last, _, _ => last

structure Recalls (b : SequenceBuffer α) (last : ℕ → Option α) : Prop where
  wf : b.WF
  find : ∀ s v, b.find s = some v → last s = some v

lemma lookup_of_mem (hn : (order.map Prod.fst).Nodup) (h : (s, v) ∈ order) :
    order.lookup s = some v := by
  obtain ⟨before, after, rfl⟩ := List.append_of_mem h
  refine List.lookup_eq_some_iff.mpr ⟨before, after, rfl, fun p hp => ?_⟩
  rw [List.map_append, List.map_cons, List.nodup_append] at hn
  have hne := hn.2.2 p.1 (List.mem_map_of_mem hp) s (List.mem_cons_self ..)
  exact bne_iff_ne.mpr hne.symm

lemma Recalls.step {last : ℕ → Option α} (h : b.Recalls last) (op : Op α) :
    (b.perform op).2.Recalls (record last op (b.perform op).1) := by
  cases op with
  | insert s v =>
    refine ⟨wf_insert h.wf, fun t w hf => ?_⟩
    rw [perform, find_insert_of_wf h.wf] at hf
    rw [record]
    by_cases ht : t = s
    · rw [if_pos ht] at hf ⊢
      exact hf
    · rw [if_neg ht] at hf ⊢
      split at hf
      · cases hf
      · exact h.find t w hf
  | take s => exact ⟨wf_erase h.wf, fun t w hf => h.find t w (find_of_find_erase hf)⟩
  | erase s => exact ⟨wf_erase h.wf, fun t w hf => h.find t w (find_of_find_erase hf)⟩
  | clear => exact ⟨wf_clear h.wf, fun t w hf => absurd (find_clear.symm.trans hf) nofun⟩
  | forEach fn =>
    have hwf := wf_forEach fn h.wf
    refine ⟨hwf, fun t w hf => ?_⟩
    have hmem := (mem_entries_iff hwf).mpr hf
    have hnodup := nodup_entries hwf
    rw [entries_forEach] at hmem hnodup
    rw [perform, visited_forEach, record, lookup_of_mem hnodup hmem, Option.some_or]

lemma Recalls.run {last : ℕ → Option α} (h : b.Recalls last) (ops : List (Op α)) :
    (b.performAll ops).2.Recalls (lastValues last ops (b.performAll ops).1) := by
  induction ops generalizing b last with
  | nil => exact h
  | cons op ops ih => exact ih (h.step op)

theorem refines_finite_map (k : ℕ) (ops : List (Op α)) :
    ((new (2 ^ k)).Windowed ops → ∃ m, MapRun ∅ ops ((new (2 ^ k)).performAll ops).1 m ∧
      (∀ s, ((new (2 ^ k)).performAll ops).2.find s = m.lookup s) ∧
      (∀ s, ((new (2 ^ k)).performAll ops).2.contains s = true ↔ s ∈ m) ∧
      ((new (2 ^ k)).performAll ops).2.size = m.keys.card ∧
      ∀ fn, Enumerates m (((new (2 ^ k)).performAll ops).2.forEach fn).1) ∧
    (∀ s, ((new (2 ^ k)).performAll ops).2.find s = none ∨ ((new (2 ^ k)).performAll ops).2.find s =
      lastValues (fun _ => none) ops ((new (2 ^ k)).performAll ops).1 s) ∧
    ((new (2 ^ k)).performAll ops).2.size = ((new (2 ^ k)).performAll ops).2.mSlots.countP Option.isSome := by
  have hempty : (new (2 ^ k) : SequenceBuffer α).Recalls fun _ => none :=
    ⟨wf_new k, fun s v hf => absurd ((find_new _).symm.trans hf) nofun⟩
  have hall := hempty.run ops
  refine ⟨fun hw => ?_, fun s => ?_, ?_⟩
  · obtain ⟨m, hrun, hm⟩ := Represents.run (m := ∅) ⟨wf_new k, fun s => find_new _⟩ hw
    exact ⟨m, hrun, hm.find, hm.contains, hm.size, fun fn => visited_forEach ▸ hm.enumerates⟩
  · rcases hf : ((new (2 ^ k)).performAll ops).2.find s with _ | v
    · exact .inl rfl
    · exact .inr (hall.find s v hf).symm
  · rw [size, hall.wf.size, entries, List.length_filterMap_eq_countP]
    rfl

def sliding : List (Op ℕ) :=
  [.insert 1 10, .insert 4 40, .take 1, .insert 5 50, .insert 4 41,
    .forEach fun _ s v => if s % 2 = 1 then some v else none]

lemma windowed_sliding : (new (2 ^ 2)).Windowed sliding := by
  refine ⟨inWindow_of_entries 1 ?_ ?_, inWindow_of_entries 1 ?_ ?_, trivial, inWindow_of_entries 2 ?_ ?_,
    inWindow_of_entries 2 ?_ ?_, trivial, trivial⟩
  all_goals decide

theorem refines_finite_map_sliding :
    ((new (2 ^ 2)).performAll sliding).1 =
        [.done, .done, .taken (some 10), .done, .done, .visited [(4, 41), (5, 50)]] ∧
      ∃ m : SeqMap ℕ, m.lookup 4 = none ∧ m.lookup 5 = some 50 ∧ m.keys.card = 1 := by
  obtain ⟨m, -, hfind, -, hsize, -⟩ := (refines_finite_map 2 sliding).1 windowed_sliding
  exact ⟨by decide, m, (hfind 4).symm, (hfind 5).symm, hsize.symm⟩

end NetLink.Channel.SequenceBuffer
