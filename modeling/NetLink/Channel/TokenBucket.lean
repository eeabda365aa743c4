import NetLink.Channel.SendScheduler
import NetLink.Lib.Bucket

/-! The scheduler as a token bucket: what it sends over time, and what Media may take of it. -/

namespace NetLink.Channel.SendScheduler

open Lib (Bucket)

section Rule

variable {σ : Type} {send : σ → Lane → PeerId → Result × σ} {I : ℚ → SendScheduler → σ → Prop}

def Turns (send : σ → Lane → PeerId → Result × σ) (I : ℚ → SendScheduler → σ → Prop) (lane : Lane)
    (capped : Bool) : Prop :=
  ∀ allowance s owner peer ring, I allowance s owner → s.hasTokens = true → (capped = true → 1 ≤ allowance) →
    I (if (send owner lane peer).1.serves then allowance - (if capped then 1 else 0) else allowance)
      ((if (send owner lane peer).1.serves then s.spend else s).setRing lane ring) (send owner lane peer).2

lemma runLane_rule {lane : Lane} {capped : Bool} (h : Turns send I lane capped) (fuel : ℕ) (allowance : ℚ)
    (s : SendScheduler) (owner : σ) (hi : I allowance s owner) :
    I (runLane send lane capped fuel allowance s owner).2.1 (runLane send lane capped fuel allowance s owner).2.2.1
      (runLane send lane capped fuel allowance s owner).2.2.2 := by
  induction fuel generalizing allowance s owner with
  | zero => exact hi
  | succ fuel ih =>
    rw [runLane]
    dsimp only
    split
    · exact hi
    · next hgo =>
      simp only [Bool.or_eq_true, Bool.not_eq_true', not_or, Bool.not_eq_false, Bool.and_eq_true,
        decide_eq_true_eq, not_and,
        not_lt] at hgo
      generalize (if (s.mRings lane).cursor ≥ (s.mRings lane).peers.length then
        { s.mRings lane with cursor := 0 } else s.mRings lane) = ring
      have ht := fun ring' => h allowance s owner (ring.peers.getD ring.cursor 0) ring' hi hgo.1.2 hgo.2
      split
      · next he =>
        rw [he] at ht
        exact ih _ _ _ (ht _)
      · next he =>
        rw [he] at ht
        exact ih _ _ _ (ht _)
      · next he =>
        rw [he] at ht
        exact ih _ _ _ (ht _)
      · next he =>
        rw [he] at ht
        exact ht _

lemma runLanes_rule (send : σ → Lane → PeerId → Result × σ)
    (hlimit : ∀ allowance s owner, I allowance s owner → s.isUnlimited = false)
    (h : ∀ lane, Turns send I lane (lane == .media)) (fuel : ℕ) (lanes : List Lane) (allowance : ℚ)
    (s : SendScheduler) (owner : σ) (hi : I allowance s owner) :
    ∃ left, I left (runLanes send fuel lanes allowance s owner).1
      (runLanes send fuel lanes allowance s owner).2 := by
  induction lanes generalizing allowance s owner with
  | nil => exact ⟨allowance, hi⟩
  | cons lane lanes ih =>
    have hcap : (lane == .media && !s.isUnlimited) = (lane == .media) := by rw [hlimit _ _ _ hi]; simp
    have hl := runLane_rule (h lane) fuel allowance s owner hi
    rw [runLanes, hcap]
    split
    · next he =>
      rw [he] at hl
      exact ⟨_, hl⟩
    · next he =>
      rw [he] at hl
      exact ih _ _ _ hl

end Rule

inductive Note
  | refilled (now : TimePoint)
  | spent (datagrams : ℕ)
  | asked (lane : Lane) (result : Result)
  deriving DecidableEq, Repr

def Note.event : Note → Bucket.Event
  | .refilled now => .fill now
  | .spent datagrams => .charge datagrams
  | .asked _ result => .ask result.serves

def Note.serves : Note → Bool
  | .asked _ result => result.serves
  | _ => false

def Note.servesMedia : Note → Bool
  | .asked lane result => lane == .media && result.serves
  | _ => false

inductive Operation
  | refill (now : TimePoint)
  | spend (datagrams : ℕ)
  | add (lane : Lane) (peer : PeerId)
  | remove (peer : PeerId)
  | run (answer : List Note → Lane → PeerId → Result) (fuel : ℕ)

def noting (answer : List Note → Lane → PeerId → Result) (notes : List Note) (lane : Lane) (peer : PeerId) :
    Result × List Note :=
  (answer notes lane peer, notes ++ [.asked lane (answer notes lane peer)])

structure Metered where
  scheduler : SendScheduler
  notes : List Note := []

namespace Metered

def perform (m : Metered) : Operation → Metered
  | .refill now => ⟨m.scheduler.refill now, m.notes ++ [.refilled now]⟩
  | .spend datagrams => ⟨m.scheduler.spendMany datagrams, m.notes ++ [.spent datagrams]⟩
  | .add lane peer => { m with scheduler := m.scheduler.add lane peer }
  | .remove peer => { m with scheduler := m.scheduler.remove peer }
  | .run answer fuel =>
    ⟨(m.scheduler.run (noting answer) fuel m.notes).1, (m.scheduler.run (noting answer) fuel m.notes).2⟩

def Allows (m : Metered) : Operation → Prop
  | .refill now => ∀ t ∈ m.scheduler.mRefilledAt, t ≤ now
  | _ => True

def system (rate : ℕ) : Lib.System Metered where
  init m := m = { scheduler := .new rate }
  step m m' := ∃ o, m.Allows o ∧ m' = m.perform o

end Metered

def flow (rate : ℕ) : ℚ := rate / 1000000000

def bucketOf (rate : ℕ) (notes : List Note) : Bucket :=
  (notes.map Note.event).foldl (Bucket.step (flow rate) (burstOf rate)) { tokens := burstOf rate }

structure Conforms (rate : ℕ) (s : SendScheduler) (notes : List Note) : Prop where
  rated : s.mRate = rate
  burst : s.mBurst = burstOf rate
  balance : bucketOf rate notes = ⟨s.mTokens, s.mRefilledAt⟩
  admitted : Lib.Along Bucket.Admits (Bucket.step (flow rate) (burstOf rate)) { tokens := burstOf rate }
    (notes.map Note.event)

section Conformance

variable {rate : ℕ} {s : SendScheduler} {notes : List Note}

lemma bucketOf_concat (rate : ℕ) (notes : List Note) (note : Note) :
    bucketOf rate (notes ++ [note]) = (bucketOf rate notes).step (flow rate) (burstOf rate) note.event := by
  simp [bucketOf]

lemma Conforms.concat (h : Conforms rate s notes) {note : Note} {t : SendScheduler}
    (ha : Bucket.Admits ⟨s.mTokens, s.mRefilledAt⟩ note.event) (hrate : t.mRate = s.mRate)
    (hburst : t.mBurst = s.mBurst)
    (hs : Bucket.step (flow rate) (burstOf rate) ⟨s.mTokens, s.mRefilledAt⟩ note.event =
      ⟨t.mTokens, t.mRefilledAt⟩) :
    Conforms rate t (notes ++ [note]) where
  rated := hrate.trans h.rated
  burst := hburst.trans h.burst
  balance := by rw [bucketOf_concat, h.balance, hs]
  admitted := by
    rw [List.map_append, Lib.along_append]
    refine ⟨h.admitted, ?_, trivial⟩
    have hb := h.balance
    rw [bucketOf] at hb
    rw [hb]
    exact ha

lemma Conforms.congr (h : Conforms rate s notes) {s' : SendScheduler} (hrate : s'.mRate = s.mRate)
    (hburst : s'.mBurst = s.mBurst) (htokens : s'.mTokens = s.mTokens) (htime : s'.mRefilledAt = s.mRefilledAt) :
    Conforms rate s' notes where
  rated := hrate.trans h.rated
  burst := hburst.trans h.burst
  balance := by rw [h.balance, htokens, htime]
  admitted := h.admitted

lemma Conforms.limited (h : Conforms rate s notes) (hr : rate ≠ 0) : s.isUnlimited = false := by
  rw [isUnlimited, h.rated]
  exact beq_false_of_ne hr

lemma flow_mul (rate : ℕ) (d : ℤ) : flow rate * d = rate * seconds d := by
  rw [flow, seconds]
  ring

lemma Conforms.refill (h : Conforms rate s notes) {now : TimePoint} (hn : ∀ t ∈ s.mRefilledAt, t ≤ now) :
    Conforms rate (s.refill now) (notes ++ [.refilled now]) := by
  refine h.concat (t := s.refill now) hn rfl rfl ?_
  simp only [Note.event, Bucket.step, Bucket.fill, SendScheduler.refill, Bucket.mk.injEq, and_true]
  cases s.mRefilledAt with
  | none => rfl
  | some t => simp only [h.rated, h.burst, flow_mul]

lemma Conforms.spendMany (h : Conforms rate s notes) (hr : rate ≠ 0) (datagrams : ℕ) :
    Conforms rate (s.spendMany datagrams) (notes ++ [.spent datagrams]) := by
  rw [SendScheduler.spendMany, h.limited hr]
  exact h.concat trivial rfl rfl rfl

lemma Conforms.asked (h : Conforms rate s notes) (hr : rate ≠ 0) (ht : s.hasTokens = true) (lane : Lane)
    (result : Result) (ring : Ring) : Conforms rate ((if result.serves then s.spend else s).setRing lane ring)
      (notes ++ [.asked lane result]) := by
  have hone : 1 ≤ s.mTokens := by
    rw [hasTokens, h.limited hr] at ht
    exact of_decide_eq_true ht
  cases hserves : result.serves with
  | true =>
    rw [if_pos rfl, spend, h.limited hr]
    refine h.concat hone rfl rfl ?_
    simp [Note.event, hserves, Bucket.step, setRing]
  | false =>
    rw [if_neg Bool.false_ne_true]
    refine h.concat hone rfl rfl ?_
    simp [Note.event, hserves, Bucket.step, setRing]

lemma Conforms.run (h : Conforms rate s notes) (hr : rate ≠ 0) (answer : List Note → Lane → PeerId → Result)
    (fuel : ℕ) :
    Conforms rate (s.run (noting answer) fuel notes).1 (s.run (noting answer) fuel notes).2 := by
  obtain ⟨left, hc⟩ := runLanes_rule (I := fun _ s notes => Conforms rate s notes) (noting answer)
    (fun _ s notes h => h.limited hr)
    (fun lane allowance s notes peer ring h ht _ => h.asked hr ht lane (answer notes lane peer) ring) fuel Order
    (if !(s.mRings .reliable).peers.isEmpty || !(s.mRings .bulk).peers.isEmpty then s.mTokens * 3 / 4
      else s.mTokens) s notes h
  exact hc

def mediaSince (n : ℕ) (notes : List Note) : ℕ := (notes.drop n).countP Note.servesMedia

lemma mediaSince_concat {n : ℕ} (hn : n ≤ notes.length) (note : Note) :
    mediaSince n (notes ++ [note]) = mediaSince n notes + if note.servesMedia then 1 else 0 := by
  rw [mediaSince, mediaSince, List.drop_append_of_le_length hn, List.countP_append, List.countP_singleton]

structure Shares (n : ℕ) (allowance left : ℚ) (notes : List Note) : Prop where
  since : n ≤ notes.length
  taken : (mediaSince n notes : ℚ) + left = allowance
  enough : mediaSince n notes = 0 ∨ 0 ≤ left

lemma Shares.asked {n : ℕ} {allowance left : ℚ} (h : Shares n allowance left notes) (lane : Lane) (result : Result)
    (hleft : (lane == .media) = true → 1 ≤ left) :
    Shares n allowance (if result.serves then left - (if lane == .media then 1 else 0) else left)
      (notes ++ [.asked lane result]) := by
  have hcount := mediaSince_concat h.since (.asked lane result)
  have hsince : n ≤ (notes ++ [Note.asked lane result]).length := by
    rw [List.length_append]
    exact h.since.trans (Nat.le_add_right ..)
  have hserved : (Note.asked lane result).servesMedia = (lane == .media && result.serves) := rfl
  cases hmedia : (lane == .media) <;> cases hserves : result.serves
  case true.true =>
    have htaken := h.taken
    have hleft := hleft hmedia
    rw [hserved, hmedia, hserves, Bool.and_self, if_pos rfl] at hcount
    refine ⟨hsince, ?_, .inr ?_⟩
    · rw [hcount, Nat.cast_add, Nat.cast_one]
      simp only [if_true]
      linarith
    · simp only [if_true]
      linarith
  all_goals
    have hsame : mediaSince n (notes ++ [.asked lane result]) = mediaSince n notes := by
      rw [hcount, hserved, hmedia, hserves]
      rfl
    refine ⟨hsince, ?_, ?_⟩ <;> rw [hsame] <;> simp only [Bool.false_eq_true, if_true, if_false, sub_zero]
    · exact h.taken
    · exact h.enough

lemma media_le (h : Conforms rate s notes) (hr : rate ≠ 0) (answer : List Note → Lane → PeerId → Result)
    (fuel : ℕ) :
    mediaSince notes.length (s.run (noting answer) fuel notes).2 = 0 ∨
      (mediaSince notes.length (s.run (noting answer) fuel notes).2 : ℚ) ≤
        if !(s.mRings .reliable).peers.isEmpty || !(s.mRings .bulk).peers.isEmpty then s.mTokens * 3 / 4
          else s.mTokens := by
  rw [run]
  generalize (if !(s.mRings .reliable).peers.isEmpty || !(s.mRings .bulk).peers.isEmpty then s.mTokens * 3 / 4
    else s.mTokens) = allowance
  have hinit : Shares notes.length allowance allowance notes := by
    have hnone : mediaSince notes.length notes = 0 := by rw [mediaSince, List.drop_length]; rfl
    exact ⟨le_rfl, by rw [hnone]; simp, .inl hnone⟩
  obtain ⟨left, -, hshares⟩ := runLanes_rule
    (I := fun left s' notes' => Conforms rate s' notes' ∧ Shares notes.length allowance left notes')
      (noting answer)
    (fun _ s notes h => h.1.limited hr)
    (fun lane left s' notes' peer ring h ht hleft =>
      ⟨h.1.asked hr ht lane (answer notes' lane peer) ring, h.2.asked lane (answer notes' lane peer) hleft⟩)
    fuel Order allowance s notes ⟨h, hinit⟩
  refine hshares.enough.imp_right fun hleft => ?_
  have htaken := hshares.taken
  linarith

end Conformance

namespace Metered

variable {rate : ℕ} {m m' : Metered}

lemma conforms (hr : rate ≠ 0) (h : (system rate).Reachable m) : Conforms rate m.scheduler m.notes := by
  refine h.invariant (P := fun m => Conforms rate m.scheduler m.notes) ?_ ?_
  · rintro m rfl
    exact ⟨rfl, rfl, rfl, trivial⟩
  · rintro m _ - ih ⟨o, ho, rfl⟩
    cases o with
    | refill now => exact ih.refill ho
    | spend datagrams => exact ih.spendMany hr datagrams
    | add lane peer => exact ih.congr rfl rfl rfl rfl
    | remove peer => exact ih.congr rfl rfl rfl rfl
    | run answer fuel => exact ih.run hr answer fuel

end Metered

section Windows

variable {rate : ℕ} {s : SendScheduler} {notes : List Note}

lemma tokens_bucketOf_le (rate : ℕ) (notes : List Note) : (bucketOf rate notes).tokens ≤ burstOf rate := by
  rw [bucketOf]
  exact Bucket.tokens_foldl_le le_rfl

lemma Conforms.tokens_le (h : Conforms rate s notes) : s.mTokens ≤ s.mBurst := by
  have hle := tokens_bucketOf_le rate notes
  rwa [h.balance, ← h.burst] at hle

lemma Conforms.asked_with_token (h : Conforms rate s notes) {before after : List Note} {lane : Lane}
    {result : Result} (hn : notes = before ++ .asked lane result :: after) :
    1 ≤ (bucketOf rate before).tokens := by
  have ha := h.admitted
  rw [hn, List.map_append, Lib.along_append] at ha
  exact ha.2.1

def Note.refills : Note → Bool
  | .refilled _ => true
  | _ => false

lemma filledAt_foldl {rest : List Note} (hrest : ∀ note ∈ rest, note.refills = false) (b : Bucket) :
    ((rest.map Note.event).foldl (Bucket.step (flow rate) (burstOf rate)) b).filledAt = b.filledAt := by
  induction rest generalizing b with
  | nil => rfl
  | cons note rest ih =>
    obtain ⟨hnote, hrest⟩ := List.forall_mem_cons.mp hrest
    rw [List.map_cons, List.foldl_cons, ih hrest]
    cases note with
    | refilled now => cases hnote
    | spent datagrams => rfl
    | asked lane result => rfl

lemma granted_events (notes : List Note) : Bucket.granted (notes.map Note.event) = notes.countP Note.serves := by
  rw [Bucket.granted, List.countP_map]
  refine List.countP_congr fun note _ => ?_
  cases note with
  | asked lane result => cases result <;> simp [Note.event, Note.serves, Result.serves]
  | _ => simp [Note.event, Note.serves]

lemma Conforms.window (h : Conforms rate s notes) {before during rest after : List Note} {t₀ t₁ : TimePoint}
    (hn : notes = before ++ .refilled t₀ :: (during ++ .refilled t₁ :: (rest ++ after)))
    (hrest : ∀ note ∈ rest, note.refills = false) :
    ((during ++ rest).countP Note.serves : ℚ) ≤ s.mBurst + s.mRate * seconds (t₁ - t₀) := by
  have ha := h.admitted
  have hsplit : notes.map Note.event = before.map Note.event ++ .fill t₀ ::
      ((during ++ .refilled t₁ :: rest).map Note.event ++ after.map Note.event) := by
    rw [hn]
    simp [Note.event]
  rw [hsplit, Lib.along_append, ← bucketOf, Lib.Along, Bucket.step, Lib.along_append] at ha
  obtain ⟨-, -, ha, -⟩ := ha
  have htime : (((during ++ Note.refilled t₁ :: rest).map Note.event).foldl
    (Bucket.step (flow rate) (burstOf rate))
      ((bucketOf rate before).fill (flow rate) (burstOf rate) t₀)).filledAt = some t₁ := by
    rw [List.map_append, List.foldl_append, List.map_cons, List.foldl_cons, filledAt_foldl hrest]
    rfl
  have hflow : 0 ≤ flow rate := div_nonneg (Nat.cast_nonneg _) (by norm_num)
  have hle := Bucket.granted_le hflow (tokens_bucketOf_le rate before) (Nat.cast_nonneg _) ha htime
  have hcount : (during ++ Note.refilled t₁ :: rest).countP Note.serves = (during ++ rest).countP Note.serves := by
    rw [List.countP_append, List.countP_append, List.countP_cons_of_neg Bool.false_ne_true]
  rwa [granted_events, hcount, flow_mul, ← h.burst, ← h.rated] at hle

end Windows

namespace Metered

variable {rate : ℕ} {m : Metered}

theorem bucket_conformance (hr : rate ≠ 0) (h : (system rate).Reachable m) :
    m.scheduler.mTokens ≤ m.scheduler.mBurst ∧
    (bucketOf rate m.notes = ⟨m.scheduler.mTokens, m.scheduler.mRefilledAt⟩ ∧
      ∀ before lane result after, m.notes = before ++ .asked lane result :: after →
        1 ≤ (bucketOf rate before).tokens) ∧
    (∀ before during rest after t₀ t₁,
      m.notes = before ++ .refilled t₀ :: (during ++ .refilled t₁ :: (rest ++ after)) →
      (∀ note ∈ rest, note.refills = false) →
      ((during ++ rest).countP Note.serves : ℚ) ≤ m.scheduler.mBurst + m.scheduler.mRate * seconds (t₁ - t₀)) ∧
    ∀ answer fuel, (m.scheduler.mRings .reliable).peers ≠ [] ∨ (m.scheduler.mRings .bulk).peers ≠ [] →
      (0 ≤ m.scheduler.mTokens →
        (mediaSince m.notes.length (m.perform (.run answer fuel)).notes : ℚ) ≤ 3 / 4 * m.scheduler.mTokens) ∧
      (m.scheduler.mTokens < 0 → mediaSince m.notes.length (m.perform (.run answer fuel)).notes = 0) := by
  have hc := conforms hr h
  refine ⟨hc.tokens_le, ⟨hc.balance, fun before lane result after hn => hc.asked_with_token hn⟩,
    fun before during rest after t₀ t₁ hn hrest => hc.window hn hrest, fun answer fuel hwaits => ?_⟩
  have hwaits : (!(m.scheduler.mRings .reliable).peers.isEmpty || !(m.scheduler.mRings .bulk).peers.isEmpty) =
    true := by
    rw [Bool.or_eq_true, Bool.not_eq_true', Bool.not_eq_true', List.isEmpty_eq_false_iff,
      List.isEmpty_eq_false_iff]
    exact hwaits
  have hmedia := media_le hc hr answer fuel
  rw [if_pos hwaits] at hmedia
  refine ⟨fun hpos => ?_, fun hneg => ?_⟩
  · rcases hmedia with hnone | hle
    · rw [perform, hnone]
      push_cast
      linarith
    · rw [perform]
      linarith
  · rcases hmedia with hnone | hle
    · exact hnone
    · have hnonneg : (0 : ℚ) ≤ mediaSince m.notes.length (m.scheduler.run (noting answer) fuel m.notes).2 :=
        Nat.cast_nonneg _
      linarith

def performed (rate : ℕ) (operations : List Operation) : Metered :=
  operations.foldl perform { scheduler := .new rate }

instance (m : Metered) : ∀ o, Decidable (m.Allows o)
  | .refill now => inferInstanceAs (Decidable (∀ t ∈ m.scheduler.mRefilledAt, t ≤ now))
  | .spend _ | .add _ _ | .remove _ | .run _ _ => .isTrue trivial

lemma performed_reachable {operations : List Operation}
    (h : Lib.Along Allows perform { scheduler := .new rate } operations) :
      (system rate).Reachable (performed rate operations) :=
  .along (fun _ o ho => ⟨o, ho, rfl⟩) (.of_init rfl) h

def filled : Metered := performed 1000 [.refill 0, .add .media 2, .add .bulk 3]

theorem bucket_conformance_filled :
    mediaSince filled.notes.length (filled.perform (.run (fun _ _ _ => .sent) 20)).notes = 12 ∧
      (mediaSince filled.notes.length (filled.perform (.run (fun _ _ _ => .sent) 20)).notes : ℚ) ≤
        3 / 4 * filled.scheduler.mTokens := by
  obtain ⟨-, -, -, hmedia⟩ := @bucket_conformance 1000 filled (by decide) (performed_reachable (by decide))
  exact ⟨by decide +kernel, (hmedia _ 20 (.inr (by decide +kernel))).1 (by decide +kernel)⟩

def overdrawn : Metered := performed 1000 [.spend 17, .add .bulk 3]

/-- Three quarters of a bucket below zero are less than nothing. -/
theorem share_of_overdrawn : ∃ m answer fuel, (system 1000).Reachable m ∧ (m.scheduler.mRings .bulk).peers ≠ [] ∧
    ¬(mediaSince m.notes.length (m.perform (.run answer fuel)).notes : ℚ) ≤ 3 / 4 * m.scheduler.mTokens :=
  ⟨overdrawn, fun _ _ _ => .sent, 20, performed_reachable (by decide), by decide +kernel, by decide +kernel⟩

end Metered

end NetLink.Channel.SendScheduler
