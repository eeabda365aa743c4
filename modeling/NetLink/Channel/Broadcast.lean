import NetLink.Channel.Mailbox

/-! One message for every peer, and the same message for each of them. -/

namespace NetLink.Channel.Mailbox

def pushEach (lane : Lane) (mail : Mail) : List PeerId → Mailbox → List (Push × Bool) × Mailbox
  | [], m => ([], m)
  | id :: ids, m =>
    let (result, ring, m) := m.push id lane mail
    let (results, m) := pushEach lane mail ids m
    ((result, ring) :: results, m)

variable {m : Mailbox} {lane : Lane} {mail : Mail}

lemma push_cases (m : Mailbox) (id : PeerId) (lane : Lane) (mail : Mail) :
    (m.push id lane mail).2 = (false, m) ∧ (m.push id lane mail).1 ≠ .queued ∨
      ∃ peer, m.mPeers[id]? = some peer ∧ peer.isSealed = false ∧
        (lane ≠ .media → peer.hasRoom lane mail.body.length m.mQueueBytes = true) ∧
        m.push id lane mail = (.queued, m.enqueue id peer lane mail) := by
  rw [push]
  split
  · exact .inl ⟨rfl, by simp⟩
  split
  · exact .inl ⟨rfl, by simp⟩
  split
  · exact .inl ⟨rfl, by simp⟩
  next peer hp =>
  split
  · exact .inl ⟨rfl, by simp⟩
  next ho =>
  split
  · exact .inl ⟨rfl, by simp⟩
  next hr =>
  refine .inr ⟨peer, hp, by simpa using ho, fun hl => ?_, rfl⟩
  simpa [hl] using hr

lemma mRunning_push (m : Mailbox) (id : PeerId) (lane : Lane) (mail : Mail) :
    (m.push id lane mail).2.2.mRunning = m.mRunning := by
  rcases push_cases m id lane mail with ⟨he, -⟩ | ⟨peer, -, -, -, he⟩
  · rw [he]
  · rw [he]
    rfl

lemma pushOne_eq (hs : mail.body.length ≤ maxMessageSize lane) (hr : m.mRunning = true) (taken : ℕ) (ring : Bool)
    (id : PeerId) : pushOne lane mail (taken, ring, m) id =
      (taken + (if (m.push id lane mail).1 = .queued then 1 else 0), ring || (m.push id lane mail).2.1,
        (m.push id lane mail).2.2) := by
  have hrunning : ¬(!m.mRunning) = true := by simp [hr]
  cases hp : m.mPeers[id]? with
  | none =>
    have hpush : m.push id lane mail = (.closed, false, m) := by
      rw [push, if_neg (not_lt.mpr hs), if_neg hrunning, hp]
    simp [pushOne, hp, hpush]
  | some peer =>
    have hroom : (lane != .media && !peer.hasRoom lane mail.body.length m.mQueueBytes) =
        (lane != .media && !(peer.lanes lane).queue.isEmpty &&
          (peer.lanes lane).bytes + mail.body.length > m.mQueueBytes) := by
      rw [Bool.eq_iff_iff]
      simp [Peer.hasRoom, and_assoc]
    have hpush : m.push id lane mail = if peer.isSealed then (.closed, false, m)
        else if lane != .media && !(peer.lanes lane).queue.isEmpty &&
          (peer.lanes lane).bytes + mail.body.length > m.mQueueBytes then (.full, false, m)
        else (.queued, m.enqueue id peer lane mail) := by
      rw [push, if_neg (not_lt.mpr hs), if_neg hrunning, hp]
      dsimp only
      rw [hroom]
    simp only [pushOne, hp, hpush]
    cases peer.isSealed with
    | true => simp
    | false =>
      simp only [Bool.false_or, Bool.false_eq_true, if_false]
      split
      · simp
      · rfl

lemma foldl_pushOne (hs : mail.body.length ≤ maxMessageSize lane) (ids : List PeerId)
    (hr : m.mRunning = true) (taken : ℕ)
    (ring : Bool) : ids.foldl (pushOne lane mail) (taken, ring, m) =
      (taken + (pushEach lane mail ids m).1.countP (·.1 = .queued), ring || (pushEach lane mail ids m).1.any (·.2),
        (pushEach lane mail ids m).2) := by
  induction ids generalizing m taken ring with
  | nil => simp [pushEach]
  | cons id ids ih =>
    rw [List.foldl_cons, pushOne_eq hs hr, ih ((mRunning_push m id lane mail).trans hr)]
    simp only [pushEach, List.countP_cons, List.any_cons, decide_eq_true_eq, Bool.or_assoc]
    rw [Nat.add_assoc, Nat.add_comm (List.countP _ _)]

lemma pushEach_of_refused (h : mail.body.length > maxMessageSize lane ∨ m.mRunning = false) (ids : List PeerId) :
    (pushEach lane mail ids m).2 = m ∧ ∀ result ∈ (pushEach lane mail ids m).1, result.1 ≠ .queued ∧
      result.2 = false := by
  have hpush : ∀ id, (m.push id lane mail).2 = (false, m) ∧ (m.push id lane mail).1 ≠ .queued := by
    intro id
    rw [push]
    split
    · exact ⟨rfl, by simp⟩
    · next hs =>
      rw [if_pos (by simpa using h.resolve_left hs)]
      exact ⟨rfl, by simp⟩
  induction ids with
  | nil => simp [pushEach]
  | cons id ids ih =>
    simp only [pushEach, (hpush id).1, List.mem_cons, forall_eq_or_imp]
    exact ⟨ih.1, ⟨(hpush id).2, trivial⟩, ih.2⟩

lemma pushToAll_eq (m : Mailbox) (lane : Lane) (mail : Mail) : m.pushToAll lane mail =
    ((pushEach lane mail m.mPeers.keys m).1.countP (·.1 = .queued),
      (pushEach lane mail m.mPeers.keys m).1.any (·.2),
      (pushEach lane mail m.mPeers.keys m).2) := by
  by_cases hr : mail.body.length > maxMessageSize lane ∨ m.mRunning = false
  · obtain ⟨hbox, hresults⟩ := pushEach_of_refused hr m.mPeers.keys
    have hcount : (pushEach lane mail m.mPeers.keys m).1.countP (·.1 = .queued) = 0 := by
      rw [List.countP_eq_zero]
      intro result hresult
      simp [(hresults result hresult).1]
    have hany : (pushEach lane mail m.mPeers.keys m).1.any (·.2) = false := by
      rw [List.any_eq_false]
      intro result hresult
      simp [(hresults result hresult).2]
    rw [pushToAll, if_pos (by simpa using hr), hcount, hany, hbox]
  · rw [not_or, not_lt, Bool.not_eq_false] at hr
    have hall := foldl_pushOne hr.1 m.mPeers.keys hr.2 0 false
    rw [Nat.zero_add, Bool.false_or] at hall
    rw [pushToAll, if_neg (by simp [hr.1, hr.2]), hall]

lemma pushToAll_keeps {P : Mailbox → Prop} (hp : ∀ m id, P m → P (m.push id lane mail).2.2) (h : P m) :
    P (m.pushToAll lane mail).2.2 := by
  have heach : ∀ (ids : List PeerId) (m : Mailbox), P m → P (pushEach lane mail ids m).2 := by
    intro ids
    induction ids with
    | nil => exact fun m h => h
    | cons id ids ih => exact fun m h => ih _ (hp m id h)
  rw [pushToAll_eq]
  exact heach _ m h

theorem pushToAll_eq_pushEach (m : Mailbox) (lane : Lane) (mail : Mail) :
    (m.pushToAll lane mail).2.2 = (pushEach lane mail m.mPeers.keys m).2 ∧
      (m.pushToAll lane mail).1 = (pushEach lane mail m.mPeers.keys m).1.countP (·.1 = .queued) ∧
      (mail.body.length > maxMessageSize lane ∨ m.mRunning = false → (m.pushToAll lane mail).1 = 0) ∧
      ((m.pushToAll lane mail).2.1 = true ↔ ∃ result ∈ (pushEach lane mail m.mPeers.keys m).1,
        result.2 = true) := by
  have hrefused : mail.body.length > maxMessageSize lane ∨ m.mRunning = false → (m.pushToAll lane mail).1 = 0 := by
    intro hr
    rw [pushToAll, if_pos (by simpa using hr)]
  refine ⟨?_, ?_, hrefused, ?_⟩
  · rw [pushToAll_eq]
  · rw [pushToAll_eq]
  · rw [pushToAll_eq]
    exact List.any_eq_true

end NetLink.Channel.Mailbox
