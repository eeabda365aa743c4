import NetLink.Channel.Broadcast

/-! What the queues of a mailbox hold, over any sequence of its critical sections. -/

namespace NetLink.Channel.Mailbox

def Peer.acceptedOn (p : Peer) (lane : Lane) : List Mail := (p.log.filter (·.1 == lane)).map (·.2)

def sizeOf (queue : List Mail) : ℕ := (queue.map (·.body.length)).sum

structure AckedLane (limit : ℕ) (accepted taken : List Mail) (q : LaneQueue) : Prop where
  bytes : q.bytes = sizeOf q.queue
  bounded : 2 ≤ q.queue.length → q.bytes ≤ limit
  order : accepted = taken ++ q.queue

structure MediaLane (accepted taken : List Mail) (dropped : ℕ) (q : LaneQueue) : Prop where
  bytes : q.bytes = sizeOf q.queue
  bounded : q.queue.length ≤ MediaQueueMessages
  newest : q.queue <:+ accepted
  order : (taken ++ q.queue).Sublist accepted
  count : accepted.length = taken.length + q.queue.length + dropped

structure Kept (limit : ℕ) (taken : Lane → List Mail) (cleared : ℕ) (p : Peer) : Prop where
  acked : ∀ lane ≠ .media, AckedLane limit (p.acceptedOn lane) (taken lane) (p.lanes lane)
  media : MediaLane (p.acceptedOn .media) (taken .media) (p.mediaDropped + cleared) (p.lanes .media)
  done : p.done ≤ p.accepted

variable {limit cleared dropped : ℕ} {accepted taken rest : List Mail} {books : Lane → List Mail} {p : Peer}
  {q : LaneQueue} {lane : Lane} {mail : Mail}

@[simp] lemma sizeOf_cons (mail : Mail) (queue : List Mail) :
    sizeOf (mail :: queue) = mail.body.length + sizeOf queue := by
  simp [sizeOf]

@[simp] lemma sizeOf_concat (queue : List Mail) (mail : Mail) :
    sizeOf (queue ++ [mail]) = sizeOf queue + mail.body.length := by
  simp [sizeOf]

lemma AckedLane.push (h : AckedLane limit accepted taken q)
    (hr : q.queue = [] ∨ q.bytes + mail.body.length ≤ limit) :
    AckedLane limit (accepted ++ [mail]) taken
      { queue := q.queue ++ [mail], bytes := q.bytes + mail.body.length } where
  bytes := by rw [sizeOf_concat, h.bytes]
  bounded hl := by
    rcases hr with hr | hr
    · simp [hr] at hl
    · exact hr
  order := by rw [h.order, List.append_assoc]

lemma AckedLane.take (h : AckedLane limit accepted taken q) (hq : q.queue = mail :: rest) :
    AckedLane limit accepted (taken ++ [mail]) { queue := rest, bytes := q.bytes - mail.body.length } where
  bytes := by rw [h.bytes, hq, sizeOf_cons, Nat.add_sub_cancel_left]
  bounded hl := by
    have hb := h.bounded (by rw [hq, List.length_cons]; exact hl.trans (Nat.le_succ _))
    exact (Nat.sub_le ..).trans hb
  order := by rw [h.order, hq, List.append_assoc, List.singleton_append]

lemma MediaLane.take (h : MediaLane accepted taken dropped q) (hq : q.queue = mail :: rest) :
    MediaLane accepted (taken ++ [mail]) dropped { queue := rest, bytes := q.bytes - mail.body.length } where
  bytes := by rw [h.bytes, hq, sizeOf_cons, Nat.add_sub_cancel_left]
  bounded := by
    have hb := h.bounded
    rw [hq, List.length_cons] at hb
    exact (Nat.le_succ _).trans hb
  newest := (List.suffix_cons mail rest).trans (hq ▸ h.newest)
  order := by
    rw [List.append_assoc, List.singleton_append, ← hq]
    exact h.order
  count := by
    rw [h.count, hq, List.length_cons, List.length_append, List.length_singleton]
    dsimp only
    omega

lemma MediaLane.makeRoom (h : MediaLane accepted taken dropped q) (hq : q.queue ≠ []) :
    MediaLane accepted taken (dropped + 1) q.makeRoom := by
  obtain ⟨mail, rest, hq⟩ := List.exists_cons_of_ne_nil hq
  have he : q.makeRoom = { queue := rest, bytes := q.bytes - mail.body.length } := by rw [LaneQueue.makeRoom, hq]
  have ht := h.take hq
  rw [he]
  refine ⟨ht.bytes, ht.bounded, ht.newest, ?_, ?_⟩
  · refine List.Sublist.trans ?_ ht.order
    rw [List.append_assoc]
    exact (List.sublist_append_right [mail] rest).append_left taken
  · rw [ht.count, List.length_append, List.length_singleton]
    dsimp only
    omega

lemma MediaLane.push (h : MediaLane accepted taken dropped q) (hb : q.queue.length < MediaQueueMessages)
    (mail : Mail) :
    MediaLane (accepted ++ [mail]) taken dropped
      { queue := q.queue ++ [mail], bytes := q.bytes + mail.body.length } where
  bytes := by rw [sizeOf_concat, h.bytes]
  bounded := by
    rw [List.length_append, List.length_singleton]
    exact hb
  newest := by
    obtain ⟨front, hf⟩ := h.newest
    exact ⟨front, by rw [← hf, List.append_assoc]⟩
  order := by
    rw [← List.append_assoc]
    exact h.order.append_right [mail]
  count := by
    rw [List.length_append, List.length_append, List.length_singleton, h.count]
    omega

lemma MediaLane.clear (h : MediaLane accepted taken dropped q) :
    MediaLane accepted taken (dropped + q.queue.length) {} where
  bytes := rfl
  bounded := Nat.zero_le _
  newest := List.nil_suffix
  order := by
    have ht := (List.sublist_append_left taken q.queue).trans h.order
    simpa using ht
  count := by
    rw [h.count]
    simp only [List.length_nil]
    omega

@[simp] lemma lanes_setLane_self (p : Peer) (lane : Lane) (q : LaneQueue) : (p.setLane lane q).lanes lane = q :=
  Function.update_self ..

lemma lanes_setLane_of_ne (p : Peer) {lane other : Lane} (h : other ≠ lane) (q : LaneQueue) :
    (p.setLane lane q).lanes other = p.lanes other :=
  Function.update_of_ne h ..

lemma kept_new (limit epoch : ℕ) : Kept limit (fun _ => []) 0 { epoch := epoch } where
  acked _ _ := ⟨rfl, fun h => absurd h (Nat.not_succ_le_zero 1), rfl⟩
  media := ⟨rfl, Nat.zero_le _, List.nil_suffix, .slnil, rfl⟩
  done := le_rfl

lemma acceptedOn_enqueue (p : Peer) (lane other : Lane) (mail : Mail) : (p.enqueue lane mail).acceptedOn other =
    p.acceptedOn other ++ if lane = other then [mail] else [] := by
  rw [Peer.acceptedOn, Peer.enqueue, List.filter_append, List.map_append, Peer.acceptedOn]
  by_cases hl : lane = other <;> simp [hl]

lemma lanes_enqueue_of_ne (p : Peer) {lane other : Lane} (hl : other ≠ lane) (mail : Mail) :
    (p.enqueue lane mail).lanes other = p.lanes other := by
  rw [Peer.enqueue, Peer.setLane]
  exact Function.update_of_ne hl ..

lemma lanes_enqueue_acked (p : Peer) (hl : lane ≠ .media) (mail : Mail) : (p.enqueue lane mail).lanes lane =
    { queue := (p.lanes lane).queue ++ [mail], bytes := (p.lanes lane).bytes + mail.body.length } := by
  simp [Peer.enqueue, Peer.setLane, hl]

lemma Kept.enqueue (h : Kept limit books cleared p)
    (hr : lane ≠ .media → p.hasRoom lane mail.body.length limit = true) :
    Kept limit books cleared (p.enqueue lane mail) := by
  refine ⟨fun other hother => ?_, ?_, ?_⟩
  · by_cases ho : other = lane
    · subst ho
      have hroom := hr hother
      rw [Peer.hasRoom, Bool.or_eq_true, List.isEmpty_iff, decide_eq_true_eq] at hroom
      rw [acceptedOn_enqueue, if_pos rfl, lanes_enqueue_acked p hother]
      exact (h.acked other hother).push hroom
    · rw [acceptedOn_enqueue, if_neg (Ne.symm ho), List.append_nil, lanes_enqueue_of_ne p ho]
      exact h.acked other hother
  · by_cases hl : lane = .media
    · subst hl
      rw [acceptedOn_enqueue, if_pos rfl]
      by_cases hf : (p.lanes .media).queue.length ≥ MediaQueueMessages
      · have hne : (p.lanes .media).queue ≠ [] := List.ne_nil_of_length_pos (lt_of_lt_of_le (by decide) hf)
        have hroom := h.media.makeRoom hne
        have hlt : (p.lanes .media).makeRoom.queue.length < MediaQueueMessages := by
          have hcount := hroom.count.symm.trans h.media.count
          have hbound := h.media.bounded
          omega
        have hpush := hroom.push hlt mail
        rw [Nat.add_right_comm] at hpush
        simpa [Peer.enqueue, Peer.setLane, hf] using hpush
      · have hpush := h.media.push (not_le.mp hf) mail
        simpa [Peer.enqueue, Peer.setLane, hf] using hpush
    · rw [acceptedOn_enqueue, if_neg hl, List.append_nil, lanes_enqueue_of_ne p (Ne.symm hl)]
      simpa [Peer.enqueue, hl] using h.media
  · refine h.done.trans ?_
    rw [Peer.enqueue]
    dsimp only
    split
    · exact le_rfl
    · exact Nat.le_succ _

lemma Kept.take (h : Kept limit books cleared p) (hq : (p.lanes lane).queue = mail :: rest) :
    Kept limit (Function.update books lane (books lane ++ [mail])) cleared
      (p.setLane lane { queue := rest, bytes := (p.lanes lane).bytes - mail.body.length }) := by
  refine ⟨fun other hother => ?_, ?_, h.done⟩
  · by_cases ho : other = lane
    · subst ho
      rw [Function.update_self, lanes_setLane_self]
      exact (h.acked other hother).take hq
    · rw [Function.update_of_ne ho, lanes_setLane_of_ne p ho]
      exact h.acked other hother
  · by_cases hl : .media = lane
    · subst hl
      rw [Function.update_self, lanes_setLane_self]
      exact h.media.take hq
    · rw [Function.update_of_ne hl, lanes_setLane_of_ne p hl]
      exact h.media

lemma Kept.shut (h : Kept limit books cleared p) : Kept limit books (cleared + (p.lanes .media).queue.length)
    { p.setLane .media {} with isSealed := true } := by
  refine ⟨fun other hother => ?_, ?_, h.done⟩
  · have hlane := lanes_setLane_of_ne p hother {}
    dsimp only
    rw [hlane]
    exact h.acked other hother
  · have hlane := lanes_setLane_self p .media {}
    have hclear := h.media.clear
    rw [Nat.add_assoc] at hclear
    dsimp only
    rw [hlane]
    exact hclear

/-- A mailbox and what its users know: the pushes that wait, each with whether its session has ended since, what
was taken in the session of each peer, and how many Media messages the seal of that session dropped. -/
structure Used where
  box : Mailbox
  waiting : List (Waiting × Bool) := []
  taken : PeerId → Lane → List Mail := fun _ _ => []
  cleared : PeerId → ℕ := fun _ => 0

inductive Section
  | openPeer (peer : PeerId)
  | close (peer : PeerId)
  | sealPeer (peer : PeerId)
  | push (peer : PeerId) (lane : Lane) (mail : Mail)
  | pushOrWait (peer : PeerId) (lane : Lane) (mail : Mail)
  | resume (i : ℕ)
  | pushToAll (lane : Lane) (mail : Mail)
  | take (peer : PeerId) (lane : Lane)
  | settle (peer : PeerId)
  | drain
  | setRunning (running : Bool)
  deriving DecidableEq, Repr

namespace Used

def outdate (peer : PeerId) (w : Waiting × Bool) : Waiting × Bool := (w.1, w.2 || w.1.peer == peer)

def perform (u : Used) : Section → Used
  | .openPeer peer => { u with
      box := u.box.openPeer peer
      waiting := u.waiting.map (outdate peer)
      taken := Function.update u.taken peer fun _ => []
      cleared := Function.update u.cleared peer 0 }
  | .close peer => { u with box := u.box.close peer, waiting := u.waiting.map (outdate peer) }
  | .sealPeer peer =>
    let dropped := ((u.box.mPeers[peer]?).map fun p => (p.lanes .media).queue.length).getD 0
    { u with
      box := u.box.sealPeer peer
      cleared := Function.update u.cleared peer (u.cleared peer + dropped) }
  | .push peer lane mail => { u with box := (u.box.push peer lane mail).2.2 }
  | .pushOrWait peer lane mail =>
    let (waiting, _, _, box) := u.box.pushOrWait peer lane mail
    { u with box := box, waiting := u.waiting ++ (waiting.map fun w => (w, false)).toList }
  | .resume i =>
    match u.waiting[i]? with
    | none => u
    | some (w, _) => { u with box := (u.box.resume w).2.2, waiting := u.waiting.eraseIdx i }
  | .pushToAll lane mail => { u with box := (u.box.pushToAll lane mail).2.2 }
  | .take peer lane =>
    let (mail, box) := u.box.take peer lane
    { u with
      box := box
      taken := Function.update u.taken peer
        (Function.update (u.taken peer) lane (u.taken peer lane ++ mail.toList)) }
  | .settle peer => { u with box := (u.box.settle peer).2 }
  | .drain => { u with box := u.box.drain.2 }
  | .setRunning running => { u with box := u.box.setRunning running }

def run (limit : ℕ) (sections : List Section) : Used := sections.foldl perform { box := { mQueueBytes := limit } }

structure Awaits (box : Mailbox) (w : Waiting) (ended : Bool) : Prop where
  epoch : w.epoch ≤ box.mEpochs
  session : ended = false ↔ ∃ p, box.mPeers[w.peer]? = some p ∧ p.epoch = w.epoch

structure Inv (limit : ℕ) (u : Used) : Prop where
  fixed : u.box.mQueueBytes = limit
  kept : ∀ id p, u.box.mPeers[id]? = some p → Kept limit (u.taken id) (u.cleared id) p
  epochs : ∀ (id : PeerId) (p : Peer), u.box.mPeers[id]? = some p → p.epoch ≤ u.box.mEpochs
  waits : ∀ w ∈ u.waiting, Awaits u.box w.1 w.2

variable {u : Used} {id : PeerId} {p' : Peer} {b : Mailbox}

lemma Inv.update (h : u.Inv limit) (hp : u.box.mPeers[id]? = some p) (he : p'.epoch = p.epoch)
    (hk : Kept limit books cleared p') (hbox : b.mPeers = u.box.mPeers.insert id p')
    (hq : b.mQueueBytes = u.box.mQueueBytes) (hn : b.mEpochs = u.box.mEpochs) :
    Inv limit { u with
      box := b
      taken := Function.update u.taken id books
      cleared := Function.update u.cleared id cleared } := by
  have hget : ∀ j, b.mPeers[j]? = if id = j then some p' else u.box.mPeers[j]? := by
    intro j
    simp [hbox, Std.TreeMap.getElem?_insert]
  refine ⟨hq.trans h.fixed, fun j q hj => ?_, fun j q hj => ?_, fun w hw => ?_⟩
  · dsimp only at hj ⊢
    rw [hget] at hj
    split at hj
    · next hi =>
      subst hi
      rw [Function.update_self, Function.update_self, ← Option.some.inj hj]
      exact hk
    · next hi =>
      rw [Function.update_of_ne (Ne.symm hi), Function.update_of_ne (Ne.symm hi)]
      exact h.kept j q hj
  · dsimp only at hj ⊢
    rw [hn]
    rw [hget] at hj
    split at hj
    · rw [← Option.some.inj hj, he]
      exact h.epochs id p hp
    · exact h.epochs j q hj
  · obtain ⟨hle, hs⟩ := h.waits w hw
    refine ⟨hn.symm ▸ hle, hs.trans ?_⟩
    dsimp only
    rw [hget]
    split
    · next hi =>
      rw [← hi, hp]
      simp [he]
    · rfl

lemma Inv.same (h : u.Inv limit) (hb : b.mPeers = u.box.mPeers) (hq : b.mQueueBytes = u.box.mQueueBytes)
    (hn : b.mEpochs = u.box.mEpochs) : Inv limit { u with box := b } := by
  refine ⟨hq.trans h.fixed, fun j q hj => ?_, fun j q hj => ?_, fun w hw => ?_⟩
  · exact h.kept j q (hb ▸ hj)
  · exact hn.symm ▸ h.epochs j q (hb ▸ hj)
  · obtain ⟨hle, hs⟩ := h.waits w hw
    exact ⟨hn.symm ▸ hle, hb.symm ▸ hs⟩

lemma Inv.enqueue (h : u.Inv limit) (hp : u.box.mPeers[id]? = some p)
    (hr : lane ≠ .media → p.hasRoom lane mail.body.length u.box.mQueueBytes = true) :
    Inv limit { u with box := (u.box.enqueue id p lane mail).2 } := by
  have hk := (h.kept id p hp).enqueue (h.fixed ▸ hr)
  have he : (p.enqueue lane mail).epoch = p.epoch := rfl
  have hbox : (u.box.enqueue id p lane mail).2.mPeers = u.box.mPeers.insert id (p.enqueue lane mail) := rfl
  have hu := h.update hp he hk hbox rfl rfl
  rwa [Function.update_eq_self, Function.update_eq_self] at hu

lemma Inv.push (h : u.Inv limit) (id : PeerId) (lane : Lane) (mail : Mail) :
    Inv limit { u with box := (u.box.push id lane mail).2.2 } := by
  rcases push_cases u.box id lane mail with ⟨he, -⟩ | ⟨p, hp, -, hr, he⟩
  · rw [he]
    exact h
  · rw [he]
    exact h.enqueue hp hr

lemma resume_cases (m : Mailbox) (w : Waiting) : (m.resume w).2.2 = m ∧ (m.resume w).1 ≠ .queued ∨
    ∃ p, m.mPeers[w.peer]? = some p ∧ p.epoch = w.epoch ∧
      p.hasRoom w.lane w.mail.body.length m.mQueueBytes = true ∧
      m.resume w = (.queued, m.enqueue w.peer p w.lane w.mail) := by
  rw [resume]
  split
  · exact .inl ⟨rfl, by simp⟩
  next p hp =>
  split
  · exact .inl ⟨rfl, by simp⟩
  next hs =>
  split
  · exact .inl ⟨rfl, by simp⟩
  split
  · exact .inl ⟨rfl, by simp⟩
  next hr =>
  simp only [Bool.or_eq_true, not_or, decide_eq_true_eq, not_not] at hs
  exact .inr ⟨p, hp, hs.1, by simpa using hr, rfl⟩

lemma Inv.resume (h : u.Inv limit) (w : Waiting) : Inv limit { u with box := (u.box.resume w).2.2 } := by
  rcases resume_cases u.box w with ⟨he, -⟩ | ⟨p, hp, -, hr, he⟩
  · rw [he]
    exact h
  · rw [he]
    exact h.enqueue hp fun _ => hr

lemma awaits_pushOrWait (h : u.Inv limit) {w : Waiting} (hw : (u.box.pushOrWait id lane mail).1 = some w) :
    Awaits (u.box.pushOrWait id lane mail).2.2.2 w false := by
  rw [pushOrWait] at hw ⊢
  dsimp only at hw ⊢
  split at hw
  · next hf =>
    obtain ⟨p, hp, rfl⟩ := Option.map_eq_some_iff.mp hw
    have hbox : (u.box.push id lane mail).2.2 = u.box := by
      rcases push_cases u.box id lane mail with ⟨he, -⟩ | ⟨q, -, -, -, he⟩
      · rw [he]
      · rw [he] at hf
        cases hf
    rw [hbox]
    exact ⟨h.epochs id p hp, by simp [hp]⟩
  · cases hw

lemma Inv.sealPeer (h : u.Inv limit) (id : PeerId) : Inv limit (u.perform (.sealPeer id)) := by
  cases hp : u.box.mPeers[id]? with
  | none =>
    have hbox : u.box.sealPeer id = u.box := by rw [Mailbox.sealPeer, hp]
    simp only [perform, hp, hbox, Option.map_none, Option.getD_none, Nat.add_zero, Function.update_eq_self]
    exact h
  | some p =>
    have he : ({ p.setLane .media {} with isSealed := true } : Peer).epoch = p.epoch := rfl
    have hbox : (u.box.sealPeer id).mPeers = u.box.mPeers.insert id { p.setLane .media {}
      with isSealed := true } := by
      rw [Mailbox.sealPeer, hp]
    have hrest : (u.box.sealPeer id).mQueueBytes = u.box.mQueueBytes ∧
      (u.box.sealPeer id).mEpochs = u.box.mEpochs := by
      rw [Mailbox.sealPeer, hp]
      exact ⟨rfl, rfl⟩
    have hu := h.update hp he (h.kept id p hp).shut hbox hrest.1 hrest.2
    rw [Function.update_eq_self] at hu
    simpa only [perform, hp, Option.map_some, Option.getD_some] using hu

lemma Inv.take (h : u.Inv limit) (id : PeerId) (lane : Lane) : Inv limit (u.perform (.take id lane)) := by
  have hnothing : u.box.take id lane = (none, u.box) → Inv limit (u.perform (.take id lane)) := by
    intro ht
    simp only [perform, ht, Option.toList_none, List.append_nil, Function.update_eq_self]
    exact h
  cases hp : u.box.mPeers[id]? with
  | none => exact hnothing (by rw [Mailbox.take, hp])
  | some p =>
    cases hq : (p.lanes lane).queue with
    | nil =>
      apply hnothing
      rw [Mailbox.take, hp]
      dsimp only
      rw [hq]
    | cons mail rest =>
      have ht : u.box.take id lane = (some mail, ({ u.box with
          mPeers := u.box.mPeers.insert id
            (p.setLane lane { queue := rest, bytes := (p.lanes lane).bytes - mail.body.length }) } :
              Mailbox)) := by
        rw [Mailbox.take, hp]
        dsimp only
        rw [hq]
      have he : (p.setLane lane { queue := rest, bytes := (p.lanes lane).bytes - mail.body.length }).epoch =
        p.epoch := rfl
      have hu := h.update (b := { u.box with
        mPeers := u.box.mPeers.insert id
          (p.setLane lane { queue := rest, bytes := (p.lanes lane).bytes - mail.body.length }) })
        hp he ((h.kept id p hp).take hq) rfl rfl rfl
      rw [Function.update_eq_self] at hu
      simpa only [perform, ht, Option.toList_some] using hu

lemma Inv.settle (h : u.Inv limit) (id : PeerId) : Inv limit { u with box := (u.box.settle id).2 } := by
  cases hp : u.box.mPeers[id]? with
  | none =>
    rw [Mailbox.settle, hp]
    exact h
  | some p =>
    rw [Mailbox.settle, hp]
    dsimp only
    split
    · exact h
    · obtain ⟨hacked, hmedia, -⟩ := h.kept id p hp
      have hk : Kept limit (u.taken id) (u.cleared id) { p with done := p.accepted } := ⟨hacked, hmedia, le_rfl⟩
      have he : ({ p with done := p.accepted } : Peer).epoch = p.epoch := rfl
      have hu := h.update (b := { u.box with mPeers := u.box.mPeers.insert id { p with done := p.accepted } }) hp
        he hk
        rfl rfl rfl
      rwa [Function.update_eq_self, Function.update_eq_self] at hu

lemma Inv.openPeer (h : u.Inv limit) (id : PeerId) : Inv limit (u.perform (.openPeer id)) := by
  have hget : ∀ j, (u.box.openPeer id).mPeers[j]? = if id = j then some { epoch := u.box.mEpochs + 1 }
    else u.box.mPeers[j]? := by
    intro j
    simp [Mailbox.openPeer, Std.TreeMap.getElem?_insert]
  refine ⟨h.fixed, fun j q hj => ?_, fun j q hj => ?_, fun w hw => ?_⟩
  · simp only [perform] at hj ⊢
    rw [hget] at hj
    split at hj
    · next hi =>
      subst hi
      rw [Function.update_self, Function.update_self, ← Option.some.inj hj]
      exact kept_new limit _
    · next hi =>
      rw [Function.update_of_ne (Ne.symm hi), Function.update_of_ne (Ne.symm hi)]
      exact h.kept j q hj
  · simp only [perform] at hj
    rw [hget] at hj
    split at hj
    · rw [← Option.some.inj hj]
      exact le_rfl
    · exact (h.epochs j q hj).trans (Nat.le_succ _)
  · obtain ⟨v, hv, rfl⟩ := List.mem_map.mp hw
    obtain ⟨hle, hs⟩ := h.waits v hv
    refine ⟨hle.trans (Nat.le_succ _), ?_⟩
    simp only [perform, outdate, hget, Bool.or_eq_false_iff, beq_eq_false_iff_ne]
    split
    · next hi =>
      -- The new session has an epoch nobody waits for
      have hne : u.box.mEpochs + 1 ≠ v.1.epoch := by omega
      simp [hi, hne]
    · next hi =>
      rw [hs]
      exact and_iff_left (Ne.symm hi)

lemma Inv.close (h : u.Inv limit) (id : PeerId) : Inv limit (u.perform (.close id)) := by
  have hget : ∀ j, (u.box.close id).mPeers[j]? = if id = j then none else u.box.mPeers[j]? := by
    intro j
    simp [Mailbox.close, Std.TreeMap.getElem?_erase]
  have hold : ∀ (j : PeerId) (q : Peer), (u.box.close id).mPeers[j]? = some q → u.box.mPeers[j]? = some q := by
    intro j q hj
    rw [hget] at hj
    split at hj
    · cases hj
    · exact hj
  refine ⟨h.fixed, fun j q hj => h.kept j q (hold j q hj), fun j q hj => h.epochs j q (hold j q hj),
    fun w hw => ?_⟩
  obtain ⟨v, hv, rfl⟩ := List.mem_map.mp hw
  obtain ⟨hle, hs⟩ := h.waits v hv
  refine ⟨hle, ?_⟩
  simp only [perform, outdate, hget, Bool.or_eq_false_iff, beq_eq_false_iff_ne]
  split
  · next hi => simp [hi]
  · next hi =>
    rw [hs]
    exact and_iff_left (Ne.symm hi)

lemma drain_listed (m : Mailbox) (id : PeerId) :
    m.drain.2.mPeers[id]? = (m.mPeers[id]?).map fun p => { p with listed := p.listed && id ∉ m.mReady } := by
  have hfold : ∀ (ready : List PeerId) (peers : Std.TreeMap PeerId Peer),
      (ready.foldl (fun peers id => peers.modify id fun p => { p with listed := false }) peers)[id]? =
        (peers[id]?).map fun p => { p with listed := p.listed && id ∉ ready } := by
    intro ready
    induction ready with
    | nil =>
      intro peers
      cases hp : peers[id]? <;> simp [hp]
    | cons j ready ih =>
      intro peers
      rw [List.foldl_cons, ih, Std.TreeMap.getElem?_modify]
      by_cases hj : j = id
      · cases hp : peers[id]? <;> simp [hj, hp]
      · cases hp : peers[id]? <;> simp [hj, Ne.symm hj]
  exact hfold m.mReady m.mPeers

lemma Inv.drain (h : u.Inv limit) : Inv limit { u with box := u.box.drain.2 } := by
  refine ⟨h.fixed, fun j q hj => ?_, fun j q hj => ?_, fun w hw => ?_⟩
  · obtain ⟨p, hp, rfl⟩ := Option.map_eq_some_iff.mp ((drain_listed u.box j).symm.trans hj)
    obtain ⟨hacked, hmedia, hdone⟩ := h.kept j p hp
    exact ⟨hacked, hmedia, hdone⟩
  · obtain ⟨p, hp, rfl⟩ := Option.map_eq_some_iff.mp ((drain_listed u.box j).symm.trans hj)
    exact h.epochs j p hp
  · obtain ⟨hle, hs⟩ := h.waits w hw
    refine ⟨hle, hs.trans ?_⟩
    simp only [drain_listed, Option.map_eq_some_iff]
    constructor
    · rintro ⟨p, hp, he⟩
      exact ⟨_, ⟨p, hp, rfl⟩, he⟩
    · rintro ⟨_, ⟨p, hp, rfl⟩, he⟩
      exact ⟨p, hp, he⟩

lemma Inv.perform (h : u.Inv limit) (s : Section) : Inv limit (u.perform s) := by
  cases s with
  | openPeer peer => exact h.openPeer peer
  | close peer => exact h.close peer
  | sealPeer peer => exact h.sealPeer peer
  | push peer lane mail => exact h.push peer lane mail
  | pushOrWait peer lane mail =>
    obtain ⟨hq, hkept, hepochs, hwaits⟩ := h.push peer lane mail
    refine ⟨hq, hkept, hepochs, fun w hw => ?_⟩
    rcases List.mem_append.mp hw with hw | hw
    · exact hwaits w hw
    · obtain ⟨v, hv, rfl⟩ := Option.map_eq_some_iff.mp (Option.mem_toList.mp hw)
      exact awaits_pushOrWait h hv
  | resume i =>
    rw [Used.perform]
    split
    · exact h
    · next w _ _ =>
      obtain ⟨hq, hkept, hepochs, hwaits⟩ := h.resume w
      exact ⟨hq, hkept, hepochs, fun v hv => hwaits v ((List.eraseIdx_sublist _ i).subset hv)⟩
  | pushToAll lane mail =>
    exact pushToAll_keeps (P := fun m => Inv limit { u with box := m }) (fun m id hm => hm.push id lane mail) h
  | take peer lane => exact h.take peer lane
  | settle peer => exact h.settle peer
  | drain => exact h.drain
  | setRunning running => exact h.same rfl rfl rfl

lemma inv_run (limit : ℕ) (sections : List Section) : Inv limit (run limit sections) := by
  have hfold : ∀ (sections : List Section) (u : Used), Inv limit u → Inv limit (sections.foldl perform u) := by
    intro sections
    induction sections with
    | nil => exact fun u h => h
    | cons s sections ih => exact fun u h => ih _ (h.perform s)
  apply hfold
  refine ⟨rfl, fun id p hp => ?_, fun id p hp => ?_, fun w hw => ?_⟩
  · simp at hp
  · simp at hp
  · cases hw

theorem queues_accounted (limit : ℕ) (sections : List Section) :
    (∀ id p, (run limit sections).box.mPeers[id]? = some p →
      Kept limit ((run limit sections).taken id) ((run limit sections).cleared id) p) ∧
    ∀ w ended, (w, ended) ∈ (run limit sections).waiting → ((run limit sections).box.resume w).1 = .queued →
      ended = false ∧ ∃ p, (run limit sections).box.mPeers[w.peer]? = some p ∧ p.epoch = w.epoch ∧
        ((run limit sections).box.resume w).2.2 = ((run limit sections).box.enqueue w.peer p w.lane w.mail).2 := by
  have hinv := inv_run limit sections
  refine ⟨hinv.kept, fun w ended hw hr => ?_⟩
  rcases resume_cases (run limit sections).box w with ⟨-, hne⟩ | ⟨p, hp, he, -, hq⟩
  · exact absurd hr hne
  · refine ⟨(hinv.waits _ hw).session.mpr ⟨p, hp, he⟩, p, hp, he, ?_⟩
    rw [hq]

end Used

end NetLink.Channel.Mailbox
