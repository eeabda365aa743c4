import NetLink.Channel.MailboxEntries
import NetLink.Channel.MailboxQueues

/-! What any use of a mailbox leaves true of the sessions in it, until it is drained the next time. -/

namespace NetLink.Channel.Mailbox

structure Peer.Goes (p p' : Peer) : Prop where
  epoch : p'.epoch = p.epoch
  listed : p.listed = true → p'.listed = true
  accepts : ∀ lane, (p.acceptedOn lane).length ≤ (p'.acceptedOn lane).length
  queue : ∀ lane, (p'.lanes lane).queue.length + (p.acceptedOn lane).length ≤
    (p.lanes lane).queue.length + (p'.acceptedOn lane).length
  told : p'.listed = false → ∀ lane, (p'.acceptedOn lane).length = (p.acceptedOn lane).length

structure Peer.Young (p : Peer) : Prop where
  queue : ∀ lane, (p.lanes lane).queue.length ≤ (p.acceptedOn lane).length
  told : p.listed = false → ∀ lane, (p.acceptedOn lane).length = 0

def Listed (m : Mailbox) : Prop := ∀ (id : PeerId) (p : Peer), m.mPeers[id]? = some p →
    p.listed = true → id ∈ m.mReady

def Numbered (m : Mailbox) : Prop := ∀ (id : PeerId) (p : Peer), m.mPeers[id]? = some p → p.epoch ≤ m.mEpochs

structure Uses (m m' : Mailbox) : Prop where
  epochs : m.mEpochs ≤ m'.mEpochs
  peers : ∀ (id : PeerId) (p' : Peer), m'.mPeers[id]? = some p' →
    (∃ p : Peer, m.mPeers[id]? = some p ∧ p.Goes p') ∨ m.mEpochs < p'.epoch ∧ p'.epoch ≤ m'.mEpochs ∧ p'.Young
  listed : m.Listed → m'.Listed

variable {m m' m'' : Mailbox} {id : PeerId} {p p' p'' : Peer}

namespace Peer.Goes

lemma refl (p : Peer) : p.Goes p := ⟨rfl, id, fun _ => le_rfl, fun _ => le_rfl, fun _ _ => rfl⟩

lemma trans (h : p.Goes p') (h' : p'.Goes p'') : p.Goes p'' where
  epoch := h'.epoch.trans h.epoch
  listed hl := h'.listed (h.listed hl)
  accepts lane := (h.accepts lane).trans (h'.accepts lane)
  queue lane := by
    have hq := h.queue lane
    have hq' := h'.queue lane
    omega
  told hl lane := by
    have hmiddle : p'.listed = false := Bool.eq_false_iff.mpr fun ht => by simp [h'.listed ht] at hl
    exact (h'.told hl lane).trans (h.told hmiddle lane)

lemma young (h : p.Goes p') (hy : p.Young) : p'.Young where
  queue lane := by
    have hq := h.queue lane
    have hy := hy.queue lane
    omega
  told hl lane := by
    have hmiddle : p.listed = false := Bool.eq_false_iff.mpr fun ht => by simp [h.listed ht] at hl
    exact (h.told hl lane).trans (hy.told hmiddle lane)

lemma of_shorter (he : p'.epoch = p.epoch) (hl : p'.listed = p.listed) (hg : p'.log = p.log)
    (hq : ∀ lane, (p'.lanes lane).queue.length ≤ (p.lanes lane).queue.length) : p.Goes p' := by
  have ha : ∀ lane, p'.acceptedOn lane = p.acceptedOn lane := fun lane => by rw [acceptedOn, acceptedOn, hg]
  refine ⟨he, fun h => hl.trans h, fun lane => by rw [ha], fun lane => ?_, fun _ lane => by rw [ha]⟩
  rw [ha]
  exact Nat.add_le_add_right (hq lane) _

end Peer.Goes

lemma goes_enqueue (p : Peer) (lane : Lane) (mail : Mail) : p.Goes (p.enqueue lane mail) := by
  refine ⟨rfl, fun _ => rfl, fun other => ?_, fun other => ?_, fun h => by cases h⟩
  · rw [acceptedOn_enqueue, List.length_append]
    exact Nat.le_add_right ..
  · rw [acceptedOn_enqueue, List.length_append]
    by_cases ho : other = lane
    · subst ho
      have hq : ((p.enqueue other mail).lanes other).queue.length ≤ (p.lanes other).queue.length + 1 := by
        simp only [Peer.enqueue, Peer.setLane, Function.update_self, List.length_append, List.length_singleton]
        split
        · rw [LaneQueue.makeRoom]
          split
          · exact le_rfl
          · next hq => rw [hq, List.length_cons]; exact Nat.le_succ _
        · exact le_rfl
      rw [if_pos rfl, List.length_singleton]
      omega
    · rw [lanes_enqueue_of_ne p ho, if_neg (Ne.symm ho), List.length_nil]
      omega

namespace Uses

lemma refl (m : Mailbox) : Uses m m := ⟨le_rfl, fun _ p hp => .inl ⟨p, hp, .refl p⟩, id⟩

lemma trans (h : Uses m m') (h' : Uses m' m'') : Uses m m'' where
  epochs := h.epochs.trans h'.epochs
  listed hl := h'.listed (h.listed hl)
  peers id p'' hp'' := by
    rcases h'.peers id p'' hp'' with ⟨p', hp', hg'⟩ | ⟨he, hle, hy⟩
    · rcases h.peers id p' hp' with ⟨p, hp, hg⟩ | ⟨he, hle, hy⟩
      · exact .inl ⟨p, hp, hg.trans hg'⟩
      · rw [← hg'.epoch] at he hle
        exact .inr ⟨he, hle.trans h'.epochs, hg'.young hy⟩
    · exact .inr ⟨h.epochs.trans_lt he, hle, hy⟩

lemma numbered (h : Uses m m') (hn : m.Numbered) : m'.Numbered := by
  intro id p' hp'
  rcases h.peers id p' hp' with ⟨p, hp, hg⟩ | ⟨-, hle, -⟩
  · rw [hg.epoch]
    exact (hn id p hp).trans h.epochs
  · exact hle

lemma of_same (hp : m'.mPeers = m.mPeers) (he : m'.mEpochs = m.mEpochs) (hr : m'.mReady = m.mReady) :
    Uses m m' where
  epochs := he.ge
  peers id p hp' := .inl ⟨p, by rwa [← hp], .refl p⟩
  listed hl id p hp' := by
    rw [hp] at hp'
    rw [hr]
    exact hl id p hp'

lemma of_one (hp : m.mPeers[id]? = some p) (hg : p.Goes p') (hself : m'.mPeers[id]? = some p')
    (hothers : ∀ j ≠ id, m'.mPeers[j]? = m.mPeers[j]?) (he : m'.mEpochs = m.mEpochs)
    (hr : ∀ i ∈ m.mReady, i ∈ m'.mReady) (hl : p'.listed = true → p.listed = true ∨ id ∈ m'.mReady) :
      Uses m m' := by
  refine ⟨he.ge, fun j q hq => ?_, fun hm j q hq ht => ?_⟩
  · by_cases hj : j = id
    · subst hj
      obtain rfl := Option.some.inj (hself.symm.trans hq)
      exact .inl ⟨p, hp, hg⟩
    · exact .inl ⟨q, (hothers j hj).symm.trans hq, .refl q⟩
  · by_cases hj : j = id
    · subst hj
      obtain rfl := Option.some.inj (hself.symm.trans hq)
      rcases hl ht with hl | hl
      · exact hr j (hm j p hp hl)
      · exact hl
    · exact hr j (hm j q ((hothers j hj).symm.trans hq) ht)

lemma of_insert (hp : m.mPeers[id]? = some p) (hg : p.Goes p') (hl : p'.listed = p.listed)
    (hps : m'.mPeers = m.mPeers.insert id p') (he : m'.mEpochs = m.mEpochs) (hr : m'.mReady = m.mReady) :
      Uses m m' := by
  refine of_one hp hg ?_ (fun j hj => ?_) he (fun i hi => hr ▸ hi) fun ht => .inl (hl ▸ ht)
  · rw [hps, Std.TreeMap.getElem?_insert_self]
  · rw [hps, entry_of_ne m j (Ne.symm hj)]

lemma enqueue (hp : m.mPeers[id]? = some p) (lane : Lane) (mail : Mail) : Uses m (m.enqueue id p lane mail).2 := by
  refine of_one hp (goes_enqueue p lane mail) Std.TreeMap.getElem?_insert_self
    (fun j hj => entry_of_ne m j (Ne.symm hj) _) rfl (fun i hi => ?_) fun _ => ?_
  · rw [Mailbox.enqueue]
    split
    · exact hi
    · exact List.mem_append_left _ hi
  · rw [Mailbox.enqueue]
    cases p.listed with
    | true => exact .inl rfl
    | false => exact .inr (List.mem_append_right _ (List.mem_singleton_self id))

lemma push (m : Mailbox) (id : PeerId) (lane : Lane) (mail : Mail) : Uses m (m.push id lane mail).2.2 := by
  rcases push_cases m id lane mail with ⟨h, -⟩ | ⟨p, hp, -, -, h⟩
  · rw [h]
    exact .refl m
  · rw [h]
    exact enqueue hp lane mail

lemma sealPeer (m : Mailbox) (id : PeerId) : Uses m (m.sealPeer id) := by
  rw [Mailbox.sealPeer]
  split
  · exact .refl m
  · next p hp =>
    have hgoes : p.Goes p.shut := by
      refine .of_shorter rfl rfl rfl fun lane => ?_
      by_cases hl : lane = .media
      · subst hl
        exact Nat.zero_le _
      · exact (congrArg (·.queue.length) (lanes_setLane_of_ne p hl {})).le
    exact of_insert hp hgoes rfl rfl rfl rfl

lemma call (m : Mailbox) (c : Call) : Uses m (m.call c) := by
  cases c with
  | post command peer => exact of_same rfl rfl rfl
  | push peer lane mail => exact push m peer _ mail
  | pushToAll lane mail => exact pushToAll_keeps (fun _ id h => h.trans (push _ id _ mail)) (refl m)
  | sealPeer peer => exact sealPeer m peer

lemma calls (m : Mailbox) (cs : List Call) : Uses m (cs.foldl Mailbox.call m) := by
  induction cs generalizing m with
  | nil => exact refl m
  | cons c cs ih => exact (call m c).trans (ih _)

lemma take (m : Mailbox) (id : PeerId) (lane : Lane) : Uses m (m.take id lane).2 := by
  rw [Mailbox.take]
  split
  · exact .refl m
  next p hp =>
  split
  · exact .refl m
  next mail rest hq =>
  have hgoes : ∀ bytes, p.Goes (p.setLane lane { queue := rest, bytes := bytes }) := fun bytes => by
    refine .of_shorter rfl rfl rfl fun other => ?_
    by_cases ho : other = lane
    · subst ho
      rw [lanes_setLane_self, hq]
      exact Nat.le_succ _
    · rw [lanes_setLane_of_ne p ho]
  exact of_insert hp (hgoes _) rfl rfl rfl rfl

lemma settle (m : Mailbox) (id : PeerId) : Uses m (m.settle id).2 := by
  rw [Mailbox.settle]
  split
  · exact .refl m
  next p hp =>
  split
  · exact .refl m
  · have hgoes : p.Goes { p with done := p.accepted } := .of_shorter rfl rfl rfl fun _ => le_rfl
    exact of_insert hp hgoes rfl rfl rfl rfl

lemma openPeer (m : Mailbox) (id : PeerId) : Uses m (m.openPeer id) := by
  refine ⟨Nat.le_succ _, fun j q hq => ?_, fun hm j q hq ht => ?_⟩
  all_goals rw [Mailbox.openPeer, Std.TreeMap.getElem?_insert] at hq; split at hq
  · obtain rfl := Option.some.inj hq
    exact .inr ⟨Nat.lt_succ_self _, le_rfl, fun _ => le_rfl, fun _ _ => rfl⟩
  · exact .inl ⟨q, hq, .refl q⟩
  · obtain rfl := Option.some.inj hq
    cases ht
  · exact hm j q hq ht

lemma close (m : Mailbox) (id : PeerId) : Uses m (m.close id) := by
  refine ⟨le_rfl, fun j q hq => ?_, fun hm j q hq ht => ?_⟩
  all_goals rw [Mailbox.close, Std.TreeMap.getElem?_erase] at hq; split at hq
  · cases hq
  · exact .inl ⟨q, hq, .refl q⟩
  · cases hq
  · next hj =>
    have hne : j ≠ id := fun h => hj (Std.LawfulEqCmp.compare_eq_iff_eq.mpr h.symm)
    exact List.mem_filter.mpr ⟨hm j q hq ht, by simpa using hne⟩

lemma publishStats (m : Mailbox) (id : PeerId) (stats : PeerStats) : Uses m (m.publishStats id stats) := by
  cases hp : m.mPeers[id]? with
  | none =>
    refine ⟨le_rfl, fun j q hq => ?_, fun hm j q hq ht => ?_⟩
    all_goals
      have hsame : (m.publishStats id stats).mPeers[j]? = m.mPeers[j]? := by
        rw [Mailbox.publishStats, Std.TreeMap.getElem?_modify]
        split
        · next hj =>
          obtain rfl := Std.LawfulEqCmp.compare_eq_iff_eq.mp hj
          rw [hp, Option.map_none]
        · rfl
      rw [hsame] at hq
    · exact .inl ⟨q, hq, .refl q⟩
    · exact hm j q hq ht
  | some p =>
    have hgoes : p.Goes { p with stats := stats } := .of_shorter rfl rfl rfl fun _ => le_rfl
    refine of_one hp hgoes ?_ (fun j hj => ?_) rfl
      (fun _ hi => hi) fun ht => .inl ht
    · rw [Mailbox.publishStats, Std.TreeMap.getElem?_modify_self, hp, Option.map_some]
    · rw [Mailbox.publishStats, Std.TreeMap.getElem?_modify,
        if_neg fun h => hj (Std.LawfulEqCmp.compare_eq_iff_eq.mp h).symm]

end Uses

def acceptedBy (m : Mailbox) (id : PeerId) (epoch : ℕ) (lane : Lane) : ℕ :=
  match m.mPeers[id]? with
  | none => 0
  | some p => if p.epoch = epoch then (p.acceptedOn lane).length else 0

def heldSince (before m : Mailbox) (id : PeerId) (lane : Lane) : List Mail :=
  match m.mPeers[id]? with
  | none => []
  | some p =>
    let queue := (p.lanes lane).queue
    queue.take (queue.length - ((p.acceptedOn lane).length - before.acceptedBy id p.epoch lane))

variable {before : Mailbox} {lane : Lane}

lemma heldSince_of_some (hp : m.mPeers[id]? = some p) : heldSince before m id lane =
    (p.lanes lane).queue.take
      ((p.lanes lane).queue.length - ((p.acceptedOn lane).length - before.acceptedBy id p.epoch lane)) := by
  rw [heldSince, hp]

lemma heldSince_eq_nil (hp : m.mPeers[id]? = some p) : heldSince before m id lane = [] ↔
    (p.lanes lane).queue.length ≤ (p.acceptedOn lane).length - before.acceptedBy id p.epoch lane := by
  rw [heldSince_of_some hp, List.take_eq_nil_iff, Nat.sub_eq_zero_iff_le]
  refine or_iff_left_of_imp fun h => ?_
  rw [h]
  exact Nat.zero_le _

lemma heldSince_of_empty (h : ∀ p, m.mPeers[id]? = some p → (p.lanes lane).queue = []) :
    heldSince before m id lane = [] := by
  cases hp : m.mPeers[id]? with
  | none => rw [heldSince, hp]
  | some p => rw [heldSince_of_some hp, h p hp, List.take_nil]

lemma acceptedBy_of_new {epoch : ℕ} (hn : before.Numbered) (he : before.mEpochs < epoch) :
    before.acceptedBy id epoch lane = 0 := by
  rw [acceptedBy]
  split
  · rfl
  · next q hq => exact if_neg fun h : q.epoch = epoch => (hn id q hq).not_gt (h ▸ he)

lemma Uses.acceptedBy_le (h : Uses before m) (hn : before.Numbered) (hp : m.mPeers[id]? = some p) (lane : Lane) :
    before.acceptedBy id p.epoch lane ≤ (p.acceptedOn lane).length := by
  rcases h.peers id p hp with ⟨q, hq, hg⟩ | ⟨he, -⟩
  · rw [acceptedBy, hq]
    dsimp only
    split
    · exact hg.accepts lane
    · exact Nat.zero_le _
  · rw [acceptedBy_of_new hn he]
    exact Nat.zero_le _

lemma Uses.heldSince_nil (h : Uses m m') (hb : Uses before m) (hn : before.Numbered)
    (hm : heldSince before m id lane = []) : heldSince before m' id lane = [] := by
  cases hp' : m'.mPeers[id]? with
  | none => rw [heldSince, hp']
  | some p' =>
    rw [heldSince_eq_nil hp']
    rcases h.peers id p' hp' with ⟨p, hp, hg⟩ | ⟨he, -, hy⟩
    · have hle := hb.acceptedBy_le hn hp lane
      have hq := hg.queue lane
      rw [heldSince_eq_nil hp] at hm
      rw [hg.epoch]
      omega
    · rw [acceptedBy_of_new hn (hb.epochs.trans_lt he)]
      exact hy.queue lane

lemma Uses.queue_of_unlisted (h : Uses before m) (hp : m.mPeers[id]? = some p) (hl : p.listed = false)
    (hm : heldSince before m id lane = []) : (p.lanes lane).queue = [] := by
  rw [heldSince_eq_nil hp] at hm
  rcases h.peers id p hp with ⟨q, hq, hg⟩ | ⟨-, -, hy⟩
  · rw [acceptedBy, hq, hg.epoch] at hm
    dsimp only at hm
    rw [if_pos rfl, hg.told hl lane, Nat.sub_self] at hm
    exact List.length_eq_zero_iff.mp (Nat.le_zero.mp hm)
  · have hq := hy.queue lane
    rw [hy.told hl lane] at hq
    exact List.length_eq_zero_iff.mp (Nat.le_zero.mp hq)

lemma Listed.drain (h : m.Listed) : m.drain.2.Listed := by
  intro id q hq ht
  obtain ⟨p, hp, rfl⟩ := Option.map_eq_some_iff.mp ((Used.drain_listed m id).symm.trans hq)
  have ht : p.listed = true ∧ id ∉ m.mReady := by simpa using ht
  exact absurd (h id p hp ht.1) ht.2

lemma Numbered.drain (h : m.Numbered) : m.drain.2.Numbered := by
  intro id q hq
  obtain ⟨p, hp, rfl⟩ := Option.map_eq_some_iff.mp ((Used.drain_listed m id).symm.trans hq)
  exact h id p hp

lemma Uses.heldSince_drain (h : Uses before m) (hl : m.Listed) (hr : id ∉ m.drain.1.ready)
    (hm : heldSince before m id lane = []) : heldSince m.drain.2 m.drain.2 id lane = [] := by
  refine heldSince_of_empty fun q hq => ?_
  obtain ⟨p, hp, rfl⟩ := Option.map_eq_some_iff.mp ((Used.drain_listed m id).symm.trans hq)
  have hunlisted : p.listed = false := Bool.eq_false_iff.mpr fun ht => hr (hl id p hp ht)
  have hempty : (p.lanes lane).queue = [] := h.queue_of_unlisted hp hunlisted hm
  exact hempty

end NetLink.Channel.Mailbox
