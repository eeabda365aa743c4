import NetLink.Channel.ReliableLink.Vacancy
import NetLink.Engine.Rings

/-! What the engine knows of a peer whose turn is over: its Acks are sent or held back, and a lane without a place
in its ring has nothing to send. -/

namespace NetLink.NetworkEngine

open Channel (TimePoint ReliableLink OutboundMessage Mail Mailbox SendScheduler)
open Channel.Mailbox (heldSince)

def Peer.handsOver (p : Peer) (mail : List Mail) (lane : Channel.Lane) : Option OutboundMessage :=
  if lane = .control then p.control.head?
  else if p.transfersData then mail.head?.map fun mail => { tag := mail.tag, body := mail.body }
  else none

def Peer.offers (p : Peer) (mail : List Mail) (lane : Channel.Lane) : Bool :=
  (p.link.peek Channel.Host.single lane (p.handsOver mail lane)).1.isSome

structure Peer.Attended (p : Peer) (held : Prop) (mail : Channel.Lane → List Mail) : Prop where
  acks : p.link.OwesAck → held
  lanes : ∀ lane, p.scheduled lane = false → p.offers (mail lane) lane = false

def AttendedAt (before : Mailbox) (e : NetworkEngine) (j : PeerId) : Prop :=
  ∀ p, e.find j = some p → p.ended = false → p.Attended (j ∈ e.mAcksHeldBack) (heldSince before e.mMailbox j)

variable {before : Mailbox} {e e' : NetworkEngine} {j id : PeerId} {p p' : Peer} {mail mail' : List Mail}
  {lane other : Channel.Lane} {l : ReliableLink}

lemma Peer.offers_eq (p : Peer) (mail : List Mail) (lane : Channel.Lane) :
    p.offers mail lane = (p.link.loaded lane || p.link.vacant lane && (p.handsOver mail lane).isSome) :=
  ReliableLink.isSome_peek_single _

lemma Peer.handsOver_nil (hc : lane = .control → p.control = []) : p.handsOver [] lane = none := by
  rw [handsOver]
  split
  · next hl => rw [hc hl, List.head?_nil]
  · split <;> rfl

lemma Peer.isSome_handsOver (hc : lane = .control → p'.control = p.control)
    (ht : p'.transfersData = p.transfersData) (hm : mail = [] → mail' = [])
    (h : (p'.handsOver mail' lane).isSome = true) :
      (p.handsOver mail lane).isSome = true := by
  rw [handsOver] at h ⊢
  split
  · next hl =>
    rw [if_pos hl, hc hl] at h
    exact h
  · next hl =>
    rw [if_neg hl, ht] at h
    split
    · next hd =>
      rw [if_pos hd] at h
      cases mail with
      | nil =>
        rw [hm rfl] at h
        exact h
      | cons => rfl
    · next hd =>
      rw [if_neg hd] at h
      exact h

lemma Peer.offers_mono (h : p.offers mail lane = false)
    (hl : p'.link.loaded lane = true → p.link.loaded lane = true)
    (hv : p'.link.vacant lane = true → p.link.vacant lane = true) (hc : lane = .control → p'.control = p.control)
    (ht : p'.transfersData = p.transfersData) (hm : mail = [] → mail' = []) : p'.offers mail' lane = false := by
  rw [Peer.offers_eq, Bool.or_eq_false_iff, Bool.and_eq_false_iff] at h ⊢
  refine ⟨Bool.eq_false_iff.mpr fun hn => ?_, ?_⟩
  · rw [hl hn] at h
    cases h.1
  · rcases h.2 with h | h
    · exact .inl (Bool.eq_false_iff.mpr fun hn => by rw [hv hn] at h; cases h)
    · exact .inr (Bool.eq_false_iff.mpr fun hn => by rw [Peer.isSome_handsOver hc ht hm hn] at h; cases h)

lemma Peer.Attended.congr {held held' : Prop} {mail mail' : Channel.Lane → List Mail} (h : p.Attended held mail)
    (hl : p'.link = p.link) (hc : p'.control = p.control) (ht : p'.transfersData = p.transfersData)
    (hs : p'.scheduled = p.scheduled) (hh : held → held') (hm : ∀ lane, mail lane = [] → mail' lane = []) :
    p'.Attended held' mail' where
  acks ho := hh (h.acks (by rwa [← hl]))
  lanes lane hn := by
    refine Peer.offers_mono (h.lanes lane (by rwa [← hs])) ?_ ?_ (fun _ => hc) ht (hm lane)
    · rw [hl]
      exact id
    · rw [hl]
      exact id

section Mailbox

variable (hb : Mailbox.Uses before e.mMailbox) (hn : before.Numbered)
include hb hn

lemma AttendedAt.elsewhere (h : AttendedAt before e j) (hf : e'.find j = e.find j)
    (hu : Mailbox.Uses e.mMailbox e'.mMailbox) (hh : ∀ i ∈ e.mAcksHeldBack, i ∈ e'.mAcksHeldBack) :
    AttendedAt before e' j := by
  intro p hp he
  exact (h p (hf ▸ hp) he).congr rfl rfl rfl rfl (hh j) fun lane hm => hu.heldSince_nil hb hn hm

lemma AttendedAt.record (h : AttendedAt before e j) (hf : e.find j = some p) (hf' : e'.find j = some p')
    (he : p'.ended = p.ended) (hl : p'.link = p.link) (hc : p'.control = p.control)
    (ht : p'.transfersData = p.transfersData) (hs : p'.scheduled = p.scheduled)
    (hu : Mailbox.Uses e.mMailbox e'.mMailbox) (hh : ∀ i ∈ e.mAcksHeldBack, i ∈ e'.mAcksHeldBack) :
    AttendedAt before e' j := by
  intro q hq hended
  obtain rfl := Option.some.inj (hf'.symm.trans hq)
  exact (h p hf (he ▸ hended)).congr hl hc ht hs (hh j) fun lane hm => hu.heldSince_nil hb hn hm

end Mailbox

lemma AttendedAt.of_none (hf : e.find j = none) : AttendedAt before e j := fun p hp => by simp [hf] at hp

lemma AttendedAt.of_ended (hf : e.find j = some p) (he : p.ended = true) : AttendedAt before e j := by
  intro q hq hended
  obtain rfl := Option.some.inj (hf.symm.trans hq)
  simp [he] at hended

lemma control_peeked (hl : lane ≠ .control) : (p.peeked (e.offering id p lane)).control = p.control := by
  change (if lane = .control ∧ _ then _ else _) = _
  rw [if_neg fun h => hl h.1]
  rfl

lemma offers_peeked_of_ne (ho : other ≠ lane) (h : p.offers mail other = false) (hm : mail = [] → mail' = []) :
    (p.peeked (e.offering id p lane)).offers mail' other = false := by
  have hlane : (p.peeked (e.offering id p lane)).link.loaded other = p.link.loaded other ∧
      (p.peeked (e.offering id p lane)).link.vacant other = p.link.vacant other :=
    ReliableLink.lane_peek_of_ne (l := e.lend p) ho
  refine Peer.offers_mono h ?_ ?_ (fun hc => control_peeked (hc ▸ ho.symm)) rfl hm
  · exact fun hn => hlane.1.symm.trans hn
  · exact fun hn => hlane.2.symm.trans hn

lemma mailbox_peek_of_vacant (hf : e.find id = some p) (hl : p.link.loaded lane = false)
    (hv : p.link.vacant lane = true) :
    (e.peek id lane).2.mMailbox = (nextMessage id e lane).2.mMailbox := by
  have ha : ReliableLink.Answers (nextMessage id) e (e.lend p) lane ((e.lend p).peek (nextMessage id) lane e) :=
    ReliableLink.answers_peek _ _
  have hl : (e.lend p).loaded lane = false := hl
  have hv : (e.lend p).vacant lane = true := hv
  rw [ReliableLink.Answers, hl, hv, if_neg Bool.false_ne_true, if_pos rfl] at ha
  have hpeek : e.peek id lane = (((e.lend p).peek (nextMessage id) lane e).1,
      ((e.lend p).peek (nextMessage id) lane e).2.2.putLink id ((e.lend p).peek (nextMessage id) lane e).2.1) := by
    simp only [NetworkEngine.peek, hf]
  rw [hpeek, ← ha.2]
  rfl

lemma heldSince_of_supply (hf : e.find id = some p) (hl : lane ≠ .control) (ht : p.transfersData = true)
    (hs : e.supply id lane = none) : heldSince before (nextMessage id e lane).2.mMailbox id lane = [] := by
  have hnext : nextMessage id e lane = ((e.lock.mMailbox.take id lane).1.map fun mail =>
    { tag := mail.tag, body := mail.body },
      { e.lock with mMailbox := (e.lock.mMailbox.take id lane).2 }) := by
    simp only [nextMessage, hf, if_neg hl, ht]
    rfl
  rw [supply, hnext, Option.map_eq_none_iff] at hs
  rw [hnext]
  dsimp only
  refine Mailbox.heldSince_of_empty fun q hq => ?_
  generalize e.lock.mMailbox = m at hs hq
  rw [Mailbox.take] at hs hq
  cases hm : m.mPeers[id]? with
  | none => simp [hm] at hq
  | some r =>
    rw [hm] at hs hq
    dsimp only at hs hq
    split at hs
    · next hempty =>
      rw [hempty] at hq
      dsimp only at hq
      obtain rfl := Option.some.inj (hm.symm.trans hq)
      exact hempty
    · cases hs

lemma control_of_supply (hf : e.find id = some p) (hs : e.supply id .control = none) :
    (p.peeked (e.offering id p .control)).control = [] := by
  have hhead := supplies_supply e hf .control rfl
  rw [hs, eq_comm, List.head?_eq_none_iff] at hhead
  have hcontrol : p.control = [] := hhead
  change (if _ then p.control.tail else p.control) = []
  rw [hcontrol, List.tail_nil, ite_self]

lemma offers_of_peek_none (hf : e.find id = some p) (h : (e.peek id lane).1 = none) :
    (p.peeked (e.offering id p lane)).offers (heldSince before (e.peek id lane).2.mMailbox id lane)
      lane = false := by
  rw [(peek_eq e hf lane).1] at h
  have hsome : ((e.lend p).peek Channel.Host.single lane (e.supply id lane)).1.isSome =
      ((e.lend p).loaded lane || (e.lend p).vacant lane && (e.supply id lane).isSome) :=
        ReliableLink.isSome_peek_single _
  rw [h, Option.isSome_none, eq_comm, Bool.or_eq_false_iff, Bool.and_eq_false_iff] at hsome
  obtain ⟨hloaded, hvacant⟩ := ReliableLink.lane_of_peek_none h
  have hloaded : (p.peeked (e.offering id p lane)).link.loaded lane = false := hloaded
  have hvacant : (p.peeked (e.offering id p lane)).link.vacant lane = (e.lend p).vacant lane := hvacant
  rw [Peer.offers_eq, hloaded, hvacant, Bool.false_or, Bool.and_eq_false_iff]
  cases hv : (e.lend p).vacant lane with
  | false => exact .inl rfl
  | true =>
    have hs : e.supply id lane = none := by simpa [hv] using hsome.2
    refine .inr (Option.isSome_eq_false_iff.mpr (Option.isNone_iff_eq_none.mpr ?_))
    by_cases hl : lane = .control
    · subst hl
      rw [Peer.handsOver, if_pos rfl, control_of_supply hf hs, List.head?_nil]
    · cases ht : p.transfersData with
      | true =>
        rw [mailbox_peek_of_vacant hf hsome.1 hv, heldSince_of_supply hf hl ht hs]
        exact Peer.handsOver_nil fun h => absurd h hl
      | false =>
        have ht : (p.peeked (e.offering id p lane)).transfersData = false := ht
        rw [Peer.handsOver, if_neg hl, ht, if_neg Bool.false_ne_true]

lemma find_transmit (e : NetworkEngine) (address : Net.SocketAddress) (packet : Channel.Packet) (j : PeerId) :
    (e.transmit address packet).2.find j = e.find j := by
  rw [find, find, (quiet_transmit e address packet).peers]

lemma find_committedAck {link : ReliableLink} (hf : e.find id = some { p with link := link }) :
    (e.onLink id (·.commitAck)).find id =
      some { p with link := { link with mBudget := some e.mAssemblyBudget }.commitAck } :=
  find_onLink e hf _

lemma acks_sendAcksLoop (n : ℕ) (hf : e.find id = some p) (ha : p.link.mFailed = false) (h : p.link.OwesAtMost n) :
    ∀ q, (sendAcksLoop id (n + 1) e).find id = some q → q.link.OwesAck →
      id ∈ (sendAcksLoop id (n + 1) e).mAcksHeldBack := by
  induction n using Nat.strong_induction_on generalizing e p with
  | _ n ih =>
    have hput : ∀ link, (e.putLink id link).find id = some { p with link := link } := fun link => by
      rw [find_putLink, hf, Option.map_some]
    rw [sendAcksLoop, hf]
    dsimp only
    split
    · next link hack =>
      intro q hq ho
      obtain rfl := Option.some.inj ((hput link).symm.trans hq)
      have hnone : (e.lend p).peekAck.1 = none := by rw [hack]
      have hlink : (e.lend p).peekAck.2 = link := by rw [hack]
      exact absurd ho (hlink ▸ ReliableLink.not_owesAck_of_peekAck (l := e.lend p) ha hnone)
    next ack link hack =>
    split
    · exact fun _ _ _ => List.mem_append_right _ (List.mem_singleton_self id)
    have hsent := (find_transmit (e.putLink id link) p.address ack id).trans (hput link)
    split
    · exact fun _ _ _ => List.mem_append_right _ (List.mem_singleton_self id)
    · next sent _ ht =>
      rw [ht] at hsent
      have hsome : (e.lend p).peekAck.1 = some ack := by rw [hack]
      have hlink : (e.lend p).peekAck.2 = link := by rw [hack]
      have h : (e.lend p).OwesAtMost n := h
      obtain ⟨m, rfl, hm⟩ := h.commitAck hsome
      have hfailed : link.mFailed = false := by rw [← hlink, ReliableLink.failed_peekAck]; exact ha
      rw [hlink] at hm
      refine ih m (Nat.lt_succ_self m)
        (p := { p with link := { link with mBudget := some sent.mAssemblyBudget }.commitAck })
        ?_ hfailed hm
      exact find_committedAck hsent

lemma find_sendAcks (hf : e.find id = some p) :
    ∃ link, (e.sendAcks id).find id = some { p with link := link } := by
  refine sendAcks_keeps e
    (R := fun e e' => ∀ p, e.find id = some p → ∃ link, e'.find id = some { p with link := link })
    (fun _ p hf => ⟨p.link, hf⟩) (fun h h' p hf => ?_) (fun e p hf => ⟨_, find_onLink e hf _⟩)
    (fun e q ack _ _ p hf => ⟨p.link, (find_transmit e q.address ack id).trans hf⟩)
    (fun e p hf => ⟨_, find_onLink e hf _⟩) (fun _ p hf => ⟨p.link, hf⟩) (fun _ p hf => ⟨p.link, hf⟩) p hf
  obtain ⟨link, hlink⟩ := h p hf
  exact (h' _ hlink).imp fun _ hlink' => hlink'

lemma acks_sendAcks (hf : e.find id = some p) (ha : p.link.mFailed = false) :
    ∀ q, (e.sendAcks id).find id = some q → q.link.OwesAck → id ∈ (e.sendAcks id).mAcksHeldBack := by
  rw [sendAcks, hf]
  exact acks_sendAcksLoop _ hf ha (.inl le_rfl)

def SettledAt (before : Mailbox) (e : NetworkEngine) (id : PeerId) (lane : Channel.Lane) : Prop :=
  ∀ p, e.find id = some p → p.scheduled lane = false → p.offers (heldSince before e.mMailbox id lane) lane = false

def AcksAt (e : NetworkEngine) (id : PeerId) : Prop :=
  ∀ p, e.find id = some p → p.link.OwesAck → id ∈ e.mAcksHeldBack

lemma owesAck_peeked : (p.peeked (e.offering id p lane)).link.OwesAck ↔ p.link.OwesAck :=
  ReliableLink.owesAck_congr (ReliableLink.owed_peek _ (e.lend p) lane _)

lemma scheduleLane_cases (id : PeerId) (e : NetworkEngine) (lane : Channel.Lane) :
    (∀ p, e.find id = some p → p.scheduled lane = true) ∧ scheduleLane id e lane = e ∨
      ∃ p, e.find id = some p ∧
        ((e.peek id lane).1 = none ∧ scheduleLane id e lane = (e.peek id lane).2 ∨
          ∃ scheduler, scheduleLane id e lane =
            ({ (e.peek id lane).2 with mScheduler := scheduler } : NetworkEngine).setScheduled id lane true) := by
  rw [scheduleLane]
  split
  · next hs => exact .inl ⟨fun p hp => by simpa [hp] using hs, rfl⟩
  next hs =>
  obtain ⟨p, hf⟩ : ∃ p, e.find id = some p := by
    cases hf : e.find id with
    | none => simp [hf] at hs
    | some p => exact ⟨p, rfl⟩
  refine .inr ⟨p, hf, ?_⟩
  split
  · next he => exact .inl (by rw [he]; exact ⟨rfl, rfl⟩)
  · next he => exact .inr (by rw [he]; exact ⟨_, rfl⟩)

lemma find_scheduled {scheduler : SendScheduler} (hf : e.find id = some p) :
    (({ (e.peek id lane).2 with mScheduler := scheduler } : NetworkEngine).setScheduled id lane true).find id =
      some { p.peeked (e.offering id p lane) with scheduled := Function.update p.scheduled lane true } := by
  have hadded : find { (e.peek id lane).2 with mScheduler := scheduler } id =
    some (p.peeked (e.offering id p lane)) :=
    find_peek e hf lane
  exact find_setScheduled _ hadded lane true

lemma settled_scheduleLane : SettledAt before (scheduleLane id e lane) id lane := by
  intro q hq hs
  rcases scheduleLane_cases id e lane with ⟨hall, he⟩ | ⟨p, hf, ⟨hnone, he⟩ | ⟨scheduler, he⟩⟩
  · rw [he] at hq
    simp [hall q hq] at hs
  · rw [he] at hq ⊢
    obtain rfl := Option.some.inj ((find_peek e hf lane).symm.trans hq)
    exact offers_of_peek_none hf hnone
  · rw [he] at hq
    obtain rfl := Option.some.inj ((find_scheduled hf).symm.trans hq)
    simp at hs

lemma acks_scheduleLane (h : e.AcksAt id) : (scheduleLane id e lane).AcksAt id := by
  have hheld : ∀ j ∈ e.mAcksHeldBack, j ∈ (e.peek id lane).2.mAcksHeldBack := (turn_peek e lane).held
  intro q hq ho
  rcases scheduleLane_cases id e lane with ⟨-, he⟩ | ⟨p, hf, ⟨-, he⟩ | ⟨scheduler, he⟩⟩
  · rw [he] at hq ⊢
    exact h q hq ho
  · rw [he] at hq ⊢
    obtain rfl := Option.some.inj ((find_peek e hf lane).symm.trans hq)
    exact hheld _ (h p hf (owesAck_peeked.mp ho))
  · rw [he] at hq ⊢
    obtain rfl := Option.some.inj ((find_scheduled hf).symm.trans hq)
    exact hheld _ (h p hf (owesAck_peeked.mp ho))

section Mailbox

variable (hb : Mailbox.Uses before e.mMailbox) (hn : before.Numbered)
include hb hn

lemma SettledAt.scheduleLane (h : SettledAt before e id other) (lane : Channel.Lane) :
    SettledAt before (scheduleLane id e lane) id other := by
  by_cases ho : other = lane
  · subst ho
    exact settled_scheduleLane
  have hmail : heldSince before e.mMailbox id other = [] →
    heldSince before (e.peek id lane).2.mMailbox id other = [] :=
    (turn_peek e lane).uses.heldSince_nil hb hn
  intro q hq hs
  rcases scheduleLane_cases id e lane with ⟨-, he⟩ | ⟨p, hf, ⟨-, he⟩ | ⟨scheduler, he⟩⟩
  · rw [he] at hq ⊢
    exact h q hq hs
  · rw [he] at hq ⊢
    obtain rfl := Option.some.inj ((find_peek e hf lane).symm.trans hq)
    exact offers_peeked_of_ne ho (h p hf hs) hmail
  · rw [he] at hq ⊢
    obtain rfl := Option.some.inj ((find_scheduled hf).symm.trans hq)
    have hs : p.scheduled other = false := (Function.update_of_ne ho true p.scheduled).symm.trans hs
    exact offers_peeked_of_ne ho (h p hf hs) hmail

lemma settled_schedule (lane : Channel.Lane) : SettledAt before (e.schedule id) id lane := by
  have hlanes : ∀ (lanes : List Channel.Lane) (e : NetworkEngine), Mailbox.Uses before e.mMailbox →
      (lane ∈ lanes ∨ SettledAt before e id lane) →
        SettledAt before (lanes.foldl (scheduleLane id) e) id lane := by
    intro lanes
    induction lanes with
    | nil => exact fun e _ h => h.resolve_left List.not_mem_nil
    | cons first lanes ih =>
      intro e hb h
      refine ih _ (hb.trans (beside_scheduleLane _ _).uses) ?_
      rcases h with h | h
      · rcases List.mem_cons.mp h with rfl | h
        · exact .inr settled_scheduleLane
        · exact .inl h
      · exact .inr (h.scheduleLane hb hn first)
  exact hlanes _ e hb (.inl (by cases lane <;> decide))

end Mailbox

lemma acks_schedule (h : e.AcksAt id) : (e.schedule id).AcksAt id := by
  rw [schedule]
  generalize SendScheduler.Order = lanes
  induction lanes generalizing e with
  | nil => exact h
  | cons lane lanes ih => exact ih (acks_scheduleLane h)

lemma attended_serve (hb : Mailbox.Uses before e.mMailbox) (hn : before.Numbered) (now : TimePoint) :
    AttendedAt before (serve now e j) j := by
  rw [serve]
  split
  · next hnone => exact .of_none (by simpa using hnone)
  have halive := alive_advance (j := j) e now
  have hb : Mailbox.Uses before ((e.advance j now).sendAcks j).mMailbox :=
    hb.trans ((turn_advance e now).trans (turn_sendAcks _)).uses
  generalize e.advance j now = advanced at halive hb
  cases hf : advanced.find j with
  | none =>
    have hnone : (advanced.sendAcks j).find j = none := by rw [sendAcks, hf]; exact hf
    dsimp only
    rw [hnone, if_neg (by simp)]
    exact .of_none hnone
  | some p =>
    obtain ⟨link, hlink⟩ := find_sendAcks hf
    cases he : p.ended with
    | true =>
      dsimp only
      rw [hlink, if_neg (by simp [he])]
      exact .of_ended hlink he
    | false =>
      dsimp only
      rw [hlink, if_pos (by simp [he])]
      have hacks := acks_schedule (acks_sendAcks hf (halive p hf he))
      exact fun q hq _ => ⟨hacks q hq, fun lane => settled_schedule hb hn lane q hq⟩

lemma peek_of_empty (hf : e.find id = some p) {now : TimePoint} (h : (sendOne now e lane id).1 = .empty) :
    (e.peek id lane).1 = none := by
  simp only [sendOne, hf] at h
  split at h
  · next he => rw [he]
  · split at h
    · cases h
    · dsimp only at h
      split at h <;> cases h

lemma offers_committed_of_ne (now : TimePoint) (ho : other ≠ lane) (h : p.offers mail other = false) :
    (p.committed lane now).offers mail other = false :=
  Peer.offers_mono h (ReliableLink.lane_commit_of_ne ho now).1 (ReliableLink.lane_commit_of_ne ho now).2
    (fun _ => rfl) rfl id

lemma Peer.Attended.asked {held : Prop} {mail mail' : Channel.Lane → List Mail} (h : p.Attended held mail)
    (hs : p.scheduled lane = true) (hm : ∀ lane, mail lane = [] → mail' lane = []) :
    (p.peeked (e.offering id p lane)).Attended held mail' where
  acks ho := h.acks (owesAck_peeked.mp ho)
  lanes other hother := by
    have ho : other ≠ lane := fun ho => by
      have hother : p.scheduled other = false := hother
      rw [ho, hs] at hother
      cases hother
    exact offers_peeked_of_ne ho (h.lanes other hother) (hm other)

lemma AttendedAt.sendOne (hb : Mailbox.Uses before e.mMailbox) (hn : before.Numbered) (h : AttendedAt before e j)
    (now : TimePoint) (hs : (e.find id).any (·.scheduled lane) = true) :
    AttendedAt before (sendOne now e lane id).2 j := by
  have hbeside : Beside id e (NetworkEngine.sendOne now e lane id).2 := beside_sendOne e now lane
  have huses := hbeside.uses
  have hheld := hbeside.held
  by_cases hj : j = id
  swap
  · exact h.elsewhere hb hn (hbeside.others j hj) huses hheld
  subst hj
  obtain ⟨p, hf, hs⟩ := (Option.any_eq_true _ _).mp hs
  have hmail : ∀ other, heldSince before e.mMailbox j other = [] →
      heldSince before (NetworkEngine.sendOne now e lane j).2.mMailbox j other = [] :=
    fun other => huses.heldSince_nil hb hn
  have hfind := find_sendOne e hf now lane
  intro q hq he
  cases hresult : (NetworkEngine.sendOne now e lane j).1 with
  | empty =>
    rw [hresult] at hfind
    obtain rfl := Option.some.inj (hfind.symm.trans hq)
    have hasked : (p.peeked (e.offering j p lane)).Attended _ _ := (h p hf he).asked hs hmail
    refine ⟨fun ho => hheld j (hasked.acks ho), fun other hother => ?_⟩
    by_cases ho : other = lane
    · subst ho
      rw [mailbox_sendOne e hf]
      exact offers_of_peek_none hf (peek_of_empty hf hresult)
    · have hother : p.scheduled other = false := (Function.update_of_ne ho false p.scheduled).symm.trans hother
      exact hasked.lanes other hother
  | blocked =>
    rw [hresult] at hfind
    obtain rfl := Option.some.inj (hfind.symm.trans hq)
    have hasked : (p.peeked (e.offering j p lane)).Attended _ _ := (h p hf he).asked hs hmail
    exact ⟨fun ho => hheld j (hasked.acks ho), hasked.lanes⟩
  | _ =>
    rw [hresult] at hfind
    obtain rfl := Option.some.inj (hfind.symm.trans hq)
    have hasked : (p.peeked (e.offering j p lane)).Attended _ _ := (h p hf he).asked hs hmail
    refine ⟨fun ho => hheld j (hasked.acks ((ReliableLink.owesAck_congr (ReliableLink.owed_commit ..)).mp ho)), ?_⟩
    intro other hother
    have ho : other ≠ lane := fun ho => by
      have hother : p.scheduled other = false := hother
      rw [ho, hs] at hother
      cases hother
    exact offers_committed_of_ne now ho (hasked.lanes other hother)

lemma attended_sendData (hb : Mailbox.Uses before e.mMailbox) (hn : before.Numbered)
    (hr : Rung e.mScheduler.mRings e) (h : ∀ j, AttendedAt before e j) (now : TimePoint) :
    Mailbox.Uses before (e.sendData now).mMailbox ∧ ∀ j, AttendedAt before (e.sendData now) j := by
  have hanswers : SendScheduler.Answers (sendOne now) fun rings e =>
      Rung rings e ∧ Mailbox.Uses before e.mMailbox ∧ ∀ j, AttendedAt before e j := by
    rintro rings e lane ring ⟨hr, hb, h⟩ hpeers rfl
    refine ⟨rung_answers now rings e lane _ hr hpeers rfl, hb.trans (beside_sendOne e now lane).uses, fun j => ?_⟩
    refine (h j).sendOne hb hn now ((hr.mem lane _).mp ?_)
    rw [List.getD_eq_getElem _ _ (SendScheduler.cursor_wrapped hpeers), ← SendScheduler.peers_wrapped (rings lane)]
    exact List.getElem_mem _
  exact (SendScheduler.run_invariant hanswers (e.world.sends.length + e.mScheduler.waiting + 1) e.mScheduler e
    ⟨hr, hb, h⟩).2

end NetLink.NetworkEngine
