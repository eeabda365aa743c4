import NetLink.Engine.Runs.Datagrams

/-! Sending, as runs of moves. -/

namespace NetLink.Channel.ReliableLink

variable {σ : Type} {f : MessageSource σ} {lane : Lane} {s : σ} {l : ReliableLink}

def AsksOnce (f : MessageSource σ) (lane : Lane) (s : σ) (asked : Option Packet × ReliableLink × σ)
    (told : Option Packet × ReliableLink × Option OutboundMessage) : Prop :=
  asked.1 = told.1 ∧ asked.2.1 = told.2.1 ∧
    (asked.2.2 = s ∧ told.2.2 = (f s lane).1 ∨ asked.2.2 = (f s lane).2 ∧ told.2.2 = none)

lemma asksOnce_peekNext : AsksOnce f lane s (l.peekNext f lane s) (l.peekNext Host.single lane (f s lane).1) := by
  rw [peekNext, peekNext]
  split
  · exact ⟨rfl, rfl, .inl ⟨rfl, rfl⟩⟩
  · rcases hf : f s lane with ⟨_ | m, s'⟩
    · exact ⟨rfl, rfl, .inr ⟨by rw [hf], rfl⟩⟩
    · exact ⟨rfl, rfl, .inr ⟨by rw [hf], rfl⟩⟩

lemma asksOnce_peekMedia : AsksOnce f .media s (l.peekMedia f s) (l.peekMedia Host.single (f s .media).1) := by
  rw [peekMedia, peekMedia]
  split
  · exact ⟨rfl, rfl, .inl ⟨rfl, rfl⟩⟩
  · rcases hf : f s .media with ⟨_ | m, s'⟩
    · exact ⟨rfl, rfl, .inr ⟨by rw [hf], rfl⟩⟩
    · exact ⟨rfl, rfl, .inr ⟨by rw [hf], rfl⟩⟩

variable (f lane s l) in
lemma asksOnce_peek : AsksOnce f lane s (l.peek f lane s) (l.peek Host.single lane (f s lane).1) := by
  rw [peek, peek]
  split
  · exact ⟨rfl, rfl, .inl ⟨rfl, rfl⟩⟩
  split
  · next hm =>
    subst hm
    exact asksOnce_peekMedia
  dsimp only
  split
  · split
    · exact asksOnce_peekNext
    · exact ⟨rfl, rfl, .inl ⟨rfl, rfl⟩⟩
  · split
    · split <;> exact ⟨rfl, rfl, .inl ⟨rfl, rfl⟩⟩
    · split
      · exact ⟨rfl, rfl, .inl ⟨rfl, rfl⟩⟩
      · exact asksOnce_peekNext

variable (lane l) in
lemma mBudget_checkIndex : (l.checkIndex lane).mBudget = l.mBudget := by
  rw [checkIndex]
  split <;> rfl

lemma mBudget_peekNext (next : Option OutboundMessage) :
    (l.peekNext Host.single lane next).2.1.mBudget = l.mBudget := by
  rw [peekNext]
  split
  · rfl
  · cases next <;> rfl

variable (lane l) in
lemma mBudget_peek (next : Option OutboundMessage) : (l.peek Host.single lane next).2.1.mBudget = l.mBudget := by
  have hc := mBudget_checkIndex lane l
  rw [peek]
  split
  · rfl
  split
  · rw [peekMedia]
    split
    · rfl
    · cases next <;> rfl
  dsimp only
  split
  · split
    · rw [mBudget_peekNext, hc]
    · exact hc
  · split
    · split <;> exact hc
    · split
      · exact hc
      · rw [mBudget_peekNext]
        exact hc

end NetLink.Channel.ReliableLink

namespace NetLink.NetworkEngine

open Net (SocketAddress)
open Channel (TimePoint ReliableLink Packet OutboundMessage Host SendScheduler)

variable {Γ : Rules} (e : NetworkEngine) {id : PeerId} {p : Peer} {P : NetworkEngine → Prop}

lemma transmit_eq (address : SocketAddress) (packet : Packet) : ∃ world posts blocked failed,
    (e.transmit address packet).2 = { e with
      world := world
      outbox := e.outbox ++ posts
      mSocketBlocked := blocked
      mSocketFailed := failed } ∧
    (∀ u ∈ posts, e.mIoSocket = some u.origin ∧ u.bytes = packet.bytes) ∧
    ((e.transmit address packet).1 = .refused → posts = []) := by
  have hquiet : ∀ outcome world blocked failed, ∃ world' posts blocked' failed',
      ((outcome, { e with world := world, mSocketBlocked := blocked, mSocketFailed := failed }) :
        Transmit × NetworkEngine).2 = { e with
          world := world'
          outbox := e.outbox ++ posts
          mSocketBlocked := blocked'
          mSocketFailed := failed' } ∧
      (∀ u ∈ posts, e.mIoSocket = some u.origin ∧ u.bytes = packet.bytes) ∧
      ((outcome : Transmit) = .refused → posts = []) := by
    intro outcome world blocked failed
    exact ⟨world, [], blocked, failed, by simp, by simp, fun _ => rfl⟩
  rw [transmit]
  split
  · exact hquiet .lost e.world e.mSocketBlocked e.mSocketFailed
  next here hb =>
  dsimp only
  split
  · refine ⟨_, [⟨here, address, packet.bytes⟩], e.mSocketBlocked, e.mSocketFailed, rfl, ?_, by simp⟩
    intro u hu
    rw [List.mem_singleton.mp hu]
    exact ⟨hb, rfl⟩
  · exact hquiet .refused _ true e.mSocketFailed
  · exact hquiet .refused _ true e.mSocketFailed
  · split
    · exact hquiet .refused _ true true
    · exact hquiet .lost _ e.mSocketBlocked e.mSocketFailed

lemma mem_pendingAcks_of_peekAck {l : ReliableLink} {ack : Packet} (h : l.peekAck.1 = some ack) :
    ack ∈ l.peekAck.2.mPendingAcks := by
  rw [ReliableLink.peekAck] at h ⊢
  split at h
  · simp at h
  · next hf =>
    rw [if_neg hf]
    exact List.mem_of_mem_head? h

lemma reaches_transmitAck (h : e.find id = some p) {ack : Packet} (ha : ack ∈ p.link.mPendingAcks)
    (address : SocketAddress) : Reaches Γ e (e.transmit address ack).2 := by
  obtain ⟨world, posts, blocked, failed, he, hu, -⟩ := transmit_eq e address ack
  apply Reaches.of_move
  rw [he]
  exact .transmitAck id p.view ack posts (sessions_view e h) ha hu

lemma sendAcks_keeps {R : NetworkEngine → NetworkEngine → Prop} (hrefl : ∀ e, R e e)
    (htrans : ∀ {a b c}, R a b → R b c → R a c) (hpeek : ∀ e, R e (e.onLink id (·.peekAck.2)))
    (hsend : ∀ e p ack, e.find id = some p → ack ∈ p.link.mPendingAcks → R e (e.transmit p.address ack).2)
    (hcommit : ∀ e, R e (e.onLink id (·.commitAck)))
    (hhold : ∀ e, R e { e with mAcksHeldBack := e.mAcksHeldBack ++ [id] })
    (hspend : ∀ e, R e { e with mScheduler := e.mScheduler.spend }) : R e (e.sendAcks id) := by
  have hloop : ∀ n e, R e (sendAcksLoop id n e) := by
    intro n
    induction n with
    | zero => exact hrefl
    | succ n ih =>
      intro e
      rw [sendAcksLoop]
      split
      · exact hrefl e
      next p h =>
      have hput : e.onLink id (·.peekAck.2) = e.putLink id (e.lend p).peekAck.2 := by rw [onLink, h]
      have hpeeked := hpeek e
      have hfind := find_onLink e h (·.peekAck.2)
      rw [hput] at hpeeked hfind
      split
      · next hn => rwa [hn] at hpeeked
      next ack link hack =>
      have hready := mem_pendingAcks_of_peekAck (congrArg Prod.fst hack)
      rw [hack] at hpeeked hfind hready
      have hsent : R e ((e.putLink id link).transmit p.address ack).2 :=
        htrans hpeeked (hsend _ { p with link := link } ack hfind hready)
      dsimp only
      split
      · exact htrans hpeeked (hhold _)
      split
      · next ht =>
        rw [ht] at hsent
        exact htrans hsent (hhold _)
      · next ht =>
        rw [ht] at hsent
        exact htrans (htrans (htrans hsent (hcommit _)) (hspend _)) (ih _)
  rw [sendAcks]
  split
  · exact hrefl e
  · exact hloop _ e

lemma reaches_sendAcks (id : PeerId) : Reaches Γ e (e.sendAcks id) :=
  sendAcks_keeps e .refl .trans (fun e => reaches_onLink e id _ .peekAck)
    (fun e p _ h ha => reaches_transmitAck e h ha p.address) (fun e => reaches_onLink e id _ .commitAck)
    (fun _ => .of_view rfl) fun _ => .of_view rfl

def supply (e : NetworkEngine) (id : PeerId) (lane : Channel.Lane) : Option OutboundMessage :=
  (nextMessage id e lane).1

lemma supplies_supply (h : e.find id = some p) (lane : Channel.Lane) :
    (p.view.withLink (e.lend p)).Supplies lane (e.supply id lane) := by
  rintro rfl
  simp only [supply, nextMessage, h, if_true]
  rfl

def Peer.asked (p : Peer) (lane : Channel.Lane) : Peer :=
  { p with control := if lane = .control then p.control.tail else p.control }

lemma asked_of_ne {lane : Channel.Lane} (hc : lane ≠ .control) : p.asked lane = p := by
  rw [Peer.asked, if_neg hc]

lemma find_nextMessage (h : e.find id = some p) (lane : Channel.Lane) :
    (nextMessage id e lane).2.find id = some (p.asked lane) := by
  simp only [nextMessage, h]
  by_cases hc : lane = .control
  · subst hc
    rw [if_pos rfl]
    dsimp only
    rw [find_modifyPeer_self, h]
    rfl
  · rw [if_neg hc, asked_of_ne hc]
    split <;> exact h

lemma view_nextMessage (h : e.find id = some p) (lane : Channel.Lane) :
    (nextMessage id e lane).2.view = e.view.set id (p.asked lane).view := by
  simp only [nextMessage, h]
  by_cases hc : lane = .control
  · subst hc
    rw [if_pos rfl]
    exact view_modifyPeer e h _
  · rw [if_neg hc, asked_of_ne hc, View.set_of_sessions _ _ _ (sessions_view e h)]
    split <;> rfl

def Shows (e : NetworkEngine) (id : PeerId) (s : SessionView) : Prop := ∃ p, e.find id = some p ∧ p.view = s

lemma shows_putLink {e' : NetworkEngine} (h : e'.find id = some p) (hv : e'.view = e.view.set id p.view)
    (link : ReliableLink) : (e'.putLink id link).Shows id (p.view.withLink link) ∧
      (e'.putLink id link).view = e.view.set id (p.view.withLink link) := by
  refine ⟨⟨{ p with link := link }, ?_, rfl⟩, ?_⟩
  · rw [find_putLink, h, Option.map_some]
  · rw [view_putLink e' h, hv, View.set_set]

def offering (e : NetworkEngine) (id : PeerId) (p : Peer) (lane : Channel.Lane) : SessionView :=
  (p.view.withLink (e.lend p)).peeked lane (e.supply id lane)

lemma offering_of_taken {lane : Channel.Lane}
    (ht : ((e.lend p).peek Host.single lane (e.supply id lane)).2.2 = none) :
    e.offering id p lane =
      (p.asked lane).view.withLink ((e.lend p).peek Host.single lane (e.supply id lane)).2.1 := by
  have ht : ((p.view.withLink (e.lend p)).link.peek Host.single lane (e.supply id lane)).2.2 = none := ht
  simp only [offering, SessionView.peeked, ht, and_true]
  rfl

lemma offering_of_left (h : e.find id = some p) {lane : Channel.Lane}
    (ht : ((e.lend p).peek Host.single lane (e.supply id lane)).2.2 = e.supply id lane) :
    e.offering id p lane = p.view.withLink ((e.lend p).peek Host.single lane (e.supply id lane)).2.1 := by
  have hc : (if lane = .control ∧
    ((p.view.withLink (e.lend p)).link.peek Host.single lane (e.supply id lane)).2.2 = none
      then (p.view.withLink (e.lend p)).control.tail else (p.view.withLink (e.lend p)).control) = p.control := by
    split
    · next hn =>
      -- Nothing was left on a lane that had nothing
      have hhead := supplies_supply e h lane hn.1
      have ht : e.supply id lane = none := ht.symm.trans hn.2
      rw [ht, eq_comm, List.head?_eq_none_iff] at hhead
      have hcontrol : p.control = [] := hhead
      rw [hhead, hcontrol, List.tail_nil]
    · rfl
  rw [offering, SessionView.peeked, hc]
  rfl

lemma peek_eq (h : e.find id = some p) (lane : Channel.Lane) :
    (e.peek id lane).1 = ((e.lend p).peek Host.single lane (e.supply id lane)).1 ∧
      (e.peek id lane).2.Shows id (e.offering id p lane) ∧
      (e.peek id lane).2.view = e.view.set id (e.offering id p lane) ∧
      (e.peek id lane).2.mAssemblyBudget = e.mAssemblyBudget := by
  obtain ⟨hp, hl, hs⟩ := ReliableLink.asksOnce_peek (nextMessage id) lane e (e.lend p)
  have hb := ReliableLink.mBudget_peek lane (e.lend p) (e.supply id lane)
  have hpeek : e.peek id lane = (((e.lend p).peek (nextMessage id) lane e).1,
      ((e.lend p).peek (nextMessage id) lane e).2.2.putLink id ((e.lend p).peek (nextMessage id) lane e).2.1) := by
    simp only [NetworkEngine.peek, h]
  rw [hpeek]
  dsimp only
  rw [hp, hl]
  refine ⟨rfl, and_assoc.mp ⟨?_, ?_⟩⟩
  · rcases hs with ⟨hs, ht⟩ | ⟨hs, ht⟩
    · rw [hs, offering_of_left e h ht]
      exact shows_putLink e h (View.set_of_sessions _ _ _ (sessions_view e h)).symm _
    · rw [hs, offering_of_taken e ht]
      exact shows_putLink e (find_nextMessage e h lane) (view_nextMessage e h lane) _
  · have hb : ((e.lend p).peek Host.single lane (nextMessage id e lane).1).2.1.mBudget =
      some e.mAssemblyBudget := hb
    rw [putLink, hb, Option.getD_some]

lemma peek_keeps (id : PeerId) (lane : Channel.Lane) (he : P e)
    (hs : P (nextMessage id e lane).2) (hl : ∀ e' link, P e' → P (e'.putLink id link)) : P (e.peek id lane).2 := by
  rw [NetworkEngine.peek]
  split
  · exact he
  next p h =>
  apply hl
  rcases (ReliableLink.asksOnce_peek (nextMessage id) lane e (e.lend p)).2.2 with ⟨hasked, -⟩ | ⟨hasked, -⟩
  · rwa [hasked]
  · rwa [hasked]

lemma reaches_peek (id : PeerId) (lane : Channel.Lane) : Reaches Γ e (e.peek id lane).2 := by
  cases h : e.find id with
  | none => exact .of_view (by rw [NetworkEngine.peek, h])
  | some p =>
    intro _
    rw [(peek_eq e h lane).2.2.1]
    refine (run_lend (sessions_view e h) e.mAssemblyBudget).tail ?_
    have hm := Move.session (Γ := Γ) id (p.view.withLink (e.lend p)) _ [] (View.sessions_set e.view id _)
      (.peek lane _ (supplies_supply e h lane))
    rwa [View.log_nil, View.set_set] at hm

lemma view_setScheduled (id : PeerId) (lane : Channel.Lane) (scheduled : Bool) :
    (e.setScheduled id lane scheduled).view = e.view :=
  view_modifyPeer_same e id _ fun _ => rfl

lemma scheduleLane_keeps {lane : Channel.Lane} (hsame : P e)
    (hpeek : P (e.peek id lane).2)
    (hadd : P ({ (e.peek id lane).2 with mScheduler := (e.peek id lane).2.mScheduler.add lane id
      }.setScheduled id lane true)) : P (scheduleLane id e lane) := by
  rw [scheduleLane]
  split
  · exact hsame
  split
  · next he => rwa [he] at hpeek
  · next he => rwa [he] at hadd

lemma reaches_scheduleLane (id : PeerId) (lane : Channel.Lane) : Reaches Γ e (scheduleLane id e lane) :=
  have hpeek := reaches_peek (Γ := Γ) e id lane
  scheduleLane_keeps e (.refl e) hpeek (hpeek.then_view (view_setScheduled _ id lane true))

lemma reaches_schedule (id : PeerId) : Reaches Γ e (e.schedule id) :=
  .foldl (fun e lane => reaches_scheduleLane e id lane) _ _

lemma view_committed (h : e.find id = some p) (lane : Channel.Lane) (packet : Packet) (address : SocketAddress)
    (now : TimePoint) : ∃ posts,
    (∀ u ∈ posts, e.view.socket = some u.origin ∧ u.bytes = packet.bytes) ∧
      (((e.peek id lane).2.transmit address packet).2.onLink id (·.commit lane now)).view =
        { e.view.set id ((p.view.withLink (e.lend p)).committed lane (e.supply id lane) now) with
          outbox := e.view.outbox ++ posts } := by
  obtain ⟨-, ⟨p', hp', hs⟩, hv, hb⟩ := peek_eq e h lane
  obtain ⟨world, posts, blocked, failed, ht, hu, -⟩ := transmit_eq (e.peek id lane).2 address packet
  have hsocket : (e.peek id lane).2.mIoSocket = e.mIoSocket := congrArg View.socket hv
  rw [hsocket] at hu
  refine ⟨posts, hu, ?_⟩
  have hbudget : p'.link.mBudget = some e.mAssemblyBudget := by
    have hl : p'.link = (e.offering id p lane).link := congrArg SessionView.link hs
    rw [hl]
    exact ReliableLink.mBudget_peek _ _ _
  have hlend : ((e.peek id lane).2.transmit address packet).2.lend p' = p'.link := by
    rw [ht, lend]
    dsimp only
    rw [hb, ← hbudget]
  have hfind : ((e.peek id lane).2.transmit address packet).2.find id = some p' := by
    rw [ht]
    exact hp'
  have hview : ((e.peek id lane).2.transmit address packet).2.view =
      { (e.peek id lane).2.view with outbox := (e.peek id lane).2.view.outbox ++ posts } := by
    rw [ht]
    rfl
  rw [view_onLink _ hfind, hlend, hview, hv, hs]
  have hlink : p'.link = (e.offering id p lane).link := congrArg SessionView.link hs
  rw [hlink]
  simp only [View.set, Function.update_idem]
  rfl

lemma reaches_sendOne (now : TimePoint) (lane : Channel.Lane) (id : PeerId) :
    Reaches Γ e (sendOne now e lane id).2 := by
  have hpeek := reaches_peek (Γ := Γ) e id lane
  rw [sendOne]
  split
  · exact .refl e
  next p h =>
  have hoffered := (peek_eq e h lane).1
  split
  · next he =>
    rw [he] at hpeek
    exact hpeek.then_view (view_setScheduled _ id lane false)
  next packet peeked he =>
  have hpeeked : peeked = (e.peek id lane).2 := by rw [he]
  rw [he] at hoffered hpeek
  obtain ⟨world, none, blocked, failed, ht, -, hr⟩ := transmit_eq peeked p.address packet
  split
  · next transmitted hrefused =>
    rw [hrefused] at ht hr
    obtain rfl := hr rfl
    refine hpeek.then_view ?_
    have ht : transmitted = _ := ht
    rw [ht]
    simp [view, find]
  · next outcome transmitted ho hsent =>
    obtain ⟨posts, hu, hv⟩ := view_committed e h lane packet p.address now
    rw [← hpeeked, hsent] at hv
    intro _
    dsimp only
    rw [view_modifyPeer_same, hv]
    · refine (run_lend (sessions_view e h) e.mAssemblyBudget).tail ?_
      have hm := Move.transmit (Γ := Γ) id (p.view.withLink (e.lend p)) lane (e.supply id lane) now packet posts
        (View.sessions_set e.view id _) (supplies_supply e h lane) hoffered.symm hu
      rwa [View.set_set] at hm
    · exact fun _ => rfl

lemma reaches_sendData (now : TimePoint) : Reaches Γ e (e.sendData now) := by
  have hrun := SendScheduler.run_keeps (sendOne now) (P := fun e' => Reaches Γ e e')
    (fun e' lane id h => h.trans (reaches_sendOne e' now lane id))
    (e.world.sends.length + e.mScheduler.waiting + 1) e.mScheduler e (.refl e)
  exact hrun.then_view rfl

end NetLink.NetworkEngine
