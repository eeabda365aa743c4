import NetLink.Channel.LinkPair.Trail
import NetLink.Channel.ReliableLink.Retries
import NetLink.Engine.Taken

/-! The link of a peer in the hands of the engine: what the engine has taken from it, and what its Acks promise. -/

namespace NetLink.NetworkEngine

open Channel (TimePoint ReliableLink Packet DeliveredMessage StreamLanes Host)

def calls (p : Peer) : Lib.System Host := Host.system (fun _ _ => True) (· ∈ p.heard)

def Peer.Served (p : Peer) (taken : List DeliveredMessage) : Prop :=
  ∃ h : Host, (calls p).Reachable h ∧ h.link = p.link ∧ h.handed = taken

structure Peer.Passes (p q : Peer) : Prop where
  heard : ∀ packet ∈ p.heard, packet ∈ q.heard
  calls : ∀ h : Host, h.link = p.link → ∃ h', (calls q).Steps h h' ∧ h'.link = q.link ∧ h'.handed = h.handed

variable {T : Terms} {who : Option PeerId} {e e' e'' : NetworkEngine} {j id : PeerId} {p q r : Peer}
  {taken : List DeliveredMessage} {lane : Channel.Lane} {link : ReliableLink}

lemma Peer.Served.newborn (hl : Newborn p.link) : p.Served [] := by
  obtain ⟨timings, id, budget, now, paused, budget', -, hl⟩ := hl
  have hnew : (NetworkEngine.calls p).Reachable { link := .new timings id (some budget) } :=
    .of_init ⟨timings, id, some budget, rfl⟩
  exact ⟨_, ((hnew.step (.supervise _ now)).step (.setPaused _ paused)).step
    (.exchangeBudget _ budget'), hl.symm, rfl⟩

lemma local_steps {h h' : Host} (hr : (calls p).Steps h h') : h'.link.mLocalStreamID = h.link.mLocalStreamID := by
  induction hr with
  | refl => rfl
  | tail _ hs ih =>
    refine Eq.trans ?_ ih
    cases hs with
    | peek lane next => exact congrArg Prod.fst (ReliableLink.ends_of_aside (ReliableLink.aside_peek _ next))
    | commit lane now => exact congrArg Prod.fst (ReliableLink.ends_commit now)
    | peekAck => exact congrArg Prod.fst ReliableLink.streams_peekAck
    | onPacket packet now => exact ReliableLink.local_onPacket packet now
    | setPaused paused => exact congrArg ReliableLink.Aside.localID (ReliableLink.aside_setPaused paused)
    | onTimer now => exact congrArg Prod.fst (ReliableLink.streams_onTimer now)
    | commitAck | supervise | takeDelivered | exchangeBudget => rfl

namespace Peer.Passes

lemma of_stands (h : p.Stands q) : p.Passes q := ⟨h.heard, fun host hl => ⟨host, .refl, hl.trans h.link.symm, rfl⟩⟩

lemma refl (p : Peer) : p.Passes p := of_stands ⟨rfl, fun _ h => h, fun h => h⟩

lemma trans (h : p.Passes q) (h' : q.Passes r) : p.Passes r := by
  refine ⟨fun x hx => h'.heard x (h.heard x hx), fun host hl => ?_⟩
  obtain ⟨host', hs, hl', hh⟩ := h.calls host hl
  obtain ⟨host'', hs', hl'', hh'⟩ := h'.calls host' hl'
  exact ⟨host'', Relation.ReflTransGen.trans (Host.steps_mono h'.heard hs) hs', hl'', hh'.trans hh⟩

lemma served (h : p.Passes q) (hp : p.Served taken) : q.Served taken := by
  obtain ⟨host, ⟨start, hi, hr⟩, hl, hh⟩ := hp
  obtain ⟨host', hs, hl', hh'⟩ := h.calls host hl
  exact ⟨host', ⟨start, hi, Relation.ReflTransGen.trans (Host.steps_mono h.heard hr) hs⟩, hl', hh'.trans hh⟩

lemma streamID (h : p.Passes q) : q.link.mLocalStreamID = p.link.mLocalStreamID := by
  obtain ⟨host, hs, hl, -⟩ := h.calls { link := p.link } rfl
  exact hl ▸ local_steps hs

lemma call {f : ReliableLink → ReliableLink} (e : NetworkEngine) (hf : ∀ h : Host, ∃ h',
      (NetworkEngine.calls p).step h h' ∧ h'.link = f h.link ∧ h'.handed = h.handed)
    (hl : q.link = f (e.lend p)) (hq : q.heard = p.heard) : p.Passes q := by
  refine ⟨fun _ h => hq ▸ h, fun host hlink => ?_⟩
  obtain ⟨host', hs, hl', hh⟩ := hf (host.exchangeBudget e.mAssemblyBudget)
  refine ⟨host', ?_, ?_, hh⟩
  · rw [NetworkEngine.calls, hq]
    exact (Relation.ReflTransGen.single (.exchangeBudget host e.mAssemblyBudget)).tail hs
  · rw [hl', hl, lend, ← hlink]
    rfl

lemma peeked (e : NetworkEngine) (id : PeerId) (lane : Channel.Lane) :
    p.Passes (p.peeked (e.offering id p lane)) :=
  call (f := fun l => (l.peek Host.single lane (e.supply id lane)).2.1) e
    (fun h => ⟨_, .peek h lane _ fun _ _ => trivial, rfl, rfl⟩) rfl rfl

lemma committed (now : TimePoint) (hf : e.find id = some p) (ho : (e.peek id lane).1 ≠ none) :
    p.Passes ((p.peeked (e.offering id p lane)).committed lane now) := by
  refine ⟨fun _ h => h, fun host hl => ?_⟩
  have hlent : (host.exchangeBudget e.mAssemblyBudget).link = e.lend p := by
    rw [lend, ← hl]
    rfl
  have hoffered : ((host.exchangeBudget e.mAssemblyBudget).peek lane (e.supply id lane)).offered = some lane := by
    rw [(peek_eq e hf lane).1, ← hlent] at ho
    obtain ⟨packet, hp⟩ := Option.ne_none_iff_exists'.mp ho
    exact congrArg (Option.map fun _ => lane) hp
  have hpeeked : (NetworkEngine.calls p).Steps host
      ((host.exchangeBudget e.mAssemblyBudget).peek lane (e.supply id lane)) :=
    (Relation.ReflTransGen.single (.exchangeBudget host _)).tail (.peek _ lane _ fun _ _ => trivial)
  refine ⟨_, hpeeked.tail (.commit _ lane now hoffered), ?_, rfl⟩
  rw [Host.commit, Host.peek, hlent]
  rfl

end Peer.Passes

def Continues (j : PeerId) (e e' : NetworkEngine) : Prop :=
  ∀ q, e'.find j = some q → q.Served [] ∨ ∃ p, e.find j = some p ∧ p.Passes q

namespace Continues

lemma of_stands (h : StandsAt j e e') : Continues j e e' := fun q hq =>
  .inr ((h q hq).imp fun _ hp => ⟨hp.1, .of_stands hp.2⟩)

lemma of_find (h : e'.find j = e.find j) : Continues j e e' := of_stands (.of_find h)

lemma of_none (h : e'.find j = none) : Continues j e e' := of_stands (.of_none h)

lemma of_passes (hf : e.find j = some p) (hf' : e'.find j = some q) (h : p.Passes q) : Continues j e e' := by
  intro r hr
  obtain rfl := Option.some.inj (hf'.symm.trans hr)
  exact .inr ⟨p, hf, h⟩

lemma trans (h : Continues j e e') (h' : Continues j e' e'') : Continues j e e'' := by
  intro r hr
  rcases h' r hr with hnew | ⟨q, hq, hqr⟩
  · exact .inl hnew
  rcases h q hq with hnew | ⟨p, hp, hpq⟩
  · exact .inl (hqr.served hnew)
  · exact .inr ⟨p, hp, hpq.trans hqr⟩

lemma foldl {α : Type} {g : NetworkEngine → α → NetworkEngine} (hg : ∀ e x, Continues j e (g e x)) (xs : List α)
    (e : NetworkEngine) : Continues j e (xs.foldl g e) := by
  induction xs generalizing e with
  | nil => exact of_find rfl
  | cons x xs ih => exact (hg e x).trans (ih _)

lemma peek (e : NetworkEngine) (id : PeerId) (lane : Channel.Lane) : Continues id e (e.peek id lane).2 := by
  cases hf : e.find id with
  | none => exact of_none (by rw [peek_of_none e hf]; exact hf)
  | some p => exact of_passes hf (find_peek e hf lane) (.peeked e id lane)

lemma scheduleLane (e : NetworkEngine) (id : PeerId) (lane : Channel.Lane) :
    Continues id e (scheduleLane id e lane) :=
  scheduleLane_keeps e (of_find rfl) (peek e id lane)
    ((peek e id lane).trans (of_stands (.modified rfl fun _ => ⟨rfl, fun _ h => h, fun h => h⟩)))

lemma sendOne (e : NetworkEngine) (now : TimePoint) (lane : Channel.Lane) (id : PeerId) :
    Continues j e (sendOne now e lane id).2 := by
  by_cases hj : j = id
  swap
  · exact of_find ((beside_sendOne e now lane).others j hj)
  subst hj
  cases hf : e.find j with
  | none =>
    rw [sendOne_of_none e hf]
    exact of_find rfl
  | some p =>
    have hoffered : (NetworkEngine.sendOne now e lane j).1 ≠ .empty → (e.peek j lane).1 ≠ none := by
      intro hr hn
      simp only [NetworkEngine.sendOne, hf] at hr
      split at hr
      · exact hr rfl
      · next packet peeked he => simp [he] at hn
    have hlater : p.Passes { p.peeked (e.offering j p lane) with
        scheduled := Function.update p.scheduled lane false } :=
      (Peer.Passes.peeked e j lane).trans (.of_stands ⟨rfl, fun _ h => h, fun h => h⟩)
    refine of_passes hf (find_sendOne e hf now lane) ?_
    cases hr : (NetworkEngine.sendOne now e lane j).1 with
    | empty => exact hlater
    | blocked => exact .peeked e j lane
    | sent => exact .committed now hf (hoffered (by simp [hr]))
    | lost => exact .committed now hf (hoffered (by simp [hr]))

lemma sendData (e : NetworkEngine) (now : TimePoint) : Continues j e (e.sendData now) := by
  have hrun := Channel.SendScheduler.run_keeps (NetworkEngine.sendOne now) (P := fun e' => Continues j e e')
    (fun e' lane id h => h.trans (sendOne e' now lane id)) (e.world.sends.length + e.mScheduler.waiting + 1)
    e.mScheduler e (of_find rfl)
  exact hrun.trans (of_find rfl)

end Continues

lemma Peer.Fresh.served {now : TimePoint} (h : p.Fresh e now) : p.Served [] := by
  obtain ⟨budget, hl⟩ := h.link
  exact .newborn (hl ▸ newborn_newLink e now budget)

lemma Act.continues (h : Act T .collect who e e') : Continues j e e' := by
  cases h.gathers j with
  | stands hs => exact .of_stands hs
  | fresh p now hf hn =>
    intro q hq
    obtain rfl := Option.some.inj (hf.symm.trans hq)
    exact .inl hn.served
  | attended p f hf hf' hl =>
    rcases hl with ⟨paused, rfl⟩ | ⟨now, rfl⟩
    · exact .of_passes hf hf'
        (.call (f := (·.setPaused paused)) e (fun h => ⟨_, .setPaused h paused, rfl, rfl⟩) rfl rfl)
    · exact .of_passes hf hf' (.call (f := (·.onTimer now)) e (fun h => ⟨_, .onTimer h now, rfl, rfl⟩) rfl rfl)
  | heard p q lender packet now _ hf hs hi _ hf' =>
    have hcall : q.Passes { q with link := (lender.lend q).onPacket packet now } :=
      .call (f := (·.onPacket packet now)) lender (fun h => ⟨_, .onPacket h packet now hi, rfl, rfl⟩) rfl rfl
    exact .of_passes hf hf' ((Peer.Passes.of_stands hs).trans hcall)

lemma continues_collect (hs : Sound e.view) (world : World) (now : TimePoint) :
    Continues j e (e.collect world now) := by
  exact (acts_collect e world now hs).invariant (P := fun e' => Continues j e e')
    (fun _ _ _ h ha => h.trans ha.continues) (.of_find rfl)

lemma budget_putLink (id : PeerId) {budget : Channel.AssemblyBudget}
    (hb : link.mBudget = some budget) :
    (e.putLink id link).mAssemblyBudget = budget := by
  rw [putLink, hb]
  rfl

lemma lend_of_budget (hb : link.mBudget = some e.mAssemblyBudget) :
    e.lend { p with link := link } = link := by
  rw [lend, ← hb]

lemma committed_ack (hf : e.find id = some { p with link := link })
    (hb : link.mBudget = some e.mAssemblyBudget) :
    (e.onLink id (·.commitAck)).find id = some { p with link := link.commitAck } ∧
      (e.onLink id (·.commitAck)).lend { p with link := link.commitAck } = link.commitAck ∧
      (e.onLink id (·.commitAck)).outbox = e.outbox := by
  refine ⟨by rw [find_onLink e hf, lend_of_budget hb], ?_, ?_⟩
  · simp only [onLink, hf, lend_of_budget hb]
    exact lend_of_budget (hb.trans (congrArg some (budget_putLink id hb).symm))
  · simp only [onLink, hf]
    rfl

def Peer.Acknowledges (p : Peer) (bytes : List UInt8) : Prop :=
  ∃ (q : Peer) (ack : Packet), p.Passes q ∧ q.heard = p.heard ∧ q.link.mDelivered = p.link.mDelivered ∧
    q.link.mFailed = p.link.mFailed ∧ p.link.mFailed = false ∧ ack ∈ q.link.mPendingAcks ∧ bytes = ack.bytes

lemma sent_sendAcksLoop (n : ℕ) (hf : e.find id = some p)
    (hr : ∀ lane ∈ StreamLanes, (e.lend p).retries lane = false) :
    ∃ link posts, (sendAcksLoop id n e).find id = some { p with link := link } ∧ p.Passes { p with link := link } ∧
      link.mDelivered = p.link.mDelivered ∧ (sendAcksLoop id n e).outbox = e.outbox ++ posts ∧
        ∀ post ∈ posts, p.Acknowledges post.bytes := by
  induction n generalizing e p with
  | zero => exact ⟨p.link, [], hf, .refl p, rfl, (List.append_nil _).symm, fun _ h => absurd h List.not_mem_nil⟩
  | succ n ih =>
    have hidles := ReliableLink.idles_peekAck hr
    have hput : ∀ link, (e.putLink id link).find id = some { p with link := link } := fun link => by
      rw [find_putLink, hf, Option.map_some]
    have hpeeked : p.Passes { p with link := (e.lend p).peekAck.2 } :=
      .call (f := (·.peekAck.2)) e (fun h => ⟨_, .peekAck h, rfl, rfl⟩) rfl rfl
    rw [sendAcksLoop, hf]
    dsimp only
    split
    · next link hack =>
      rw [hack] at hidles hpeeked
      exact ⟨link, [], hput link, hpeeked, hidles.delivered, (List.append_nil _).symm,
        fun _ h => absurd h List.not_mem_nil⟩
    next ack link hack =>
    rw [hack] at hidles hpeeked
    have hdelivered : link.mDelivered = p.link.mDelivered := hidles.delivered
    have hfailed : link.mFailed = p.link.mFailed := hidles.failed
    obtain ⟨halive, hready⟩ := ReliableLink.pending_peekAck hack
    split
    · exact ⟨link, [], hput link, hpeeked, hdelivered, (List.append_nil _).symm,
        fun _ h => absurd h List.not_mem_nil⟩
    obtain ⟨world, posts, blocked, failed, ht, hposts, -⟩ := transmit_eq (e.putLink id link) p.address ack
    have hposted : ∀ post ∈ posts, p.Acknowledges post.bytes := fun post hpost =>
      ⟨_, ack, hpeeked, rfl, hdelivered, hfailed, hfailed ▸ halive, hready, (hposts post hpost).2⟩
    split
    · next sent hs =>
      rw [hs] at ht
      obtain rfl : sent = _ := ht
      exact ⟨link, posts, hput link, hpeeked, hdelivered, rfl, hposted⟩
    · next sent _ hs =>
      rw [hs] at ht
      have hb : link.mBudget = some e.mAssemblyBudget := hidles.budget
      have hsent : sent.find id = some { p with link := link } ∧ sent.mAssemblyBudget = e.mAssemblyBudget ∧
          sent.outbox = e.outbox ++ posts := by
        obtain rfl : sent = _ := ht
        exact ⟨hput link, budget_putLink id hb, rfl⟩
      obtain ⟨hfind, hbudget, hposts⟩ := hsent
      obtain ⟨hcommitted, hlend, hout⟩ := committed_ack hfind (hb.trans (congrArg some hbudget.symm))
      have hpasses : p.Passes { p with link := link.commitAck } :=
        hpeeked.trans (.call (f := (·.commitAck)) sent (fun h => ⟨_, .commitAck h, rfl, rfl⟩)
          (by rw [lend_of_budget (hb.trans (congrArg some hbudget.symm))]) rfl)
      obtain ⟨last, more, hlast, hrest, hkept, hlater, hacks⟩ := ih (p := { p with link := link.commitAck })
        (e := { sent.onLink id (·.commitAck) with mScheduler := (sent.onLink id (·.commitAck)).mScheduler.spend })
        hcommitted fun lane hl => (congrArg (·.retries lane) hlend).trans (hidles.idle (hr lane hl))
      refine ⟨last, posts ++ more, hlast, hpasses.trans hrest, hkept.trans hdelivered, ?_, fun post hpost => ?_⟩
      · rw [hlater, ← List.append_assoc, ← hposts, ← hout]
      · rcases List.mem_append.mp hpost with hpost | hpost
        · exact hposted post hpost
        · obtain ⟨q, ack, hq, hh, hd, hfq, -, ha⟩ := hacks post hpost
          exact ⟨q, ack, hpasses.trans hq, hh, hd.trans hdelivered, hfq.trans hfailed, hfailed ▸ halive, ha⟩

end NetLink.NetworkEngine
