import NetLink.Channel.ReliableLink.Lanes
import NetLink.Engine.Unforgotten

/-! What waits to be taken from the links of the peers, until their turns begin. -/

namespace NetLink.NetworkEngine

open Net (SocketAddress)
open Channel (TimePoint ReliableLink Packet Mailbox DeliveredMessage)

structure Peer.Stands (p q : Peer) : Prop where
  link : q.link = p.link
  heard : ∀ packet ∈ p.heard, packet ∈ q.heard
  ended : q.ended = false → p.ended = false

lemma Notes.stands {f : Peer → Peer} (h : Notes f) (p : Peer) : p.Stands (f p) where
  link := congrArg SessionView.link (h.view p)
  heard := h.heard p
  ended he := (congrArg SessionView.ended (h.view p)).symm.trans he

def StandsAt (j : PeerId) (e e' : NetworkEngine) : Prop :=
  ∀ q, e'.find j = some q → ∃ p, e.find j = some p ∧ p.Stands q

variable {e e' e'' : NetworkEngine} {j id : PeerId} {p : Peer} {f : Peer → Peer}

namespace StandsAt

lemma of_find (h : e'.find j = e.find j) : StandsAt j e e' :=
  fun q hq => ⟨q, h ▸ hq, rfl, fun _ h => h, fun h => h⟩

lemma refl (e : NetworkEngine) : StandsAt j e e := of_find rfl

lemma of_none (h : e'.find j = none) : StandsAt j e e' := fun q hq => by simp [h] at hq

lemma trans (h : StandsAt j e e') (h' : StandsAt j e' e'') : StandsAt j e e'' := by
  intro r hr
  obtain ⟨q, hq, hqr⟩ := h' r hr
  obtain ⟨p, hp, hpq⟩ := h q hq
  exact ⟨p, hp, hqr.link.trans hpq.link, fun x hx => hqr.heard x (hpq.heard x hx), fun he =>
    hpq.ended (hqr.ended he)⟩

lemma modified (hm : e'.find j = (e.modifyPeer id f).find j) (hf : ∀ p : Peer, p.Stands (f p)) :
    StandsAt j e e' := by
  intro q hq
  rw [hm, find_modifyPeer] at hq
  split at hq
  · next hj =>
    subst hj
    obtain ⟨p, hp, rfl⟩ := Option.map_eq_some_iff.mp hq
    exact ⟨p, hp, hf p⟩
  · exact refl e q hq

lemma ite {c : Prop} [Decidable c] (h : StandsAt j e e') (h' : StandsAt j e e'') :
    StandsAt j e (if c then e' else e'') := by
  split
  · exact h
  · exact h'

variable (e)

lemma report (id : PeerId) (reason : DisconnectReason) : StandsAt j e (e.report id reason) := by
  rw [NetworkEngine.report]
  split
  · exact refl e
  · exact .ite (refl e) (modified rfl fun _ => ⟨rfl, fun _ h => h, fun h => h⟩)

lemma endPeer (id : PeerId) : StandsAt j e (e.endPeer id) := by
  rw [NetworkEngine.endPeer]
  split
  · exact refl e
  · exact .ite (refl e) (modified rfl fun _ => ⟨rfl, fun _ h => h, fun h => Bool.noConfusion h⟩)

lemma setConnected (id : PeerId) : StandsAt j e (e.setConnected id) := by
  rw [NetworkEngine.setConnected]
  split
  · exact refl e
  · exact modified rfl fun _ => ⟨rfl, fun _ h => h, fun h => h⟩

lemma sendAccept (id : PeerId) : StandsAt j e (e.sendAccept id) :=
  modified rfl fun _ => ⟨rfl, fun _ h => h, fun h => h⟩

lemma sendDecline (id : PeerId) (now : TimePoint) : StandsAt j e (e.sendDecline id now) := by
  have hqueued : StandsAt j e (e.modifyPeer id fun peer => { peer with
      control := peer.control ++ [controlMessage .decline ({ reason := .declined } : Session.Decline).encode] }) :=
    modified rfl fun _ => ⟨rfl, fun _ h => h, fun h => h⟩
  exact (hqueued.trans (report _ id .localEnd)).trans (modified rfl fun _ => ⟨rfl, fun _ h => h, fun h => h⟩)

lemma sendClose (id : PeerId) (now : TimePoint) : StandsAt j e (e.sendClose id now) := by
  have hclosed : StandsAt j e (e.withMailbox (·.close id)) := of_find rfl
  rw [NetworkEngine.sendClose]
  exact .ite (hclosed.trans (endPeer _ id))
    (hclosed.trans (modified rfl fun _ => ⟨rfl, fun _ h => h, fun h => h⟩))

lemma erase (id : PeerId) : StandsAt j e (e.erase id) := by
  by_cases hj : j = id
  · rw [hj]
    exact of_none (find_erase e)
  · exact of_find ((beside_erase e id).others j hj)

lemma settlePeer (id : PeerId) : StandsAt j e (e.settlePeer id) :=
  settlePeer_keeps e refl trans (fun _ => modified rfl fun _ => ⟨rfl, fun _ h => h, fun h => h⟩)
    (fun _ _ => modified rfl fun _ => ⟨rfl, fun _ h => h, fun h => h⟩)
    (fun _ => modified rfl notes_noteMedia.stands) fun _ _ => of_find rfl

lemma settlePeers (ids : List PeerId) : StandsAt j e (ids.foldl NetworkEngine.settlePeer e) := by
  induction ids generalizing e with
  | nil => exact refl e
  | cons id ids ih => exact (settlePeer e id).trans (ih _)

end StandsAt

variable {T : Terms} {k : Stage} {who : Option PeerId}

-- Outside of the first phase, only calls change a link.
lemma Act.stands (h : Act T k who e e') (hk : k ≠ .collect) (hc : ¬T.calls) : StandsAt j e e' := by
  cases h with
  | quiet h => exact .of_find (by rw [find, find, h.peers])
  | publish | discovered | rings | settle => exact .of_find rfl
  | report _ id reason => exact .report e id reason
  | note _ id f hf => exact .modified rfl hf.stands
  | sendDecline _ id p now => exact .sendDecline e id now
  | sendClose _ id p now => exact .sendClose e id now
  | erase _ id => exact .erase e id
  | endPeer _ id => exact .endPeer e id
  | setConnected _ id => exact .setConnected e id
  | schedule => exact .modified rfl fun _ => ⟨rfl, fun _ h => h, fun h => h⟩
  | call _ _ _ _ h | peek _ _ _ h | sendOne _ _ _ _ h => exact absurd h hc
  | _ => exact absurd rfl hk

lemma Acts.stands (h : Acts T k e e') (hk : k ≠ .collect) (hc : ¬T.calls) : StandsAt j e e' :=
  h.invariant (P := fun e' => StandsAt j e e') (fun _ _ _ h ha => h.trans (ha.stands hk hc)) (.refl e)

inductive Gathers (T : Terms) (j : PeerId) (e e' : NetworkEngine) : Prop
  | stands (h : StandsAt j e e') (hd : T.commands ∨ ∀ p q, e.find j = some p → e'.find j = some q →
      p.transfersData = true → q.transfersData = true) : Gathers T j e e'
  | fresh (p : Peer) (now : TimePoint) (hf : e'.find j = some p) (hn : p.Fresh e now) : Gathers T j e e'
  | attended (p : Peer) (f : ReliableLink → ReliableLink) (hf : e.find j = some p)
      (hf' : e'.find j = some { p with link := f (e.lend p) })
      (hl : (∃ paused, f = (·.setPaused paused)) ∨ ∃ now, f = (·.onTimer now)) : Gathers T j e e'
  | heard (p q : Peer) (lender : NetworkEngine) (packet : Packet) (now : TimePoint) (hp : T.packets)
      (hf : e.find j = some p) (hs : p.Stands q) (hi : packet ∈ q.heard)
      (hd : packet.header.flags.lane ≠ .control ∨ p.transfersData = true → q.transfersData = true)
      (hf' : e'.find j = some { q with link := (lender.lend q).onPacket packet now }) (ht : j ∈ e'.mTouched) :
      Gathers T j e e'

lemma Gathers.unmoved (h : e'.find j = e.find j) : Gathers T j e e' :=
  .stands (.of_find h) (.inr fun _ _ hp hq hd => Option.some.inj (hp.symm.trans (h.symm.trans hq)) ▸ hd)

lemma Gathers.gone (h : e'.find j = none) : Gathers T j e e' :=
  .stands (.of_none h) (.inr fun _ _ _ hq => by simp [h] at hq)

lemma Act.gathers (h : Act T .collect who e e') (j : PeerId) : Gathers T j e e' := by
  by_cases hj : who = some j
  swap
  · rcases h.elsewhere hj with he | hg
    · exact .unmoved he.find
    · exact .gone hg.find
  subst hj
  cases hf : e.find j with
  | none =>
    rcases h.of_none hf with ha | ⟨-, now, ho⟩
    · exact .gone ha.find
    · obtain ⟨p, hp, hfresh, -⟩ := ho.find
      exact .fresh p now hp hfresh
  | some p =>
    have hsame : ∀ {q : Peer}, e'.find j = some q → q.transfersData = p.transfersData → ∀ r s,
        e.find j = some r → e'.find j = some s → r.transfersData = true → s.transfersData = true := by
      intro q hq hd r s hr hs
      obtain rfl := Option.some.inj (hf.symm.trans hr)
      obtain rfl := Option.some.inj (hq.symm.trans hs)
      exact hd.trans
    cases h with
    | report _ _ reason => exact .stands (.report e j reason) (.inr (hsame (find_report e hf reason) rfl))
    | note _ _ f hv =>
      have hd : (f p).transfersData = p.transfersData := congrArg SessionView.transfersData (hv.view p)
      exact .stands (.modified rfl hv.stands) (.inr (hsame (find_modified e hf f) hd))
    | sendDecline _ _ q now _ _ hc => exact .stands (.sendDecline e j now) (.inl (hc rfl))
    | sendClose _ _ q now _ _ hc => exact .stands (.sendClose e j now) (.inl (hc rfl))
    | erase => exact .gone (find_erase e)
    | sendAccept _ _ _ _ _ hc => exact .stands (.sendAccept e j) (.inl hc)
    | drain _ _ q now _ _ hc => exact .stands (.modified rfl fun _ => ⟨rfl, fun _ h => h, fun h => h⟩) (.inl hc)
    | ready _ _ hc => exact .stands (.modified rfl fun _ => ⟨rfl, fun _ h => h, fun h => h⟩) (.inl hc)
    | openSession _ _ now h => simp [h] at hf
    | admitPeer _ origin hello crossing now h => simp [h] at hf
    | pause _ _ paused => exact .attended p (·.setPaused paused) hf (find_onLink e hf _) (.inl ⟨paused, rfl⟩)
    | timer _ _ now => exact .attended p (·.onTimer now) hf (find_onLink e hf _) (.inr ⟨now, rfl⟩)
    | packet _ _ q packet now hq he hi hd hp =>
      obtain rfl := Option.some.inj (hf.symm.trans hq)
      exact .heard p p e packet now hp hf ⟨rfl, fun _ h => h, fun h => h⟩ hi (fun h => h.elim hd id)
        (find_onLink e hf _) (List.mem_append_right _ (List.mem_singleton_self j))
    | overtaken _ _ q packet now hq he hs hi hp =>
      obtain rfl := Option.some.inj (hf.symm.trans hq)
      have hconnected := find_onLink _ (find_setConnected e hf) (·.onPacket packet now)
      refine .heard p _ (e.setConnected j) packet now hp hf ?_ ?_ ?_ hconnected ?_
      · exact ⟨rfl, fun _ h => h, fun h => h⟩
      · exact hi
      · exact fun _ => rfl
      · exact List.mem_append_right _ (List.mem_singleton_self j)

def TakenAt (e : NetworkEngine) (j : PeerId) : Prop :=
  ∀ p, e.find j = some p → p.ended = false → p.link.mDelivered = []

def WaitsAt (e : NetworkEngine) (j : PeerId) : Prop :=
  ∀ p, e.find j = some p → p.ended = false → ∀ m ∈ p.link.mDelivered, m.lane ≠ .control → p.transfersData = true

lemma Peer.Fresh.untaken {now : TimePoint} (h : p.Fresh e now) : p.link.mDelivered = [] := by
  obtain ⟨budget, hl⟩ := h.link
  rw [hl, newLink]
  cases e.mPaused <;> rfl

namespace TakenAt

lemma stands (h : e.TakenAt j) (hs : StandsAt j e e') : e'.TakenAt j := by
  intro q hq he
  obtain ⟨p, hp, hpq⟩ := hs q hq
  rw [hpq.link]
  exact h p hp (hpq.ended he)

lemma of_none (hf : e.find j = none) : e.TakenAt j := fun p hp => by simp [hf] at hp

lemma of_some (hf : e.find j = some p) (hp : p.ended = false → p.link.mDelivered = []) : e.TakenAt j := by
  intro q hq
  obtain rfl := Option.some.inj (hf.symm.trans hq)
  exact hp

lemma waits (h : e.TakenAt j) : e.WaitsAt j := by
  intro p hp he m hm
  rw [h p hp he] at hm
  exact absurd hm List.not_mem_nil

end TakenAt

lemma delivered_attended {f : ReliableLink → ReliableLink}
    (hf : (∃ paused, f = (·.setPaused paused)) ∨ ∃ now, f = (·.onTimer now)) (l : ReliableLink) :
    (f l).mDelivered = l.mDelivered := by
  rcases hf with ⟨paused, rfl⟩ | ⟨now, rfl⟩
  · exact congrArg ReliableLink.Aside.delivered (ReliableLink.aside_setPaused paused)
  · rcases ReliableLink.aside_onTimer (l := l) now with ha | hf
    · exact congrArg ReliableLink.Aside.delivered ha
    · exact (congrArg ReliableLink.mDelivered hf).trans rfl

lemma Act.taken (h : Act T .collect who e e') (hp : ¬T.packets) (ht : e.TakenAt j) : e'.TakenAt j := by
  cases h.gathers j with
  | stands hs => exact ht.stands hs
  | fresh p now hf hn => exact .of_some hf fun _ => hn.untaken
  | attended p f hf hf' hl => exact .of_some hf' fun he => (delivered_attended hl _).trans (ht p hf he)
  | heard p q lender packet now h => exact absurd h hp

def DueAt (e : NetworkEngine) (j : PeerId) : Prop := e.TakenAt j ∨ j ∈ e.mTouched ∧ e.WaitsAt j

lemma DueAt.waits (h : e.DueAt j) : e.WaitsAt j := h.elim TakenAt.waits And.right

lemma WaitsAt.written {q : Peer} (h : e.WaitsAt j) (hf : e.find j = some p) (hf' : e'.find j = some q)
    (he : q.ended = false → p.ended = false) (hd : p.transfersData = true → q.transfersData = true)
    (hm : ∀ m ∈ q.link.mDelivered, m ∈ p.link.mDelivered ∨ (m.lane ≠ .control → q.transfersData = true)) :
    e'.WaitsAt j := by
  intro r hr hn m hr' hl
  obtain rfl := Option.some.inj (hf'.symm.trans hr)
  rcases hm m hr' with hm | hm
  · exact hd (h p hf (he hn) m hm hl)
  · exact hm hl

lemma Act.due (h : Act T .collect who e e') (hc : ¬T.commands) (hd : e.DueAt j) : e'.DueAt j := by
  have htouched := h.touched j
  cases h.gathers j with
  | stands hs hk =>
    refine hd.imp (fun h => h.stands hs) fun h => ⟨htouched h.1, fun q hq => ?_⟩
    obtain ⟨p, hp, hpq⟩ := hs q hq
    exact h.2.written hp hq hpq.ended (hk.resolve_left hc p q hp hq) (fun m hm => .inl (hpq.link ▸ hm)) q hq
  | fresh p now hf hn => exact .inl (.of_some hf fun _ => hn.untaken)
  | attended p f hf hf' hl =>
    have hsame : (f (e.lend p)).mDelivered = p.link.mDelivered := delivered_attended hl _
    refine hd.imp (fun h => .of_some hf' fun he => hsame.trans (h p hf he)) fun h => ⟨htouched h.1, ?_⟩
    exact h.2.written hf hf' (fun h => h) (fun h => h) fun m hm => .inl (hsame ▸ hm)
  | heard p q lender packet now _ hf hs hi hdata hf' ht =>
    refine .inr ⟨ht, hd.waits.written hf hf' hs.ended (fun h => hdata (.inr h)) fun m hm => ?_⟩
    rcases ReliableLink.mem_onPacket hm with hm | hl
    · have hm : m ∈ q.link.mDelivered := hm
      exact .inl (hs.link ▸ hm)
    · exact .inr fun hc => hdata (.inl (hl ▸ hc))

lemma due_collect (h : e.TakenAt j) (hs : Sound e.view) (world : World) (now : TimePoint) :
    (e.collect world now).DueAt j := by
  have hbegin : (e.beginStep world).TakenAt j := h.stands (.of_find rfl)
  have hcommands := (acts_applyCommands (T := ⟨True, False, False⟩) (e.beginStep world) trivial now).invariant
    (P := (·.TakenAt j)) (fun _ _ _ h ha => ha.taken not_false h) hbegin
  exact (acts_afterCommands (T := ⟨False, True, False⟩) e trivial world now hs).invariant (P := (·.DueAt j))
    (fun _ _ _ h ha => ha.due not_false h) (.inl hcommands)

end NetLink.NetworkEngine
