import NetLink.Channel.MailboxEntries
import NetLink.Channel.MailboxUses
import NetLink.Engine.Acts

/-! What an act leaves alone: the other peers. -/

namespace NetLink.NetworkEngine

open Net (SocketAddress)
open Channel (TimePoint ReliableLink Packet Mailbox)
open Channel.Mailbox (Entry)

structure Elsewhere (j : PeerId) (e e' : NetworkEngine) : Prop where
  find : e'.find j = e.find j
  mail : (e.mMailbox.entry j).Mails (e'.mMailbox.entry j)
  ended : (e.find j).isSome → j ∈ e.mEnded → j ∈ e'.mEnded

structure Gone (j : PeerId) (e : NetworkEngine) : Prop where
  find : e.find j = none
  entry : e.mMailbox.entry j = ⟨none, none⟩

lemma Entry.mails_none {s : Option Mailbox.Session} {x : Entry} (h : Entry.Mails ⟨none, s⟩ x) : x = ⟨none, s⟩ := by
  induction h with
  | refl => rfl
  | tail _ ho ih =>
    subst ih
    cases ho

variable {j : PeerId} (e : NetworkEngine) {e' e'' : NetworkEngine} {id : PeerId}

namespace Elsewhere

lemma refl : Elsewhere j e e := ⟨rfl, .refl, fun _ h => h⟩

variable {e}

lemma trans (h : Elsewhere j e e') (h' : Elsewhere j e' e'') : Elsewhere j e e'' where
  find := h'.find.trans h.find
  mail := h.mail.trans h'.mail
  ended hs he := h'.ended (by rwa [h.find]) (h.ended hs he)

lemma ite {c : Prop} [Decidable c] (h : Elsewhere j e e') (h' : Elsewhere j e e'') :
    Elsewhere j e (if c then e' else e'') := by
  split
  · exact h
  · exact h'

lemma foldl {α : Type} {f : NetworkEngine → α → NetworkEngine} (xs : List α)
    (hf : ∀ e, ∀ x ∈ xs, Elsewhere j e (f e x)) (e : NetworkEngine) : Elsewhere j e (xs.foldl f e) := by
  induction xs generalizing e with
  | nil => exact refl e
  | cons x xs ih =>
    exact (hf e x (by simp)).trans (ih (fun e y hy => hf e y (List.mem_cons_of_mem x hy)) (f e x))

lemma of_quiet (h : Quiet e e') : Elsewhere j e e' where
  find := by rw [NetworkEngine.find, NetworkEngine.find, h.peers]
  mail := by
    rw [h.mailbox]
    exact .refl
  ended _ he := by rwa [h.ended]

lemma of_fields (hp : e'.mPeers = e.mPeers) (hm : e'.mMailbox = e.mMailbox) (he : e'.mEnded = e.mEnded) :
    Elsewhere j e e' where
  find := by rw [NetworkEngine.find, NetworkEngine.find, hp]
  mail := by
    rw [hm]
    exact .refl
  ended _ h := by rwa [he]

lemma gone (h : Elsewhere j e e') (hg : e.Gone j) : e'.Gone j where
  find := h.find.trans hg.find
  entry := by
    have hm := h.mail
    rw [hg.entry] at hm
    exact Entry.mails_none hm

end Elsewhere

lemma mails_lock : (e.mMailbox.entry j).Mails (e.lock.mMailbox.entry j) := Mailbox.mails_calls _ j _

lemma elsewhere_withMailbox {f : Mailbox → Mailbox} (hf : ∀ m : Mailbox, (m.entry j).Mails ((f m).entry j)) :
    Elsewhere j e (e.withMailbox f) where
  find := rfl
  mail := (mails_lock e).trans (hf _)
  ended _ h := h

lemma elsewhere_modifyPeer (hj : id ≠ j) (f : Peer → Peer) : Elsewhere j e (e.modifyPeer id f) where
  find := by rw [find_modifyPeer, if_neg hj]
  mail := .refl
  ended _ h := h

structure Beside (id : PeerId) (e e' : NetworkEngine) : Prop where
  elsewhere : ∀ j ≠ id, Elsewhere j e e'
  uses : Mailbox.Uses e.mMailbox e'.mMailbox
  held : ∀ j ∈ e.mAcksHeldBack, j ∈ e'.mAcksHeldBack
  touched : ∀ j ∈ e.mTouched, j ∈ e'.mTouched

structure Turn (id : PeerId) (e e' : NetworkEngine) : Prop extends Beside id e e' where
  rings : e'.mScheduler.mRings = e.mScheduler.mRings
  scheduled : (e'.find id).map (·.scheduled) = (e.find id).map (·.scheduled)

variable {p : Peer}

namespace Beside

lemma refl : Beside id e e := ⟨fun _ _ => .refl e, .refl _, fun _ h => h, fun _ h => h⟩

variable {e}

lemma trans (h : Beside id e e') (h' : Beside id e' e'') : Beside id e e'' where
  elsewhere j hj := (h.elsewhere j hj).trans (h'.elsewhere j hj)
  uses := h.uses.trans h'.uses
  held j hj := h'.held j (h.held j hj)
  touched j hj := h'.touched j (h.touched j hj)

lemma others (h : Beside id e e') (j : PeerId) (hj : j ≠ id) : e'.find j = e.find j := (h.elsewhere j hj).find

lemma foldl {α : Type} {f : NetworkEngine → α → NetworkEngine} (hf : ∀ e x, Beside id e (f e x)) (xs : List α)
    (e : NetworkEngine) : Beside id e (xs.foldl f e) := by
  induction xs generalizing e with
  | nil => exact refl e
  | cons x xs ih => exact (hf e x).trans (ih (f e x))

lemma others_foldl {f : NetworkEngine → PeerId → NetworkEngine} (hf : ∀ e id, Beside id e (f e id))
    (ids : List PeerId) (e : NetworkEngine) {j : PeerId} (hj : j ∉ ids) : (ids.foldl f e).find j = e.find j := by
  induction ids generalizing e with
  | nil => rfl
  | cons id ids ih =>
    have hid : j ≠ id := fun h => hj (h ▸ List.mem_cons_self)
    exact (ih (f e id) fun h => hj (List.mem_cons_of_mem id h)).trans ((hf e id).others j hid)

lemma touched_foldl {f : NetworkEngine → PeerId → NetworkEngine} (hf : ∀ e id, Beside id e (f e id))
    (ids : List PeerId) (e : NetworkEngine) {j : PeerId} (hj : j ∈ e.mTouched) : j ∈ (ids.foldl f e).mTouched := by
  induction ids generalizing e with
  | nil => exact hj
  | cons id ids ih => exact ih (f e id) ((hf e id).touched j hj)

end Beside

namespace Turn

lemma refl : Turn id e e := ⟨.refl e, rfl, rfl⟩

variable {e}

lemma trans (h : Turn id e e') (h' : Turn id e' e'') : Turn id e e'' :=
  ⟨h.toBeside.trans h'.toBeside, h'.rings.trans h.rings, h'.scheduled.trans h.scheduled⟩

lemma ite {c : Prop} [Decidable c] (h : Turn id e e') (h' : Turn id e e'') :
    Turn id e (if c then e' else e'') := by
  split
  · exact h
  · exact h'

lemma foldl {α : Type} {f : NetworkEngine → α → NetworkEngine} (hf : ∀ e x, Turn id e (f e x)) (xs : List α)
    (e : NetworkEngine) : Turn id e (xs.foldl f e) := by
  induction xs generalizing e with
  | nil => exact refl e
  | cons x xs ih => exact (hf e x).trans (ih (f e x))

lemma of_quiet (h : Quiet e e') : Turn id e e' := by
  have hfind : ∀ j, e'.find j = e.find j := fun j => by rw [find, find, h.peers]
  refine ⟨⟨fun j _ => .of_quiet h, ?_, h.held, h.touched⟩, h.rings, congrArg _ (hfind id)⟩
  rw [h.mailbox]
  exact .refl _

end Turn

lemma turn_modifyPeer {f : Peer → Peer} (hf : ∀ p, (f p).scheduled = p.scheduled) :
    Turn id e (e.modifyPeer id f) where
  elsewhere j hj := elsewhere_modifyPeer e hj.symm f
  uses := .refl _
  rings := rfl
  scheduled := by
    rw [find_modifyPeer_self, Option.map_map]
    exact congrArg (fun g => (e.find id).map g) (funext hf)
  held _ h := h
  touched _ h := h

lemma uses_lock : Mailbox.Uses e.mMailbox e.lock.mMailbox := Mailbox.Uses.calls _ _

lemma turn_withMailbox {f : Mailbox → Mailbox} (hf : ∀ m, Mailbox.Uses m (f m))
    (hm : ∀ (m : Mailbox), ∀ j ≠ id, (m.entry j).Mails ((f m).entry j)) : Turn id e (e.withMailbox f) where
  elsewhere j hj := elsewhere_withMailbox e (hm · j hj)
  uses := (uses_lock e).trans (hf _)
  rings := rfl
  scheduled := rfl
  held _ h := h
  touched _ h := h

lemma turn_settle : Turn id e (e.settle id).2 where
  elsewhere j hj := by
    refine ⟨rfl, (mails_lock e).trans ?_, fun _ h => h⟩
    have hs : (e.settle id).2.mMailbox.entry j = e.lock.mMailbox.entry j := Mailbox.entry_settle _ hj.symm
    rw [hs]
  uses := (uses_lock e).trans (.settle _ id)
  rings := rfl
  scheduled := rfl
  held _ h := h
  touched _ h := h

lemma turn_report (reason : DisconnectReason) : Turn id e (e.report id reason) := by
  rw [report]
  split
  · exact .refl e
  · exact .ite (.refl e) ((turn_modifyPeer e (by exact fun _ => rfl)).trans (.of_quiet (quiet_emit _ rfl)))

lemma turn_close : Turn id e (e.withMailbox (·.close id)) := by
  refine turn_withMailbox e (fun m => .close m id) fun m j hj => ?_
  rw [Mailbox.entry_close m hj.symm]
  exact .refl

lemma turn_publishSession (session : Mailbox.Session) :
    Turn id e (e.withMailbox (·.publishSession id session)) := by
  refine turn_withMailbox e (fun m => .of_same rfl rfl rfl) fun m j hj => ?_
  rw [Mailbox.entry_publishSession m hj.symm]
  exact .refl

lemma turn_sendAccept : Turn id e (e.sendAccept id) := by
  rw [sendAccept]
  exact (((turn_modifyPeer e (by exact fun _ => rfl)).trans (turn_publishSession _ _)).trans
    (.of_quiet (quiet_touch _ id))).trans (.of_quiet (quiet_record _ rfl))

lemma turn_endPeer : Turn id e (e.endPeer id) := by
  have hlisted : ∀ e : NetworkEngine, Turn id e { e with mEnded := e.mEnded ++ [id] } :=
    fun e => ⟨⟨fun _ _ => ⟨rfl, .refl, fun _ h => List.mem_append_left _ h⟩, .refl _, fun _ h => h, fun _ h => h⟩,
      rfl, rfl⟩
  rw [endPeer]
  split
  · exact .refl e
  · exact .ite (.refl e) (((turn_modifyPeer e (by exact fun _ => rfl)).trans (turn_close _)).trans (hlisted _))

lemma turn_finish (reason : DisconnectReason) : Turn id e ((e.report id reason).endPeer id) :=
  (turn_report e reason).trans (turn_endPeer _)

lemma turn_setConnected : Turn id e (e.setConnected id) := by
  rw [setConnected]
  split
  · exact .refl e
  refine ((turn_modifyPeer e (by exact fun _ => rfl)).trans
    (turn_withMailbox _ (fun m => .openPeer m id) ?_)).trans
    (.of_quiet (quiet_emit _ rfl))
  intro m j hj
  rw [Mailbox.entry_openPeer m hj.symm]
  exact .refl

lemma turn_sendDecline (now : TimePoint) : Turn id e (e.sendDecline id now) := by
  rw [sendDecline]
  exact ((((turn_modifyPeer e (by exact fun _ => rfl)).trans (turn_report _ .localEnd)).trans
    (turn_modifyPeer _ (by exact fun _ => rfl))).trans (turn_close _)).trans (.of_quiet (quiet_touch _ id))

lemma turn_sendClose (now : TimePoint) : Turn id e (e.sendClose id now) := by
  have hclosed : Turn id e (e.withMailbox (·.close id)) := turn_close e
  rw [sendClose]
  exact .ite (hclosed.trans (turn_endPeer _))
    ((hclosed.trans (turn_modifyPeer _ (by exact fun _ => rfl))).trans (.of_quiet (quiet_touch _ id)))

lemma turn_putLink (link : ReliableLink) : Turn id e (e.putLink id link) := by
  have hput : Turn id e (e.modifyPeer id fun peer => { peer with link := link }) :=
    turn_modifyPeer e (by exact fun _ => rfl)
  exact ⟨⟨fun j hj => (hput.elsewhere j hj).trans (.of_fields rfl rfl rfl), hput.uses, hput.held, hput.touched⟩,
    hput.rings, hput.scheduled⟩

lemma turn_onLink (f : ReliableLink → ReliableLink) : Turn id e (e.onLink id f) := by
  rw [onLink]
  split
  · exact .refl e
  · exact turn_putLink e _

lemma turn_transmit (address : SocketAddress) (packet : Packet) : Turn id e (e.transmit address packet).2 :=
  .of_quiet (quiet_transmit e address packet)

lemma turn_nextMessage (lane : Channel.Lane) : Turn id e (nextMessage id e lane).2 := by
  rw [nextMessage]
  split
  · exact .refl e
  split
  · exact turn_modifyPeer e (by exact fun _ => rfl)
  split
  · exact .refl e
  · refine ⟨⟨fun j hj => ⟨rfl, (mails_lock e).trans ?_, fun _ h => h⟩, (uses_lock e).trans (.take _ id lane),
      fun _ h => h, fun _ h => h⟩, rfl, rfl⟩
    have ht := Mailbox.entry_take e.lock.mMailbox hj.symm lane
    dsimp only
    rw [ht]

lemma turn_peek (lane : Channel.Lane) : Turn id e (e.peek id lane).2 := by
  apply peek_keeps
  · exact .refl e
  · exact turn_nextMessage e lane
  · exact fun e' link h => h.trans (turn_putLink e' link)

lemma beside_setScheduled (lane : Channel.Lane) (scheduled : Bool) :
    Beside id e (e.setScheduled id lane scheduled) :=
  ⟨fun _ hj => elsewhere_modifyPeer e hj.symm _, .refl _, fun _ h => h, fun _ h => h⟩

lemma beside_sendOne (now : TimePoint) (lane : Channel.Lane) : Beside id e (sendOne now e lane id).2 := by
  have hpeek : Beside id e (e.peek id lane).2 := (turn_peek e lane).toBeside
  rw [sendOne]
  split
  · exact .refl e
  next p hf =>
  split
  · next he =>
    rw [he] at hpeek
    exact hpeek.trans (beside_setScheduled _ lane false)
  next packet peeked he =>
  rw [he] at hpeek
  have hsent := hpeek.trans (turn_transmit peeked p.address packet).toBeside
  split
  · next ht =>
    rw [ht] at hsent
    exact hsent
  · next ht =>
    rw [ht] at hsent
    exact hsent.trans ((turn_onLink _ _).trans (turn_modifyPeer _ (by exact fun _ => rfl))).toBeside

section

variable (hj : id ≠ j)
include hj

lemma elsewhere_erase : Elsewhere j e (e.erase id) := by
  rw [erase]
  split
  · exact .refl e
  next p h =>
  have hstruck : Elsewhere j e { e with
      mByStream := e.mByStream.erase p.link.mLocalStreamID
      mScheduler := e.mScheduler.remove id } := .of_fields rfl rfl rfl
  refine (hstruck.trans ((turn_close _).elsewhere j hj.symm)).trans ⟨?_, .refl, fun _ h => h⟩
  simp [find, Std.TreeMap.getElem?_erase, hj]

lemma elsewhere_addPeer {info : PeerInfo} (hid : info.id = id) (address : SocketAddress) (byHello : Bool)
    (now : TimePoint) : Elsewhere j e (e.addPeer info address byHello now) where
  find := by simp [find, addPeer, touch, record, Std.TreeMap.getElem?_insert, hid, hj]
  mail := .refl
  ended _ h := h

lemma elsewhere_openSession (now : TimePoint) : Elsewhere j e (e.openSession id now) := by
  rw [openSession]
  split
  · exact .of_fields rfl rfl rfl
  next known hk =>
  have hid := id_of_known e hk
  refine .ite (.of_fields rfl rfl rfl) (.trans ?_ ((turn_publishSession _ _).elsewhere j hj.symm))
  exact (elsewhere_addPeer e hj hid _ _ now).trans (elsewhere_modifyPeer _ (by rwa [hid]) _)

end

lemma beside_erase (id : PeerId) : Beside id e (e.erase id) := by
  refine ⟨fun _ hj => elsewhere_erase e hj.symm, ?_, ?_, ?_⟩ <;> rw [erase] <;> split
  · exact .refl _
  · exact .trans (uses_lock _) (.close _ id)
  all_goals exact fun _ h => h

lemma elsewhere_admitPeer {origin : SocketAddress} {hello : Session.Hello} (hj : hello.fromInstance ≠ j)
    (crossing : Bool) (now : TimePoint) : Elsewhere j e (e.admitPeer origin hello crossing now) := by
  have hadded : Elsewhere j e (e.addPeer (helloInfo origin hello) origin true now) :=
    elsewhere_addPeer e hj rfl origin true now
  rw [admitPeer]
  refine .ite ?_ ?_
  · exact ((hadded.trans (elsewhere_modifyPeer _ hj _)).trans
      (((turn_publishSession _ _).trans (turn_sendAccept _)).elsewhere j hj.symm))
  · exact ((hadded.trans (elsewhere_modifyPeer _ hj _)).trans
      ((turn_publishSession _ _).elsewhere j hj.symm)).trans
      (.of_quiet (quiet_emit _ rfl))

lemma elsewhere_publish {f : Mailbox → Mailbox} (hf : Publishes f) : Elsewhere j e (e.withMailbox f) := by
  cases hf with
  | stats id stats => exact elsewhere_withMailbox e fun m => Mailbox.mails_publishStats m j id stats
  | running running => exact elsewhere_withMailbox e fun m => .refl

lemma elsewhere_discovered :
    Elsewhere j e ({ e with mPeersChanged := false }.withMailbox (·.publishDiscovered e.mDiscovery.peers)) := by
  have hnoted : Elsewhere j e { e with mPeersChanged := false } := .of_fields rfl rfl rfl
  refine hnoted.trans (elsewhere_withMailbox _ fun m => ?_)
  exact .refl

lemma entry_withMailbox_close : (e.withMailbox (·.close id)).mMailbox.entry id = ⟨none, none⟩ :=
  Mailbox.entry_close_self _ id

lemma entry_endInPassings (reason : DisconnectReason) (ids : List PeerId) (hj : j ∈ ids) :
    (ids.foldl (endInPassing reason) e).mMailbox.entry j = ⟨none, none⟩ := by
  have hstays : ∀ (ids : List PeerId) (e : NetworkEngine), e.mMailbox.entry j = ⟨none, none⟩ →
      (ids.foldl (endInPassing reason) e).mMailbox.entry j = ⟨none, none⟩ := by
    intro ids
    induction ids with
    | nil => exact fun _ h => h
    | cons id ids ih =>
      intro e h
      refine ih _ ?_
      by_cases hid : id = j
      · rw [hid]
        exact entry_withMailbox_close _
      · have hm := (((turn_report e reason).trans (turn_close _)).elsewhere j (Ne.symm hid)).mail
        rw [h] at hm
        exact Entry.mails_none hm
  induction ids generalizing e with
  | nil => simp at hj
  | cons id ids ih =>
    rcases List.mem_cons.mp hj with rfl | hj
    · exact hstays ids _ (entry_withMailbox_close _)
    · exact ih _ hj

lemma mailbox_releasePeers (ids : List PeerId) : (ids.foldl releasePeer e).mMailbox = e.mMailbox := by
  induction ids generalizing e with
  | nil => rfl
  | cons id ids ih =>
    rw [List.foldl_cons, ih, releasePeer]
    split <;> rfl

lemma elsewhere_endAllSessions (reason : DisconnectReason) :
    Elsewhere j e (e.endAllSessions reason) ∨ (e.endAllSessions reason).Gone j := by
  have hmail : (e.endAllSessions reason).mMailbox = (e.mPeers.keys.foldl (endInPassing reason) e).mMailbox :=
    mailbox_releasePeers _ _
  by_cases hj : j ∈ e.mPeers.keys
  · exact .inr ⟨find_endAllSessions e reason j, by rw [hmail, entry_endInPassings e reason _ hj]⟩
  · have hnone : e.find j = none := by
      rw [mem_keys_iff] at hj
      simpa using hj
    refine .inl ⟨by rw [find_endAllSessions, hnone], ?_, by simp [hnone]⟩
    rw [hmail]
    refine (Elsewhere.foldl e.mPeers.keys (fun e i hi => ?_) e).mail
    have hij : i ≠ j := fun h => hj (h ▸ hi)
    exact ((turn_report e reason).trans (turn_close _)).elsewhere j hij.symm

variable {T : Terms} {k : Stage} {who : Option PeerId} {e}

lemma Act.elsewhere (h : Act T k who e e') (hj : who ≠ some j) : Elsewhere j e e' ∨ e'.Gone j := by
  have hne : ∀ {id : PeerId}, some id ≠ some j → id ≠ j := fun h hij => h (congrArg some hij)
  have hturn : ∀ {id : PeerId} {e' : NetworkEngine}, some id ≠ some j → Turn id e e' → Elsewhere j e e' :=
    fun hj h => h.elsewhere j (hne hj).symm
  have htouch : ∀ {e' : NetworkEngine} (id : PeerId), Elsewhere j e e' → Elsewhere j e (e'.touch id) :=
    fun id h => h.trans (.of_quiet (quiet_touch _ id))
  cases h with
  | quiet h => exact .inl (.of_quiet h)
  | publish _ f hf => exact .inl (elsewhere_publish e hf)
  | discovered => exact .inl (elsewhere_discovered e)
  | report _ id reason => exact .inl (hturn hj (turn_report e reason))
  | note _ id f _ => exact .inl (elsewhere_modifyPeer e (hne hj) f)
  | sendDecline _ id p now => exact .inl (hturn hj (turn_sendDecline e now))
  | sendClose _ id p now => exact .inl (hturn hj (turn_sendClose e now))
  | erase _ id => exact .inl (elsewhere_erase e (hne hj))
  | sendAccept _ id p => exact .inl (hturn hj (turn_sendAccept e))
  | drain _ id p now => exact .inl (htouch id (elsewhere_modifyPeer e (hne hj) _))
  | openSession _ id now => exact .inl (elsewhere_openSession e (hne hj) now)
  | admitPeer _ origin hello crossing now => exact .inl (elsewhere_admitPeer e (hne hj) crossing now)
  | endAllSessions _ reason => exact elsewhere_endAllSessions e reason
  | pause _ id => exact .inl (htouch id (hturn hj (turn_onLink e _)))
  | timer _ id => exact .inl (htouch id (hturn hj (turn_onLink e _)))
  | packet _ id => exact .inl (htouch id (hturn hj (turn_onLink e _)))
  | overtaken _ id =>
    exact .inl (htouch id (hturn hj ((turn_setConnected e).trans (turn_onLink _ _))))
  | ready _ id => exact .inl (htouch id (elsewhere_modifyPeer e (hne hj) _))
  | endPeer _ id => exact .inl (hturn hj (turn_endPeer e))
  | call _ id f => exact .inl (hturn hj (turn_onLink e f))
  | setConnected _ id => exact .inl (hturn hj (turn_setConnected e))
  | settle _ id => exact .inl (hturn hj (turn_settle e))
  | peek _ id lane => exact .inl (hturn hj (turn_peek e lane))
  | schedule _ id lane =>
    have hadded : Elsewhere j e { e with mScheduler := e.mScheduler.add lane id } := .of_fields rfl rfl rfl
    exact .inl (hadded.trans (elsewhere_modifyPeer _ (hne hj) _))
  | sendOne _ now lane id => exact .inl ((beside_sendOne e now lane).elsewhere j (hne hj).symm)
  | rings _ scheduler => exact .inl (.of_fields rfl rfl rfl)

lemma Acts.keeps {P : PeerId → NetworkEngine → Prop} (helse : ∀ e e' j, Elsewhere j e e' → P j e → P j e')
    (hgone : ∀ e j, e.Gone j → P j e) (hown : ∀ e e' j, Act T k (some j) e e' → P j e → P j e') (h : Acts T k e e')
    (hp : ∀ j, P j e) : ∀ j, P j e' := by
  refine h.invariant (P := fun e => ∀ j, P j e) (fun e e' who hp ha j => ?_) hp
  by_cases hj : who = some j
  · subst hj
    exact hown e e' j ha (hp j)
  · rcases ha.elsewhere hj with he | hg
    · exact helse e e' j he (hp j)
    · exact hgone e' j hg

end NetLink.NetworkEngine
