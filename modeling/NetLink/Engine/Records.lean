import NetLink.Engine.Elsewhere

/-! What an act does to the record it is about. -/

namespace NetLink.NetworkEngine

open Net (SocketAddress)
open Channel (TimePoint ReliableLink Packet Mailbox SendScheduler)

variable (e : NetworkEngine) {id : PeerId} {p : Peer}

lemma find_modified (h : e.find id = some p) (f : Peer → Peer) : (e.modifyPeer id f).find id = some (f p) := by
  rw [find_modifyPeer_self, h, Option.map_some]

def Peer.dismissed (p : Peer) (message : Channel.OutboundMessage) (now : TimePoint) : Peer :=
  { p with
    control := p.control ++ [message]
    state := .closing
    closeSent := true
    stateDeadline := some (now + CloseLinger) }

lemma find_sendDecline (h : e.find id = some p) (now : TimePoint) :
    (e.sendDecline id now).find id = some (p.told.dismissed
      (controlMessage .decline ({ reason := .declined } : Session.Decline).encode) now) := by
  have hp := find_modifyPeer_self e id fun peer => { peer with
    control := peer.control ++ [controlMessage .decline ({ reason := .declined } : Session.Decline).encode] }
  rw [h, Option.map_some] at hp
  rw [sendDecline, find_touch, find_withMailbox, find_modifyPeer_self, find_report _ hp, Option.map_some]
  rfl

lemma find_sendClose (h : e.find id = some p) (now : TimePoint) : (e.sendClose id now).find id = some
    (if p.link.mRemoteStreamID.isNone then { p with ended := true }
      else p.dismissed (controlMessage .close (Session.encodeClose 0)) now) := by
  simp only [sendClose, find_withMailbox, h, Option.all_some]
  split
  · exact find_endPeer _ h
  · rw [find_touch, find_modifyPeer_self, find_withMailbox, h]
    rfl

structure Peer.Fresh (p : Peer) (e : NetworkEngine) (now : TimePoint) : Prop where
  link : ∃ budget, p.link = { e.newLink now with mBudget := some budget }
  ended : p.ended = false
  closeSent : p.closeSent = false
  state : p.state = .connecting ∨ p.state = .awaitingDecision
  unsettled : p.unsettled = false
  scheduled : p.scheduled = fun _ => false

structure Opens (id : PeerId) (now : TimePoint) (e e' : NetworkEngine) : Prop where
  room : e.mPeers.size < MaxPeers
  find : ∃ p, e'.find id = some p ∧ p.Fresh e now ∧ (p.initiator = false → e.pendingSessions < MaxPendingSessions)
  entry : e.mMailbox.mPeers[id]? = none → ∃ s, e'.mMailbox.entry id = ⟨none, some s⟩
  streams : e'.mByStream = e.mByStream.insert e.drawStreamID.1 id
  touched : id ∈ e'.mTouched ∧ ∀ i ∈ e.mTouched, i ∈ e'.mTouched

lemma mPeers_lock (h : e.mMailbox.mPeers[id]? = none) : e.lock.mMailbox.mPeers[id]? = none := by
  have hm := mails_lock (j := id) e
  rw [Mailbox.entry, h] at hm
  exact congrArg Mailbox.Entry.peer (Entry.mails_none hm)

lemma entry_publishSession (h : e.mMailbox.mPeers[id]? = none) (session : Mailbox.Session) :
    (e.withMailbox (·.publishSession id session)).mMailbox.entry id = ⟨none, some session⟩ := by
  have hl : (e.withMailbox (·.publishSession id session)).mMailbox.entry id =
      ⟨e.lock.mMailbox.mPeers[id]?, some session⟩ := Mailbox.entry_publishSession_self _ id session
  rw [hl, mPeers_lock e h]

lemma opens_addPeer {info : PeerInfo} (hid : info.id = id) (address : SocketAddress) (byHello : Bool)
    (now : TimePoint)
    {f : Peer → Peer} (hr : e.mPeers.size < MaxPeers)
    (hf : ∀ p : Peer, p.Fresh e now → (f p).Fresh e now ∧
      ((f p).initiator = false → e.pendingSessions < MaxPendingSessions)) (session : Mailbox.Session) :
    Opens id now e
      (((e.addPeer info address byHello now).modifyPeer id f).withMailbox (·.publishSession id session)) := by
  subst hid
  refine ⟨hr, ⟨f { info := info, address := address, link := e.newLink now }, ?_, hf _ ?_⟩, fun h =>
    ⟨session, ?_⟩, rfl,
    List.mem_append_right _ (List.mem_singleton.mpr rfl), fun i hi => List.mem_append_left _ hi⟩
  · rw [find_withMailbox, find_modifyPeer_self, find_addPeer, Option.map_some]
  · exact ⟨⟨_, (newLink_eq e now).2⟩, rfl, rfl, .inl rfl, rfl, rfl⟩
  · exact entry_publishSession _ h session

variable {e}

lemma Opens.sendAccept {e' : NetworkEngine} {now : TimePoint} (h : Opens id now e e') :
    Opens id now e (e'.sendAccept id) := by
  obtain ⟨hr, ⟨p, hp, hfresh, hc⟩, hentry, hstreams, htouched⟩ := h
  refine ⟨hr, ⟨_, find_sendAccept e' hp, ?_, hc⟩, fun hn => ?_, hstreams, List.mem_append_left _ htouched.1,
    fun i hi => ?_⟩
  · exact ⟨hfresh.link, hfresh.ended, hfresh.closeSent, .inl rfl, hfresh.unsettled, hfresh.scheduled⟩
  · obtain ⟨s, hs⟩ := hentry hn
    exact ⟨.pending, entry_publishSession (e'.modifyPeer id _) (congrArg Mailbox.Entry.peer hs) .pending⟩
  · exact List.mem_append_left _ (htouched.2 i hi)

lemma Opens.emit {e' : NetworkEngine} {now : TimePoint} (h : Opens id now e e') (event : EngineEvent) :
    Opens id now e (e'.emit event) :=
  ⟨h.room, h.find, h.entry, h.streams, h.touched⟩

variable (e)

lemma openSession_cases (id : PeerId) (now : TimePoint) : Quiet e (e.openSession id now) ∨
    Opens id now e (e.openSession id now) := by
  rw [openSession]
  split
  · exact .inl ((quiet_record e rfl).trans (quiet_emit _ rfl))
  next known hk =>
  obtain rfl := id_of_known e hk
  split
  · exact .inl ((quiet_record e rfl).trans (quiet_emit _ rfl))
  · next hn =>
    refine .inr (opens_addPeer e rfl known.endpoint false now (not_le.mp (not_or.mp hn).2) (fun p hp =>
      ⟨?_, ?_⟩) .pending)
    · exact ⟨hp.link, hp.ended, hp.closeSent, hp.state, hp.unsettled, hp.scheduled⟩
    · exact fun hi => by cases hi

lemma opens_admitPeer (origin : SocketAddress) (hello : Session.Hello) (crossing : Bool) (now : TimePoint)
    (hf : e.isFull = false) : Opens hello.fromInstance now e (e.admitPeer origin hello crossing now) := by
  have hid : (helloInfo origin hello).id = hello.fromInstance := rfl
  have hroom : e.mPeers.size < MaxPeers ∧ e.pendingSessions < MaxPendingSessions := by simpa [isFull] using hf
  rw [admitPeer]
  dsimp only
  split
  · refine (opens_addPeer e hid origin true now hroom.1 (fun p hp => ⟨?_, fun _ => hroom.2⟩) .pending).sendAccept
    exact ⟨hp.link, hp.ended, hp.closeSent, hp.state, hp.unsettled, hp.scheduled⟩
  · refine (opens_addPeer e hid origin true now hroom.1 (fun p hp => ⟨?_, fun _ => hroom.2⟩) .requested).emit _
    exact ⟨hp.link, hp.ended, hp.closeSent, .inr rfl, hp.unsettled, hp.scheduled⟩

def Peer.peeked (p : Peer) (s : SessionView) : Peer := { p with control := s.control, link := s.link }

lemma find_peek (h : e.find id = some p) (lane : Channel.Lane) :
    (e.peek id lane).2.find id = some (p.peeked (e.offering id p lane)) := by
  obtain ⟨c, l, hf⟩ : ∃ c l, (e.peek id lane).2.find id = some { p with control := c, link := l } := by
    refine peek_keeps e (P := fun e' => ∃ c l, e'.find id = some { p with control := c, link := l }) id
      lane ⟨_, _, h⟩
      ⟨_, _, find_nextMessage e h lane⟩ ?_
    rintro e' link ⟨c, l, hf⟩
    exact ⟨c, link, by rw [find_putLink, hf]; rfl⟩
  obtain ⟨q, hq, hv⟩ := (peek_eq e h lane).2.1
  obtain rfl := Option.some.inj (hf.symm.trans hq)
  rw [hf, ← hv]
  rfl

lemma peek_of_none (h : e.find id = none) (lane : Channel.Lane) : e.peek id lane = (none, e) := by
  rw [NetworkEngine.peek, h]

lemma lend_peek (h : e.find id = some p) (lane : Channel.Lane) :
    (e.peek id lane).2.lend (p.peeked (e.offering id p lane)) = (e.offering id p lane).link := by
  have hb : (e.offering id p lane).link.mBudget = some e.mAssemblyBudget := ReliableLink.mBudget_peek _ _ _
  rw [lend, (peek_eq e h lane).2.2.2, ← hb]
  rfl

def Peer.committed (p : Peer) (lane : Channel.Lane) (now : TimePoint) : Peer :=
  { p with link := p.link.commit lane now, deadline := (p.link.commit lane now).nextDeadline }

lemma sendOne_of_none (h : e.find id = none) (now : TimePoint) (lane : Channel.Lane) :
    sendOne now e lane id = (.empty, e) := by
  rw [sendOne, h]

lemma find_sendOne (h : e.find id = some p) (now : TimePoint) (lane : Channel.Lane) :
    (sendOne now e lane id).2.find id = some (match (sendOne now e lane id).1 with
      | .empty => { p.peeked (e.offering id p lane) with scheduled := Function.update p.scheduled lane false }
      | .blocked => p.peeked (e.offering id p lane)
      | .sent | .lost => (p.peeked (e.offering id p lane)).committed lane now) := by
  have hpeek := find_peek e h lane
  have hlend := lend_peek e h lane
  simp only [sendOne, h]
  split
  · next peeked he =>
    rw [he] at hpeek
    dsimp only
    rw [setScheduled, find_modifyPeer_self, hpeek]
    rfl
  next packet peeked he =>
  rw [he] at hpeek hlend
  obtain ⟨world, posts, blocked, failed, ht, -, -⟩ := transmit_eq peeked p.address packet
  split
  · next transmitted hr =>
    rw [hr] at ht
    subst ht
    exact hpeek
  · next outcome transmitted ho hs =>
    rw [hs] at ht
    have ht : transmitted = _ := ht
    have hfind : transmitted.find id = some (p.peeked (e.offering id p lane)) := by
      rw [ht]
      exact hpeek
    have hlend : transmitted.lend (p.peeked (e.offering id p lane)) = (e.offering id p lane).link := by
      rw [ht]
      exact hlend
    dsimp only
    rw [find_modifyPeer_self, find_onLink _ hfind, hlend, Option.map_some]
    by_cases hsent : outcome = .sent
    · rw [if_pos hsent]
      rfl
    · rw [if_neg hsent]
      rfl

lemma find_setScheduled (h : e.find id = some p) (lane : Channel.Lane) (scheduled : Bool) :
    (e.setScheduled id lane scheduled).find id =
      some { p with scheduled := Function.update p.scheduled lane scheduled } := by
  rw [setScheduled, find_modifyPeer_self, h, Option.map_some]

lemma mailbox_report (reason : DisconnectReason) : (e.report id reason).mMailbox = e.mMailbox := by
  rw [report]
  split
  · rfl
  · split <;> rfl

lemma mailbox_onLink (f : ReliableLink → ReliableLink) : (e.onLink id f).mMailbox = e.mMailbox := by
  rw [onLink]
  split <;> rfl

lemma mailbox_peek (id : PeerId) (lane : Channel.Lane) : (e.peek id lane).2.mMailbox = e.mMailbox ∨
    (e.peek id lane).2.mMailbox = (e.lock.mMailbox.take id lane).2 := by
  refine peek_keeps e (P := fun e' => e'.mMailbox = e.mMailbox ∨
    e'.mMailbox = (e.lock.mMailbox.take id lane).2) id lane
    (.inl rfl) ?_ fun _ _ h => h
  rw [nextMessage]
  split
  · exact .inl rfl
  split
  · exact .inl rfl
  split
  · exact .inl rfl
  · exact .inr rfl

lemma mailbox_sendOne (h : e.find id = some p) (now : TimePoint) (lane : Channel.Lane) :
    (sendOne now e lane id).2.mMailbox = (e.peek id lane).2.mMailbox := by
  simp only [sendOne, h]
  split
  · next he => rw [he]; rfl
  next packet peeked he =>
  have hsent := (quiet_transmit peeked p.address packet).mailbox
  rw [he]
  split
  · next ht =>
    rw [ht] at hsent
    exact hsent
  · next ht =>
    rw [ht] at hsent
    exact (mailbox_onLink _ _).trans hsent

lemma entry_setConnected (h : e.find id = some p) : ∃ epoch,
    (e.setConnected id).mMailbox.entry id = ⟨some { epoch := epoch }, some .connected⟩ := by
  simp only [setConnected, h]
  exact ⟨_, Mailbox.entry_openPeer_self _ id⟩

lemma entry_endPeer (h : e.mMailbox.entry id = ⟨none, none⟩) :
    (e.endPeer id).mMailbox.entry id = ⟨none, none⟩ := by
  rw [endPeer]
  split
  · exact h
  split
  · exact h
  · exact entry_withMailbox_close _

lemma entry_sendClose (id : PeerId) (now : TimePoint) : (e.sendClose id now).mMailbox.entry id = ⟨none, none⟩ := by
  rw [sendClose]
  split
  · exact entry_endPeer _ (entry_withMailbox_close e)
  · exact entry_withMailbox_close e

lemma gone_erase (h : e.find id = some p) : (e.erase id).Gone id where
  find := find_erase e
  entry := by
    rw [erase, h]
    exact entry_withMailbox_close _

lemma touched_erase : (e.erase id).mTouched = e.mTouched := by
  rw [erase]
  split <;> rfl

lemma touched_endAllSessions (reason : DisconnectReason) : (e.endAllSessions reason).mTouched = e.mTouched := by
  have hreleased : ∀ (ids : List PeerId) (e : NetworkEngine), (ids.foldl releasePeer e).mTouched = e.mTouched := by
    intro ids
    induction ids with
    | nil => exact fun _ => rfl
    | cons id ids ih =>
      intro e
      rw [List.foldl_cons, ih, releasePeer]
      split <;> rfl
  have hpassed := (Still.foldl (fun e id => still_endInPassing e id reason) e.mPeers.keys e).touched
  exact (hreleased _ _).trans hpassed

lemma touched_sendOne (now : TimePoint) (lane : Channel.Lane) :
    (sendOne now e lane id).2.mTouched = e.mTouched := by
  have hpeek := (still_peek e id lane).touched
  rw [sendOne]
  split
  · rfl
  next p h =>
  split
  · next he =>
    rw [he] at hpeek
    exact hpeek
  next packet peeked he =>
  rw [he] at hpeek
  have hsent := (still_transmit peeked p.address packet).touched.trans hpeek
  split
  · next ht =>
    rw [ht] at hsent
    exact hsent
  · next ht =>
    rw [ht] at hsent
    exact (still_onLink _ id _).touched.trans hsent

variable {T : Terms} {k : Stage} {who : Option PeerId} {e} {e' : NetworkEngine}

lemma Act.touched (h : Act T k who e e') : ∀ i ∈ e.mTouched, i ∈ e'.mTouched := by
  have hsame : ∀ {e' : NetworkEngine}, e'.mTouched = e.mTouched → ∀ i ∈ e.mTouched, i ∈ e'.mTouched :=
    fun he i hi => by rwa [he]
  have hmore : ∀ {e' : NetworkEngine} (id : PeerId), e'.mTouched = e.mTouched →
      ∀ i ∈ e.mTouched, i ∈ (e'.touch id).mTouched :=
    fun id he i hi => List.mem_append_left _ (by rwa [he])
  cases h with
  | quiet h => exact h.touched
  | publish => exact hsame rfl
  | discovered => exact hsame rfl
  | report _ id reason => exact hsame (still_report e id reason).touched
  | note => exact hsame rfl
  | sendDecline _ id p now =>
    obtain ⟨still, hs, he⟩ := touched_sendDecline e id now
    rw [he]
    exact hmore id hs.touched
  | sendClose _ id p now =>
    have hc := sendClose_cases e id now
    split at hc
    · exact hsame hc.touched
    · obtain ⟨still, hs, he⟩ := hc
      rw [he]
      exact hmore id hs.touched
  | erase _ id => exact hsame (touched_erase e)
  | sendAccept _ id => exact hmore id rfl
  | drain _ id => exact hmore id rfl
  | openSession _ id now =>
    rcases openSession_cases e id now with hq | ho
    · exact hq.touched
    · exact ho.touched.2
  | admitPeer _ origin hello crossing now _ hf => exact (opens_admitPeer e origin hello crossing now hf).touched.2
  | endAllSessions _ reason => exact hsame (touched_endAllSessions e reason)
  | pause _ id => exact hmore id (still_onLink e id _).touched
  | timer _ id => exact hmore id (still_onLink e id _).touched
  | packet _ id => exact hmore id (still_onLink e id _).touched
  | overtaken _ id => exact hmore id ((still_setConnected e id).trans (still_onLink _ id _)).touched
  | ready _ id => exact hmore id rfl
  | endPeer _ id => exact hsame (still_endPeer e id).touched
  | call _ id => exact hsame (still_onLink e id _).touched
  | setConnected _ id => exact hsame (still_setConnected e id).touched
  | settle => exact hsame rfl
  | peek _ id lane => exact hsame (still_peek e id lane).touched
  | schedule => exact hsame rfl
  | sendOne _ now lane id => exact hsame (touched_sendOne e now lane)
  | rings => exact hsame rfl

variable (e)

lemma ended_report (reason : DisconnectReason) : (e.report id reason).mEnded = e.mEnded := by
  rw [report]
  split
  · rfl
  · split <;> rfl

lemma ended_onLink (f : ReliableLink → ReliableLink) : (e.onLink id f).mEnded = e.mEnded := by
  rw [onLink]
  split <;> rfl

lemma ended_setConnected : (e.setConnected id).mEnded = e.mEnded := by
  rw [setConnected]
  split <;> rfl

lemma ended_peek (id : PeerId) (lane : Channel.Lane) : (e.peek id lane).2.mEnded = e.mEnded := by
  refine peek_keeps e (P := fun e' => e'.mEnded = e.mEnded) id lane rfl ?_ fun _ _ h => h
  rw [nextMessage]
  split
  · rfl
  split
  · rfl
  · split <;> rfl

lemma ended_sendOne (now : TimePoint) (lane : Channel.Lane) : (sendOne now e lane id).2.mEnded = e.mEnded := by
  have hpeek := ended_peek e id lane
  rw [sendOne]
  split
  · rfl
  next p h =>
  split
  · next he =>
    rw [he] at hpeek
    exact hpeek
  next packet peeked he =>
  rw [he] at hpeek
  have hsent := (quiet_transmit peeked p.address packet).ended.trans hpeek
  split
  · next ht =>
    rw [ht] at hsent
    exact hsent
  · next ht =>
    rw [ht] at hsent
    exact (ended_onLink _ _).trans hsent

lemma listed_endPeer (h : e.find id = some p) (hl : p.ended = true → id ∈ e.mEnded) :
    id ∈ (e.endPeer id).mEnded := by
  simp only [endPeer, h]
  split
  · next he => exact hl he
  · exact List.mem_append_right _ (List.mem_singleton.mpr rfl)

variable {e} {j : PeerId}

def Listed (j : PeerId) (e : NetworkEngine) : Prop := ∀ p, e.find j = some p → p.ended = true → j ∈ e.mEnded

lemma Listed.of_some (hf : e.find j = some p) (hp : p.ended = true → j ∈ e.mEnded) : Listed j e := by
  intro q hq
  obtain rfl := Option.some.inj (hf.symm.trans hq)
  exact hp

lemma Listed.of_none (hf : e.find j = none) : Listed j e := fun p hp => by simp [hf] at hp

structure Absent (j : PeerId) (e e' : NetworkEngine) : Prop where
  find : e'.find j = none
  mailbox : e'.mMailbox = e.mMailbox
  streams : e'.mByStream = e.mByStream

lemma Act.of_none (h : Act T k (some j) e e') (hn : e.find j = none) :
    Absent j e e' ∨ k = .collect ∧ ∃ now, Opens j now e e' := by
  have hsame : Absent j e e := ⟨hn, rfl, rfl⟩
  have hmodify : ∀ f, Absent j e (e.modifyPeer j f) := fun f =>
    ⟨by rw [find_modifyPeer_self, hn, Option.map_none], rfl, rfl⟩
  have honLink : ∀ f, e.onLink j f = e := fun f => by rw [onLink, hn]
  cases h with
  | report _ _ reason =>
    rw [NetworkEngine.report, hn]
    exact .inl hsame
  | note _ _ f _ => exact .inl (hmodify f)
  | sendDecline _ _ p now h => simp [hn] at h
  | sendClose _ _ p now h => simp [hn] at h
  | erase =>
    rw [NetworkEngine.erase, hn]
    exact .inl hsame
  | sendAccept _ _ p h => simp [hn] at h
  | drain _ _ p now h => simp [hn] at h
  | openSession _ _ now =>
    rcases openSession_cases e j now with hq | ho
    · exact .inl ⟨by rw [NetworkEngine.find, hq.peers]; exact hn, hq.mailbox, hq.streams⟩
    · exact .inr ⟨rfl, now, ho⟩
  | admitPeer _ origin hello crossing now _ hf =>
    exact .inr ⟨rfl, now, opens_admitPeer e origin hello crossing now hf⟩
  | pause =>
    rw [honLink]
    exact .inl ⟨hn, rfl, rfl⟩
  | timer =>
    rw [honLink]
    exact .inl ⟨hn, rfl, rfl⟩
  | packet _ _ p _ _ h => simp [hn] at h
  | overtaken _ _ p _ _ h => simp [hn] at h
  | ready => exact .inl ⟨(hmodify _).find, rfl, rfl⟩
  | endPeer =>
    rw [NetworkEngine.endPeer, hn]
    exact .inl hsame
  | call _ _ f =>
    rw [honLink]
    exact .inl hsame
  | setConnected _ _ p h => simp [hn] at h
  | settle _ _ p h => simp [hn] at h
  | peek _ _ lane =>
    rw [peek_of_none e hn]
    exact .inl hsame
  | schedule _ _ lane =>
    have hadded : NetworkEngine.find { e with mScheduler := e.mScheduler.add lane j } j = none := hn
    exact .inl ⟨by rw [setScheduled, find_modifyPeer_self, hadded, Option.map_none], rfl, rfl⟩
  | sendOne _ now lane =>
    rw [sendOne_of_none e hn]
    exact .inl hsame

lemma Act.listed (h : Act T k (some j) e e') (hl : Listed j e) : Listed j e' := by
  cases hf : e.find j with
  | none =>
    rcases h.of_none hf with hn | ⟨-, now, -, ⟨p, hp, hfresh, -⟩, -⟩
    · exact .of_none hn.find
    · exact .of_some hp (by simp [hfresh.ended])
  | some p =>
    have hp := hl p hf
    cases h with
    | report _ _ reason => exact .of_some (find_report e hf reason) (by rw [ended_report]; exact hp)
    | note _ _ f hn =>
      refine .of_some (find_modified e hf f) fun he => ?_
      have hv : (f p).ended = p.ended := congrArg SessionView.ended (hn.view p)
      exact hp (hv ▸ he)
    | sendDecline _ _ q now =>
      refine .of_some (find_sendDecline e hf now) fun he => ?_
      have hm : (e.sendDecline j now).mEnded = e.mEnded := ended_report _ _
      rw [hm]
      exact hp he
    | sendClose _ _ q now =>
      have hm : (e.withMailbox (·.close j)).find j = some p := hf
      rw [NetworkEngine.sendClose]
      split
      · exact .of_some (find_endPeer _ hm) fun _ => listed_endPeer _ hm hp
      · exact .of_some (find_modified _ hm _) hp
    | erase => exact .of_none (find_erase e)
    | sendAccept => exact .of_some (find_sendAccept e hf) hp
    | drain => exact .of_some (find_modified e hf _) hp
    | openSession _ _ now h => simp [h] at hf
    | admitPeer _ origin hello crossing now h => simp [h] at hf
    | pause => exact .of_some (find_onLink e hf _) (by rw [touch, ended_onLink]; exact hp)
    | timer => exact .of_some (find_onLink e hf _) (by rw [touch, ended_onLink]; exact hp)
    | packet => exact .of_some (find_onLink e hf _) (by rw [touch, ended_onLink]; exact hp)
    | overtaken =>
      exact .of_some (find_onLink _ (find_setConnected e hf) _) (by
        rw [touch, ended_onLink, ended_setConnected]
        exact hp)
    | ready => exact .of_some (find_modified e hf _) hp
    | endPeer => exact .of_some (find_endPeer e hf) fun _ => listed_endPeer e hf hp
    | call => exact .of_some (find_onLink e hf _) (by rw [ended_onLink]; exact hp)
    | setConnected => exact .of_some (find_setConnected e hf) (by rw [ended_setConnected]; exact hp)
    | settle => exact .of_some hf hp
    | peek _ _ lane => exact .of_some (find_peek e hf lane) (by rw [ended_peek]; exact hp)
    | schedule _ _ lane =>
      have hadded : NetworkEngine.find { e with mScheduler := e.mScheduler.add lane j } j = some p := hf
      exact .of_some (find_setScheduled _ hadded lane true) hp
    | sendOne _ now lane =>
      refine .of_some (find_sendOne e hf now lane) ?_
      rw [ended_sendOne]
      split <;> exact hp

lemma Acts.listed (h : Acts T k e e') (hl : ∀ j, Listed j e) : ∀ j, Listed j e' :=
  h.keeps (fun e e' j he hl p hp hended => he.ended (by rw [← he.find, hp]; rfl) (hl p (he.find ▸ hp) hended))
    (fun e j hg => .of_none hg.find) (fun e e' j ha hl => ha.listed hl) hl

end NetLink.NetworkEngine
