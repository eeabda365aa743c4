import NetLink.Engine.Tables

/-! The peers an engine knows of, those it has told of and those it has published are the same. -/

namespace NetLink.Channel.Mailbox

variable (m : Mailbox)

lemma discovered_push (id : PeerId) (lane : Lane) (mail : Mail) :
    (m.push id lane mail).2.2.mDiscovered = m.mDiscovered := by
  rcases push_cases m id lane mail with ⟨he, -⟩ | ⟨peer, -, -, -, he⟩
  · rw [he]
  · rw [he]
    rfl

lemma discovered_pushToAll (lane : Lane) (mail : Mail) :
    (m.pushToAll lane mail).2.2.mDiscovered = m.mDiscovered := by
  refine pushToAll_keeps (P := fun m' => m'.mDiscovered = m.mDiscovered) ?_ rfl
  exact fun m' id h => (discovered_push m' id lane mail).trans h

lemma discovered_call (c : Call) : (m.call c).mDiscovered = m.mDiscovered := by
  cases c with
  | post command peer => rfl
  | push peer lane mail => exact discovered_push m peer _ mail
  | pushToAll lane mail => exact discovered_pushToAll m _ mail
  | sealPeer peer =>
    rw [call, sealPeer]
    split <;> rfl

lemma discovered_calls (cs : List Call) : (cs.foldl call m).mDiscovered = m.mDiscovered := by
  induction cs generalizing m with
  | nil => rfl
  | cons c cs ih => exact (ih (m.call c)).trans (discovered_call m c)

lemma discovered_take (id : PeerId) (lane : Lane) : (m.take id lane).2.mDiscovered = m.mDiscovered := by
  rw [take]
  split
  · rfl
  · split <;> rfl

lemma discovered_settle (id : PeerId) : (m.settle id).2.mDiscovered = m.mDiscovered := by
  rw [settle]
  split
  · rfl
  · split <;> rfl

end NetLink.Channel.Mailbox

namespace NetLink.NetworkEngine

open Net (SocketAddress)
open Channel (TimePoint ReliableLink Mailbox)

variable (e : NetworkEngine) {id : PeerId}

lemma board_mailbox {m : Mailbox} (h : m.mDiscovered = e.mMailbox.mDiscovered) :
    board { e with mMailbox := m } = e.board := by
  simp only [board, h]

lemma board_lock : e.lock.board = e.board := board_mailbox e (Mailbox.discovered_calls _ _)

lemma board_withMailbox {f : Mailbox → Mailbox} (hf : ∀ m, (f m).mDiscovered = m.mDiscovered) :
    (e.withMailbox f).board = e.board :=
  (board_mailbox e.lock (hf _)).trans (board_lock e)

lemma board_close (id : PeerId) : (e.withMailbox (·.close id)).board = e.board := board_withMailbox e fun _ => rfl

lemma board_publishSession (id : PeerId) (session : Mailbox.Session) :
    (e.withMailbox (·.publishSession id session)).board = e.board :=
  board_withMailbox e fun _ => rfl

lemma board_settle : (e.settle id).2.board = e.board :=
  (board_mailbox e.lock (Mailbox.discovered_settle _ id)).trans (board_lock e)

lemma board_onLink (f : ReliableLink → ReliableLink) : (e.onLink id f).board = e.board := by
  rw [onLink]
  split <;> rfl

lemma board_report (reason : DisconnectReason) : (e.report id reason).board = e.board := by
  rw [report]
  split
  · rfl
  split
  · rfl
  · exact board_emit _ rfl

lemma board_endPeer : (e.endPeer id).board = e.board := by
  rw [endPeer]
  split
  · rfl
  split
  · rfl
  · exact board_close (e.modifyPeer id fun peer => { peer with ended := true }) id

lemma board_erase : (e.erase id).board = e.board := by
  rw [erase]
  split
  · rfl
  · next p _ =>
    exact board_close { e with
      mByStream := e.mByStream.erase p.link.mLocalStreamID, mScheduler := e.mScheduler.remove id } id

lemma board_addPeer (info : PeerInfo) (address : SocketAddress) (byHello : Bool) (now : TimePoint) :
    (e.addPeer info address byHello now).board = e.board :=
  board_record _ rfl

lemma board_setConnected : (e.setConnected id).board = e.board := by
  rw [setConnected]
  split
  · rfl
  · rw [board_emit]
    · exact board_withMailbox _ fun _ => rfl
    · rfl

lemma board_sendAccept : (e.sendAccept id).board = e.board := by
  rw [sendAccept, board_record]
  · exact board_publishSession (e.modifyPeer id _) id .pending
  · rfl

lemma board_sendDecline (now : TimePoint) : (e.sendDecline id now).board = e.board :=
  (board_close (modifyPeer (report (e.modifyPeer id _) id .localEnd) id _) id).trans
    (board_report (e.modifyPeer id _) _)

lemma board_sendClose (now : TimePoint) : (e.sendClose id now).board = e.board := by
  have hclosed := board_close e id
  rw [sendClose]
  split
  · exact (board_endPeer _).trans hclosed
  · exact hclosed

lemma board_openSession (now : TimePoint) : (e.openSession id now).board = e.board := by
  rw [openSession]
  split
  · exact (board_emit _ rfl).trans (board_record e rfl)
  split
  · exact (board_emit _ rfl).trans (board_record e rfl)
  · next known _ _ =>
    exact (board_publishSession (modifyPeer (e.addPeer known.info known.endpoint false now) known.info.id _) id
      .pending).trans (board_addPeer e _ _ _ now)

lemma board_admitPeer (origin : SocketAddress) (hello : Session.Hello) (crossing : Bool) (now : TimePoint) :
    (e.admitPeer origin hello crossing now).board = e.board := by
  have hadded := board_addPeer e (helloInfo origin hello) origin true now
  rw [admitPeer]
  dsimp only
  split
  · rw [board_sendAccept, board_publishSession]
    exact hadded
  · rw [board_emit, board_publishSession]
    · exact hadded
    · rfl

lemma board_foldl {α : Type} {f : NetworkEngine → α → NetworkEngine} (hf : ∀ e x, (f e x).board = e.board)
    (xs : List α) (e : NetworkEngine) : (xs.foldl f e).board = e.board := by
  induction xs generalizing e with
  | nil => rfl
  | cons x xs ih => exact (ih (f e x)).trans (hf e x)

lemma board_endAllSessions (reason : DisconnectReason) : (e.endAllSessions reason).board = e.board := by
  have hended : (e.mPeers.keys.foldl (endInPassing reason) e).board = e.board :=
    board_foldl (fun e id => (board_close _ id).trans (board_report e reason)) _ e
  have hreleased : ∀ e : NetworkEngine, (e.mPeers.keys.foldl releasePeer e).board = e.board := by
    refine fun e => board_foldl (fun e id => ?_) _ e
    rw [releasePeer]
    split <;> rfl
  exact (hreleased _).trans hended

lemma board_nextMessage (lane : Channel.Lane) : (nextMessage id e lane).2.board = e.board := by
  rw [nextMessage]
  split
  · rfl
  split
  · rfl
  split
  · rfl
  · exact (board_mailbox e.lock (Mailbox.discovered_take _ id lane)).trans (board_lock e)

lemma board_peek (id : PeerId) (lane : Channel.Lane) : (e.peek id lane).2.board = e.board := by
  exact peek_keeps e (P := fun e' => e'.board = e.board) id lane rfl (board_nextMessage e lane) fun _ _ h => h

lemma board_sendOne (now : TimePoint) (lane : Channel.Lane) : (sendOne now e lane id).2.board = e.board := by
  have hpeek := board_peek e id lane
  rw [sendOne]
  split
  · rfl
  next p h =>
  split
  · next he =>
    rw [he] at hpeek
    exact hpeek
  next packet peeked he =>
  rw [he] at hpeek
  obtain ⟨world, posts, blocked, failed, ht, -⟩ := transmit_eq peeked p.address packet
  have hsent : (peeked.transmit p.address packet).2.board = e.board := by
    rw [ht]
    exact hpeek
  split
  · next hr =>
    rw [hr] at hsent
    exact hsent
  · next hr =>
    rw [hr] at hsent
    exact (board_onLink _ _).trans hsent

variable {T : Terms} {k : Stage} {who : Option PeerId} {e} {e' : NetworkEngine}

lemma Act.board (h : Act T k who e e') : Board.Changes e.mPeers e.board e'.board := by
  have hsame : ∀ {e' : NetworkEngine}, e'.board = e.board → Board.Changes e.mPeers e.board e'.board := by
    intro e' he
    rw [he]
    exact .refl
  cases h with
  | quiet h => exact h.board
  | publish _ f hf =>
    cases hf with
    | stats => exact hsame (board_withMailbox e fun _ => rfl)
    | running => exact hsame (board_withMailbox e fun _ => rfl)
  | discovered =>
    have hlocked := board_lock { e with mPeersChanged := false }
    have hboard := congrArg (fun b : Board => { b with published := e.mDiscovery.peers }) hlocked
    exact .single ((congrArg (Board.Change e.mPeers e.board) hboard).mpr
      (.published e.mDiscovery.peers (lists_peers e.mDiscovery)))
  | report _ id reason => exact hsame (board_report e reason)
  | note => exact hsame rfl
  | sendDecline _ id p now => exact hsame (board_sendDecline e now)
  | sendClose _ id p now => exact hsame (board_sendClose e now)
  | erase => exact hsame (board_erase e)
  | sendAccept => exact hsame (board_sendAccept e)
  | drain => exact hsame rfl
  | openSession _ id now => exact hsame (board_openSession e now)
  | admitPeer _ origin hello crossing now => exact hsame (board_admitPeer e origin hello crossing now)
  | endAllSessions _ reason => exact hsame (board_endAllSessions e reason)
  | pause => exact hsame (board_onLink e _)
  | timer => exact hsame (board_onLink e _)
  | packet => exact hsame (board_onLink e _)
  | overtaken => exact hsame ((board_onLink _ _).trans (board_setConnected e))
  | ready => exact hsame rfl
  | endPeer => exact hsame (board_endPeer e)
  | call => exact hsame (board_onLink e _)
  | setConnected => exact hsame (board_setConnected e)
  | settle => exact hsame (board_settle e)
  | peek _ id lane => exact hsame (board_peek e id lane)
  | schedule => exact hsame rfl
  | sendOne _ now lane id => exact hsame (board_sendOne e now lane)
  | rings => exact hsame rfl

lemma unchanged_finishStep (e : NetworkEngine) (now : TimePoint) : (e.finishStep now).mPeersChanged = false := by
  rw [finishStep]
  dsimp only
  split
  · rfl
  · next hc => exact Bool.eq_false_iff.mpr hc

structure Announced (e : NetworkEngine) : Prop where
  faithful : e.board.Faithful
  published : e.mPeersChanged = false

lemma Announced.round (h : Announced e) (hs : Sound e.view) (ha : e.Alive) (world : World) (now : TimePoint) :
    Announced (e.round world now) := by
  have hbegin : (e.beginStep world).board = e.board := board_lock { e with
    world := world
    mSocketFailed := e.mSocketFailed || world.waitFailed
    mTouched := e.mAcksHeldBack
    mAcksHeldBack := [] }
  have hfaithful : (e.round world now).board.Faithful := by
    refine round_keeps (P := fun e => e.board.Faithful) (fun _ _ _ _ hf ha => hf.changes ha.board)
      (fun _ hf => hf) hs ha
      world now ?_
    rw [hbegin]
    exact h.faithful
  exact ⟨hfaithful, unchanged_finishStep _ now⟩

lemma Announced.takeBatch (h : Announced e) : Announced e.takeBatch.2 := ⟨h.faithful, h.published⟩

lemma latest_filter (events : List EngineEvent) (id : PeerId) :
    latest (events.filter (·.isNews)) id = latest events id := by
  simp only [latest, List.filter_filter]
  congr 3
  funext event
  cases event.isNews <;> simp

namespace Observed

variable {o : Observed}

lemma announced (hr : (system anything).Reachable o) : Announced o.engine := by
  refine hr.invariant (P := fun o => Announced o.engine) ?_ ?_
  · rintro o ⟨config, drawn, rfl⟩
    refine ⟨⟨by simp [board, NetworkEngine.new], by
      simp [board, NetworkEngine.new], fun id => ?_, fun _ info => ?_, rfl,
      ?_⟩, rfl⟩
    · simp [board, NetworkEngine.new, latest]
    · simp [board, NetworkEngine.new]
    · intro x hx
      cases hx
  · rintro o o' hr ha ⟨world, now, -, rfl⟩
    exact (ha.round (sound hr) (consistent hr).alive world now).takeBatch

theorem discovery_agrees (hr : (system anything).Reachable o) :
    (∀ id, (∃ info ∈ o.engine.mMailbox.mDiscovered, info.id = id) ↔ id ∈ o.engine.mDiscovery.mPeers) ∧
    (∀ id, id ∈ o.engine.mDiscovery.mPeers ↔ latest o.delivered id = some .peerDiscovered) ∧
    (∀ info ∈ o.engine.mMailbox.mDiscovered, (o.engine.mDiscovery.find info.id).map (·.info) = some info) ∧
    (o.engine.emissions.filter (·.event.kind == .peerLost)).map (·.event) = o.delivered.filter
      (·.kind == .peerLost) ∧
    ∀ x ∈ o.engine.emissions, x.event.kind = .peerLost → x.peers[x.event.peer]? = none := by
  obtain ⟨hf, hc⟩ := announced hr
  have hlists := hf.lists hc
  have hdelivered := delivered_eq (Γ := .any) (fun e world now _ => lawful_any e world now) hr
  refine ⟨fun id => ⟨?_, fun hid => ?_⟩, fun id => ?_, fun info hi => ?_, ?_, fun x hx hk => ?_⟩
  · rintro ⟨info, hi, rfl⟩
    obtain ⟨entry, he, -⟩ := (hlists info).mp hi
    exact Board.mem_known.mpr (congrArg Option.isSome he)
  · obtain ⟨entry, he⟩ := Option.isSome_iff_exists.mp (Board.mem_known.mp hid)
    have hkey := o.engine.mDiscovery.keyed id entry he
    exact ⟨entry.peer.info, (hlists _).mpr ⟨entry, by rw [hkey]; exact he, rfl⟩, hkey⟩
  · rw [hdelivered, ← latest_filter]
    exact hf.told id
  · obtain ⟨entry, he, hi⟩ := (hlists info).mp hi
    have he : o.engine.mDiscovery.mPeers[info.id]? = some entry := he
    rw [Discovery.DiscoveryLogic.find, he, Option.map_some, Option.map_some, hi]
  · rw [hdelivered]
    refine hf.recorded.trans ?_
    simp only [board, List.filter_filter, eventsOf]
    congr 1
    funext event
    cases hk : event.kind == .peerLost <;> simp [EngineEvent.isNews, hk]
  · exact hf.absent x (List.mem_filter.mpr ⟨hx, by simp [hk]⟩)

def sighted : Observed :=
  ({ engine := .new {} 1 } : Observed).step
    { Sample.bound with channel := [.datagram Sample.there (Sample.beaconOf 2)] } 0

theorem discovery_agrees_sighted : latest sighted.delivered 2 = some .peerDiscovered ∧
    ∃ info ∈ sighted.engine.mMailbox.mDiscovered, info.id = 2 := by
  have hr : (system anything).Reachable sighted := reachable_step (reachable_new {} 1) trivial
  have ht : latest sighted.delivered 2 = some .peerDiscovered := by decide +kernel
  exact ⟨ht, ((discovery_agrees hr).1 2).mpr (((discovery_agrees hr).2.1 2).mpr ht)⟩

end Observed

end NetLink.NetworkEngine
