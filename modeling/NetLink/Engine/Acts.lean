import NetLink.Engine.Board
import NetLink.Engine.Hellos
import NetLink.Engine.Loops

/-! A step as a run of what its functions do, each with what its callers know. -/

namespace NetLink.NetworkEngine

open Net (SocketAddress)
open Channel (TimePoint ReliableLink Packet Mailbox SendScheduler DeliveredMessage decodePacket)

/-- The phases of a step: `collect`, `serveTouched` with `settlePeer`, and `eraseEnded`. -/
inductive Stage
  | collect | serve | sweep
  deriving DecidableEq

structure Quiet (e e' : NetworkEngine) : Prop where
  peers : e'.mPeers = e.mPeers
  streams : e'.mByStream = e.mByStream
  mailbox : e'.mMailbox = e.mMailbox
  rings : e'.mScheduler.mRings = e.mScheduler.mRings
  ended : e'.mEnded = e.mEnded
  touched : ∀ id ∈ e.mTouched, id ∈ e'.mTouched
  held : ∀ id ∈ e.mAcksHeldBack, id ∈ e'.mAcksHeldBack
  moments : e'.moments = e.moments
  board : Board.Changes e.mPeers e.board e'.board

inductive Publishes : (Mailbox → Mailbox) → Prop
  | stats (id : PeerId) (stats : PeerStats) : Publishes (·.publishStats id stats)
  | running (running : Bool) : Publishes (·.setRunning running)

inductive Attends : (ReliableLink → ReliableLink) → Prop
  | takeDelivered : Attends (·.takeDelivered.2)
  | peekAck : Attends (·.peekAck.2)
  | commitAck : Attends (·.commitAck)

structure Notes (f : Peer → Peer) : Prop where
  view : ∀ p, (f p).view = p.view
  scheduled : ∀ p, (f p).scheduled = p.scheduled
  heard : ∀ p, ∀ packet ∈ p.heard, packet ∈ (f p).heard
  timed : ∀ p, p.deadline = p.link.nextDeadline → (f p).deadline = (f p).link.nextDeadline

structure Terms where
  commands : Prop
  packets : Prop
  calls : Prop

def Terms.all : Terms := ⟨True, True, True⟩

inductive Act (T : Terms) : Stage → Option PeerId → NetworkEngine → NetworkEngine → Prop
  | quiet {k : Stage} {e e' : NetworkEngine} (h : Quiet e e') : Act T k none e e'
  | publish {k : Stage} (e : NetworkEngine) (f : Mailbox → Mailbox) (hf : Publishes f) :
    Act T k none e (e.withMailbox f)
  | discovered {k : Stage} (e : NetworkEngine) : Act T k none e
      ({ e with mPeersChanged := false }.withMailbox (·.publishDiscovered e.mDiscovery.peers))
  | report {k : Stage} (e : NetworkEngine) (id : PeerId) (reason : DisconnectReason) :
    Act T k (some id) e (e.report id reason)
  | note {k : Stage} (e : NetworkEngine) (id : PeerId) (f : Peer → Peer) (hf : Notes f) :
    Act T k (some id) e (e.modifyPeer id f)
  | sendDecline {k : Stage} (e : NetworkEngine) (id : PeerId) (p : Peer) (now : TimePoint) (h : e.find id = some p)
      (hs : p.state = .awaitingDecision) (hc : k = .collect → T.commands) :
      Act T k (some id) e (e.sendDecline id now)
  | sendClose {k : Stage} (e : NetworkEngine) (id : PeerId) (p : Peer) (now : TimePoint) (h : e.find id = some p)
      (hs : p.state ≠ .awaitingDecision) (hc : k = .collect → T.commands) :
      Act T k (some id) e (e.sendClose id now)
  | erase {k : Stage} (e : NetworkEngine) (id : PeerId) : Act T k (some id) e (e.erase id)
  | sendAccept (e : NetworkEngine) (id : PeerId) (p : Peer) (h : e.find id = some p)
      (hs : p.state = .awaitingDecision) (hc : T.commands) : Act T .collect (some id) e (e.sendAccept id)
  | drain (e : NetworkEngine) (id : PeerId) (p : Peer) (now : TimePoint) (h : e.find id = some p)
      (hs : p.state = .connected) (hc : T.commands) :
      Act T .collect (some id) e ((e.modifyPeer id fun peer => { peer with
        state := .closing
        stateDeadline := some (now + DrainTimeout) }).touch id)
  | openSession (e : NetworkEngine) (id : PeerId) (now : TimePoint) (h : e.find id = none) (hc : T.commands) :
      Act T .collect (some id) e (e.openSession id now)
  | admitPeer (e : NetworkEngine) (origin : SocketAddress) (hello : Session.Hello) (crossing : Bool)
    (now : TimePoint)
      (h : e.find hello.fromInstance = none) (hf : e.isFull = false) :
      Act T .collect (some hello.fromInstance) e (e.admitPeer origin hello crossing now)
  | endAllSessions (e : NetworkEngine) (reason : DisconnectReason) :
    Act T .collect none e (e.endAllSessions reason)
  | pause (e : NetworkEngine) (id : PeerId) (paused : Bool) :
      Act T .collect (some id) e ((e.onLink id (·.setPaused paused)).touch id)
  | timer (e : NetworkEngine) (id : PeerId) (now : TimePoint) :
      Act T .collect (some id) e ((e.onLink id (·.onTimer now)).touch id)
  | packet (e : NetworkEngine) (id : PeerId) (p : Peer) (packet : Packet) (now : TimePoint)
      (h : e.find id = some p) (he : p.ended = false) (hi : packet ∈ p.heard)
      (hd : packet.header.flags.lane ≠ .control → p.transfersData = true) (hp : T.packets) :
      Act T .collect (some id) e ((e.onLink id (·.onPacket packet now)).touch id)
  | overtaken (e : NetworkEngine) (id : PeerId) (p : Peer) (packet : Packet) (now : TimePoint)
      (h : e.find id = some p) (he : p.ended = false) (hs : p.state = .connecting) (hi : packet ∈ p.heard)
      (hp : T.packets) :
      Act T .collect (some id) e (((e.setConnected id).onLink id (·.onPacket packet now)).touch id)
  | ready (e : NetworkEngine) (id : PeerId) (hc : T.commands) :
      Act T .collect (some id) e ((e.modifyPeer id fun peer => { peer with unsettled := true }).touch id)
  | endPeer (e : NetworkEngine) (id : PeerId) : Act T .serve (some id) e (e.endPeer id)
  | call (e : NetworkEngine) (id : PeerId) (f : ReliableLink → ReliableLink) (hf : Attends f) (hc : T.calls) :
      Act T .serve (some id) e (e.onLink id f)
  | setConnected (e : NetworkEngine) (id : PeerId) (p : Peer) (h : e.find id = some p) (he : p.ended = false)
      (hs : p.state = .connecting) : Act T .serve (some id) e (e.setConnected id)
  | settle (e : NetworkEngine) (id : PeerId) (p : Peer) (h : e.find id = some p) (he : p.ended = false)
      (hf : p.link.mFailed = false) (hr : p.link.hasPending .reliable = false)
        (hb : p.link.hasPending .bulk = false) :
      Act T .serve (some id) e (e.settle id).2
  | peek (e : NetworkEngine) (id : PeerId) (lane : Channel.Lane) (hc : T.calls) :
      Act T .serve (some id) e (e.peek id lane).2
  | schedule (e : NetworkEngine) (id : PeerId) (lane : Channel.Lane) :
      Act T .serve (some id) e ({ e with mScheduler := e.mScheduler.add lane id }.setScheduled id lane true)
  | sendOne (e : NetworkEngine) (now : TimePoint) (lane : Channel.Lane) (id : PeerId) (hc : T.calls) :
      Act T .serve (some id) e (sendOne now e lane id).2
  | rings (e : NetworkEngine) (scheduler : SendScheduler) : Act T .serve none e { e with mScheduler := scheduler }

def Acts (T : Terms) (k : Stage) : NetworkEngine → NetworkEngine → Prop :=
  Relation.ReflTransGen fun e e' => ∃ who, Act T k who e e'

variable {T : Terms} {k : Stage} {who : Option PeerId} (e : NetworkEngine) {e' e'' : NetworkEngine} (id : PeerId)
  {p : Peer}

namespace Quiet

lemma refl : Quiet e e := ⟨rfl, rfl, rfl, rfl, rfl, fun _ h => h, fun _ h => h, rfl, .refl⟩

variable {e}

lemma trans (h : Quiet e e') (h' : Quiet e' e'') : Quiet e e'' where
  peers := h'.peers.trans h.peers
  streams := h'.streams.trans h.streams
  mailbox := h'.mailbox.trans h.mailbox
  rings := h'.rings.trans h.rings
  ended := h'.ended.trans h.ended
  touched id hid := h'.touched id (h.touched id hid)
  held id hid := h'.held id (h.held id hid)
  moments := h'.moments.trans h.moments
  board := h.board.trans (h.peers ▸ h'.board)

lemma ite {c : Prop} [Decidable c] (h : Quiet e e') (h' : Quiet e e'') : Quiet e (if c then e' else e'') := by
  split
  · exact h
  · exact h'

lemma of_fields (hp : e'.mPeers = e.mPeers) (hs : e'.mByStream = e.mByStream) (hm : e'.mMailbox = e.mMailbox)
    (hr : e'.mScheduler.mRings = e.mScheduler.mRings) (he : e'.mEnded = e.mEnded) (ht : e'.mTouched = e.mTouched)
    (ha : e'.mAcksHeldBack = e.mAcksHeldBack) (hl : e'.moments = e.moments)
    (hb : Board.Changes e.mPeers e.board e'.board) : Quiet e e' where
  peers := hp
  streams := hs
  mailbox := hm
  rings := hr
  ended := he
  touched id hid := by rwa [ht]
  held id hid := by rwa [ha]
  moments := hl
  board := hb

end Quiet

lemma quiet_touch : Quiet e (e.touch id) :=
  ⟨rfl, rfl, rfl, rfl, rfl, fun _ h => List.mem_append_left _ h, fun _ h => h, rfl, .refl⟩

lemma quiet_record {mark : Mark} (hm : mark.event = none) : Quiet e (e.record mark) :=
  .of_fields rfl rfl rfl rfl rfl rfl rfl rfl (by rw [board_record e hm]; exact .refl)

lemma quiet_emit {event : EngineEvent} (hn : event.isNews = false) : Quiet e (e.emit event) :=
  .of_fields rfl rfl rfl rfl rfl rfl rfl rfl (by rw [board_emit e hn]; exact .refl)

lemma quiet_transmit (address : SocketAddress) (packet : Packet) : Quiet e (e.transmit address packet).2 := by
  obtain ⟨world, posts, blocked, failed, he, -⟩ := transmit_eq e address packet
  rw [he]
  exact .of_fields rfl rfl rfl rfl rfl rfl rfl rfl .refl

lemma quiet_spend : Quiet e { e with mScheduler := e.mScheduler.spend } :=
  .of_fields rfl rfl rfl (SendScheduler.mRings_spend _) rfl rfl rfl rfl .refl

lemma quiet_sendBeacon (destination : SocketAddress) (reply : Bool) :
    Quiet e (e.sendBeacon destination reply) := by
  rw [sendBeacon]
  split
  · exact .refl e
  dsimp only
  split
  · exact .of_fields rfl rfl rfl (SendScheduler.mRings_spend _) rfl rfl rfl rfl .refl
  · exact .of_fields rfl rfl rfl rfl rfl rfl rfl rfl .refl

lemma quiet_onBeacon (origin : SocketAddress) (bytes : List UInt8) (now : TimePoint) :
    Quiet e (e.onBeacon origin bytes now) := by
  rw [onBeacon]
  apply Quiet.ite (.refl e)
  rcases e.mDiscovery.onBeacon_cases origin bytes now with hi | ⟨peer, reply, hi, ho, hr⟩ | ⟨entry, hi, he⟩
  · rw [hi]
    exact .refl e
  · rw [hi]
    have hsighted : Quiet e
      { ({ e with mDiscovery := e.mDiscovery.note peer now }.emit (discoveredEvent peer.info)) with
        mPeersChanged := true } := by
      refine .of_fields rfl rfl rfl rfl rfl rfl rfl rfl (.single ?_)
      have hboard := congrArg (fun b : Board => { b with changed := true })
        (board_emit_discovered { e with mDiscovery := e.mDiscovery.note peer now } peer.info)
      exact (congrArg (Board.Change e.mPeers e.board) hboard).mpr (.sighted peer now ho hr)
    exact .ite (hsighted.trans (quiet_sendBeacon _ _ _)) hsighted
  · rw [hi]
    exact .of_fields rfl rfl rfl rfl rfl rfl rfl rfl (.single (.repeated entry now he))

lemma quiet_forgetPeers (hn : ∀ id, e.find id = none) : Quiet e { e.forgetPeers with mPeersChanged := true } := by
  have hboard := board_forgetPeers e hn
  have hfold : e.forgetPeers = ({ e with mDiscovery := e.mDiscovery.clear.2 } : NetworkEngine).lose
      e.mDiscovery.mPeers.keys := foldl_emit_lost _ _
  rw [hfold] at hboard ⊢
  exact .of_fields rfl rfl rfl rfl rfl rfl rfl rfl hboard

lemma quiet_bind (iface : LocalInterface) : Quiet e (e.bind iface) := by
  rw [bind]
  dsimp only
  split
  · exact .of_fields rfl rfl rfl rfl rfl rfl rfl rfl .refl
  · refine Quiet.trans ?_ (quiet_emit _ rfl)
    exact .of_fields rfl rfl rfl rfl rfl rfl rfl rfl .refl

lemma quiet_tick (now : TimePoint) : Quiet e (e.tick now) := by
  have hboard := board_tick e now
  rw [tick_eq] at hboard ⊢
  exact .of_fields rfl rfl rfl rfl rfl rfl rfl rfl hboard

lemma quiet_announce : Quiet e e.announce := by
  have hannounced : Quiet e { e with mBeaconDue := false } := .of_fields rfl rfl rfl rfl rfl rfl rfl rfl .refl
  rw [announce]
  exact .ite (hannounced.trans (quiet_sendBeacon _ _ _)) hannounced

namespace Acts

variable {e}

lemma single (h : Act T k who e e') : Acts T k e e' := Relation.ReflTransGen.single ⟨who, h⟩

lemma trans (h : Acts T k e e') (h' : Acts T k e' e'') : Acts T k e e'' := Relation.ReflTransGen.trans h h'

lemma quiet (h : Quiet e e') : Acts T k e e' := single (.quiet h)

lemma ite {c : Prop} [Decidable c] (h : Acts T k e e') (h' : Acts T k e e'') :
    Acts T k e (if c then e' else e'') := by
  split
  · exact h
  · exact h'

lemma foldl {α : Type} {f : NetworkEngine → α → NetworkEngine} (hf : ∀ e x, Acts T k e (f e x)) (xs : List α)
    (e : NetworkEngine) : Acts T k e (xs.foldl f e) := by
  induction xs generalizing e with
  | nil => exact .refl
  | cons x xs ih => exact (hf e x).trans (ih (f e x))

lemma invariant {P : NetworkEngine → Prop} (hp : ∀ e e' who, P e → Act T k who e e' → P e') (h : Acts T k e e')
    (he : P e) :
    P e' := by
  induction h with
  | refl => exact he
  | tail _ ha ih =>
    obtain ⟨who, ha⟩ := ha
    exact hp _ _ who ih ha

end Acts

lemma acts_startSession (hc : T.commands) (now : TimePoint) : Acts T .collect e (e.startSession id now) := by
  rw [startSession]
  split
  · exact .refl
  split
  · next h => exact .single (.openSession e id now h hc)
  next p h =>
  split
  · next hs => exact .single (.sendAccept e id p h hs hc)
  split
  · exact .refl
  · exact (Acts.single (.erase e id)).trans (.single (.openSession _ id now (find_erase e) hc))

variable {id}

lemma acts_close (h : e.find id = some p) (hs : p.state ≠ .awaitingDecision) (hc : k = .collect → T.commands)
    (reason : DisconnectReason) (now : TimePoint) : Acts T k e ((e.report id reason).sendClose id now) :=
  (Acts.single (.report e id reason)).trans (.single (.sendClose _ id p.told now (find_report e h reason) hs hc))

lemma acts_endSession (hc : T.commands) (now : TimePoint) :
    Acts T .collect e (e.endSession id now) := by
  rw [endSession]
  split
  · exact .refl
  next p h =>
  split
  · next hs => exact .single (.drain e id p now h hs hc)
  · next hs => exact .single (.sendDecline e id p now h hs fun _ => hc)
  · next hs => exact acts_close e h (by simp [hs]) (fun _ => hc) _ now
  · exact .refl

lemma acts_shutdownPeer (hc : T.commands) (now : TimePoint) (id : PeerId) :
    Acts T .collect e (shutdownPeer now e id) := by
  have hreported : Acts T .collect e (e.report id .shutdown) := .single (.report e id .shutdown)
  rw [shutdownPeer]
  split
  · exact hreported
  next p h =>
  split
  · next hs => exact hreported.trans (.single (.sendDecline _ id p now h hs fun _ => hc))
  next hs =>
  exact .ite (hreported.trans (.single (.sendClose _ id p now h hs fun _ => hc))) hreported

lemma acts_beginShutdown (hc : T.commands) (now : TimePoint) : Acts T .collect e (e.beginShutdown now) := by
  rw [beginShutdown]
  apply Acts.ite .refl
  have hoff : Acts T .collect e { e with mShutdown := true, mDiscovery := e.mDiscovery.setAnnouncing false } :=
    .quiet (.of_fields rfl rfl rfl rfl rfl rfl rfl rfl .refl)
  exact (hoff.trans (.foldl (fun e id => acts_shutdownPeer e hc now id) e.mPeers.keys _)).trans
    (.single (.publish _ _ (.running false)))

lemma acts_apply (hc : T.commands) (now : TimePoint) (c : Mailbox.PostedCommand) :
    Acts T .collect e (apply now e c) := by
  obtain ⟨command, id⟩ := c
  have hrecorded : Acts T .collect e (e.record (.applied command id)) := .quiet (quiet_record e rfl)
  rw [apply]
  refine hrecorded.trans ?_
  cases command with
  | connect => exact acts_startSession _ id hc now
  | accept =>
    dsimp only
    split
    · next hs =>
      obtain ⟨p, h, hs⟩ := (Option.any_eq_true _ _).mp hs
      exact .single (.sendAccept _ id p h (by simpa using hs) hc)
    · exact .refl
  | decline =>
    dsimp only
    split
    · next hs =>
      obtain ⟨p, h, hs⟩ := (Option.any_eq_true _ _).mp hs
      exact .single (.sendDecline _ id p now h (by simpa using hs) fun _ => hc)
    · exact .refl
  | disconnect => exact acts_endSession _ hc now
  | announce => exact .quiet (.of_fields rfl rfl rfl rfl rfl rfl rfl rfl .refl)
  | stopAnnouncing => exact .quiet (.of_fields rfl rfl rfl rfl rfl rfl rfl rfl .refl)
  | checkInterface => exact .quiet (.of_fields rfl rfl rfl rfl rfl rfl rfl rfl .refl)
  | resumeReceiving => exact .refl
  | shutdown => exact acts_beginShutdown _ hc now

lemma acts_markReady (hc : T.commands) (id : PeerId) : Acts T .collect e (e.markReady id) := by
  rw [markReady]
  exact .ite .refl (.single (.ready e id hc))

lemma acts_applyCommands (hc : T.commands) (now : TimePoint) : Acts T .collect e (e.applyCommands now) :=
  (Acts.foldl (fun e c => acts_apply e hc now c) _ e).trans (.foldl (fun e id => acts_markReady e hc id) _ _)

def Bound (e : NetworkEngine) : Prop := e.mIoSocket = none → ∀ id, e.find id = none

lemma find_endAllSessions (reason : DisconnectReason) (i : PeerId) : (e.endAllSessions reason).find i = none := by
  simp [find, endAllSessions]

lemma acts_leave (hb : e.Bound) (reason : DisconnectReason) (current : Option LocalInterface) : Acts T .collect e
    { (if e.mIoSocket.isSome then e.endAllSessions reason else e).forgetPeers with
      mPeersChanged := true
      mInterface := current }.closeSockets := by
  have hended : Acts T .collect e (if e.mIoSocket.isSome then e.endAllSessions reason else e) :=
    .ite (.single (.endAllSessions e reason)) .refl
  have hnone : ∀ id, (if e.mIoSocket.isSome then e.endAllSessions reason else e).find id = none := by
    intro id
    split
    · exact find_endAllSessions e reason id
    · next hs => exact hb (by simpa using hs) id
  refine hended.trans ((Acts.quiet (quiet_forgetPeers _ hnone)).trans ?_)
  exact .quiet (.of_fields rfl rfl rfl rfl rfl rfl rfl rfl .refl)

lemma acts_updateInterface (hb : e.Bound) (socketFailed : Bool) :
    Acts T .collect e (e.updateInterface socketFailed) := by
  have hchecked : Acts T .collect e { e with mCheckInterface := false } :=
    .quiet (.of_fields rfl rfl rfl rfl rfl rfl rfl rfl .refl)
  have hbind : ∀ (e : NetworkEngine) (iface : LocalInterface), Acts T .collect e (e.bind iface) :=
    fun e iface => .quiet (quiet_bind e iface)
  rw [updateInterface]
  refine hchecked.trans ?_
  have hb : Bound { e with mCheckInterface := false } := hb
  generalize { e with mCheckInterface := false } = e at hb
  dsimp only
  split
  · split
    · exact .refl
    · exact .ite (hbind _ _) .refl
  · split
    · exact acts_leave e hb _ _
    · exact .ite ((acts_leave e hb _ _).trans (hbind _ _)) (acts_leave e hb _ _)

lemma acts_lookAtInterface (hb : e.Bound) (due : Bool) : Acts T .collect e (e.lookAtInterface due) := by
  have hseen : Acts T .collect e { e with mSocketFailed := false } :=
    .quiet (.of_fields rfl rfl rfl rfl rfl rfl rfl rfl .refl)
  rw [lookAtInterface]
  exact .ite (hseen.trans (acts_updateInterface { e with mSocketFailed := false } hb _)) .refl

lemma acts_updatePause : Acts T .collect e e.updatePause := by
  have hpaused : Acts T .collect e { e with mPaused := !e.mPaused } :=
    .quiet (.of_fields rfl rfl rfl rfl rfl rfl rfl rfl .refl)
  rw [updatePause]
  exact .ite .refl (hpaused.trans (.foldl (fun e id => .single (.pause e id e.mPaused)) _ _))

lemma acts_receive (ht : T.packets) (id : PeerId) (origin : SocketAddress) (packet : Packet) (now : TimePoint) :
    Acts T .collect e (e.receive id origin packet now) := by
  have hheard : Acts T .collect e (e.hear id packet) :=
    .single (.note e id _ ⟨fun _ => rfl, fun _ => rfl, fun _ _ h => List.mem_append_left _ h, fun _ h => h⟩)
  rw [receive]
  split
  · exact .refl
  next p h =>
  split
  · exact .refl
  next hp =>
  have he : p.ended = false := (by simpa using hp : p.ended = false ∧ p.address = origin).1
  have hin : packet ∈ p.heard ++ [packet] := by simp
  split
  · split
    · exact .refl
    next ha =>
    simp only [not_or, not_not] at ha
    exact hheard.trans (.single (.overtaken _ id _ packet now (find_hear e h packet) he ha.1 hin ht))
  · next hd =>
    have hd : packet.header.flags.lane ≠ .control → p.transfersData = true := fun hl => by simpa [hl] using hd
    exact hheard.trans (.single (.packet _ id _ packet now (find_hear e h packet) he hin hd ht))

lemma acts_makeWay {way : Bool × NetworkEngine} (hw : e.makeWay id = some way) : Acts T .collect e way.2 := by
  rw [makeWay] at hw
  split at hw
  · obtain rfl := Option.some.inj hw
    exact .refl
  split at hw
  · split at hw
    · simp at hw
    · obtain rfl := Option.some.inj hw
      exact .single (.erase e id)
  · obtain rfl := Option.some.inj hw
    exact (Acts.single (.report e id .lost)).trans (.single (.erase _ id))

lemma acts_answerHello (ht : T.packets) (origin : SocketAddress) (packet : Packet) (hello : Session.Hello)
    (now : TimePoint) :
    Acts T .collect e (e.answerHello origin packet now hello) := by
  rw [answerHello]
  split
  · exact .refl
  next crossing way hw =>
  have hway := acts_makeWay (T := T) e hw
  split
  · exact hway
  · next hf =>
    exact (hway.trans (.single (.admitPeer _ origin hello crossing now (find_makeWay e hw)
      (by simpa using hf)))).trans (acts_receive _ ht _ origin packet now)

lemma acts_handleDatagram (ht : T.packets) (now : TimePoint) (d : SocketAddress × List UInt8) :
    Acts T .collect e (handleDatagram now e d) := by
  rw [handleDatagram]
  split
  · exact .quiet (quiet_onBeacon e _ _ now)
  next hn =>
  split
  · exact .refl
  next packet hd =>
  rcases handlePacket_cases e d.1 packet now with he | ⟨id, p, h, hr, he⟩ | ⟨hello, h, he⟩
  · rw [he]
    exact .refl
  · rw [he]
    exact acts_receive e ht id d.1 packet now
  · rw [he]
    exact acts_answerHello e ht d.1 packet hello now

lemma acts_receivePending (ht : T.packets) (now : TimePoint) : Acts T .collect e (e.receivePending now) := by
  have hbeacon : ∀ (e : NetworkEngine) (d : SocketAddress × List UInt8),
    Acts T .collect e (e.onBeacon d.1 d.2 now) :=
    fun e d => .quiet (quiet_onBeacon e d.1 d.2 now)
  have hreceived : Acts T .collect e ((drained MaxDatagramsPerPass e.world.channel).foldl
    (handleDatagram now) e) :=
    .foldl (fun e d => acts_handleDatagram e ht now d) _ e
  rw [receivePending]
  split
  · exact .refl
  · exact .ite (hreceived.trans (.foldl hbeacon _ _)) hreceived

lemma acts_serviceTimer (now : TimePoint) (id : PeerId) : Acts T .collect e (serviceTimer now e id) := by
  rw [serviceTimer]
  split
  · exact .refl
  next p h =>
  have htimed : Acts T .collect e
    (if p.deadline.any (· ≤ now) then (e.onLink id (·.onTimer now)).touch id else e) :=
    .ite (.single (.timer e id now)) .refl
  exact .ite (htimed.trans (.quiet (quiet_touch _ id))) htimed

lemma sortedUnique_eq (ids : List PeerId) : sortedUnique ids = (ids.insertionSort (· ≤ ·)).dedup :=
  (List.pairwise_insertionSort (· ≤ ·) ids).destutter_eq_dedup

lemma mem_sortedUnique {ids : List PeerId} : id ∈ sortedUnique ids ↔ id ∈ ids := by
  rw [sortedUnique_eq, List.mem_dedup, List.mem_insertionSort]

lemma acts_afterCommands (ht : T.packets) (world : World) (now : TimePoint) (hs : Sound e.view) :
    Acts T .collect ((e.beginStep world).applyCommands now) (e.collect world now) := by
  have hbound : Bound ((e.beginStep world).applyCommands now) := by
    have hrun := reaches_applyCommands (Γ := .any) (e.beginStep world) now (lawful_any e world now).commands hs
    exact fun hn id => Option.map_eq_none_iff.mp ((hs.run hrun).bound hn id)
  have hbefore : Acts T .collect _ (e.beforeReceiving world now) :=
    (acts_lookAtInterface _ hbound _).trans (acts_updatePause _)
  have hreceived := hbefore.trans (acts_receivePending _ ht now)
  have htimers : Acts T .collect _ ((e.beforeReceiving world now).receivePending now |>.serviceTimers now) :=
    hreceived.trans (.foldl (fun e id => acts_serviceTimer e now id) _ _)
  have hticked := fun due : Bool => htimers.trans (.ite (c := due = true) (.quiet (quiet_tick _ now)) .refl)
  have hannounced := (hticked (((e.beginStep world).applyCommands now).tickDue now)).trans
    (.quiet (quiet_announce _))
  rw [collect]
  refine hannounced.trans (.quiet ?_)
  exact ⟨rfl, rfl, rfl, rfl, rfl, fun id hid => mem_sortedUnique.mpr hid, fun _ h => h, rfl, .refl⟩

lemma acts_collect (world : World) (now : TimePoint) (hs : Sound e.view) :
    Acts .all .collect (e.beginStep world) (e.collect world now) :=
  (acts_applyCommands _ trivial now).trans (acts_afterCommands e trivial world now hs)

lemma acts_onControl (message : DeliveredMessage) : Acts T .serve e (e.onControl id message) := by
  have hfinish : ∀ reason, Acts T .serve e ((e.report id reason).endPeer id) :=
    fun reason => (Acts.single (.report e id reason)).trans (.single (.endPeer _ id))
  rw [onControl]
  split
  · exact .refl
  next p h =>
  split
  · exact .refl
  next he =>
  have he : p.ended = false := by simpa using he
  split
  · exact .refl
  · exact .refl
  · split
    · next hs =>
      dsimp only
      split
      · exact .single (.setConnected e id p h he hs.1)
      · refine (Acts.single (.note e id _ ?_)).trans (.single (.setConnected _ id _
          ((find_modifyPeer_self e id _).trans (congrArg _ h)) he hs.1))
        exact ⟨fun _ => rfl, fun _ => rfl, fun _ _ h => h, fun _ h => h⟩
    · exact .refl
  · exact .ite (hfinish _) .refl
  · exact hfinish _

lemma acts_deliver (message : DeliveredMessage) : Acts T .serve e (e.deliver id message) := by
  rw [deliver]
  apply Acts.ite (acts_onControl e message)
  apply Acts.ite .refl
  refine .ite (.trans ?_ (.quiet (quiet_emit _ rfl))) (.quiet (quiet_emit e rfl))
  rw [pushMedia]
  refine (Acts.single (.note e id _ ?_)).trans (.quiet (.of_fields rfl rfl rfl rfl rfl rfl rfl rfl .refl))
  exact ⟨fun _ => rfl, fun _ => rfl, fun _ _ h => h, fun _ h => h⟩

lemma acts_finishClosing (h : e.find id = some p) (he : p.ended = false) (hf : p.link.mFailed = false)
    (hs : p.state = .closing) (now : TimePoint) (expired : Bool) :
    Acts T .serve e (e.finishClosing id p now expired) := by
  have hstate : p.state ≠ .awaitingDecision := by simp [hs]
  rw [finishClosing]
  cases expired with
  | true => exact acts_close e h hstate (by simp) .localEnd now
  | false =>
    rw [if_neg Bool.false_ne_true]
    by_cases hp : (p.link.hasPending .reliable || p.link.hasPending .bulk) = true
    · rw [if_pos hp]
      exact .refl
    · rw [if_neg hp]
      obtain ⟨hr, hb⟩ := Bool.or_eq_false_iff.mp (Bool.eq_false_iff.mpr hp)
      have hsettled : Acts T .serve e (e.settle id).2 := .single (.settle e id p h he hf hr hb)
      dsimp only
      split
      · exact hsettled.trans (acts_close _ (by simpa using h) hstate (by simp) .localEnd now)
      · exact hsettled

lemma acts_advanceState (now : TimePoint) (hf : (e.linkOf id).all (!·.mFailed)) :
    Acts T .serve e (e.advanceState id now) := by
  rw [advanceState]
  split
  · exact .refl
  next p h =>
  have hf : p.link.mFailed = false := by simpa [linkOf, h] using hf
  dsimp only
  split
  · exact .refl
  next he =>
  have he : p.ended = false := by simpa using he
  split
  · next hs => exact .ite (.single (.setConnected e id p h he hs)) .refl
  · next hs => exact .ite (.single (.sendDecline e id p now h hs (by simp))) .refl
  · exact .refl
  · next hs =>
    split
    · exact .ite (.single (.endPeer e id)) .refl
    · exact acts_finishClosing e h he hf hs now _

lemma acts_advance (hc : T.calls) (now : TimePoint) : Acts T .serve e (e.advance id now) := by
  rw [advance]
  split
  · exact .refl
  next p h =>
  split
  · exact .refl
  split
  · exact (Acts.single (.report e id .lost)).trans (.single (.endPeer _ id))
  next hf =>
  have htaken : Acts T .serve e (e.putLink id (e.lend p).takeDelivered.2) := by
    have hon : e.putLink id (e.lend p).takeDelivered.2 = e.onLink id (·.takeDelivered.2) := by rw [onLink, h]
    rw [hon]
    exact .single (.call e id _ .takeDelivered hc)
  have halive := alive_delivers e h (l := (e.lend p).takeDelivered.2) (Bool.eq_false_iff.mpr hf) p.link.mDelivered
  exact htaken.trans ((Acts.foldl (fun e m => acts_deliver e m) _ _).trans (acts_advanceState _ now halive))

lemma acts_sendAcks (hc : T.calls) : Acts T .serve e (e.sendAcks id) :=
  sendAcks_keeps e (fun _ => .refl) (fun h h' => h.trans h') (fun e => .single (.call e id _ .peekAck hc))
    (fun e p ack _ _ => .quiet (quiet_transmit e p.address ack)) (fun e => .single (.call e id _ .commitAck hc))
    (fun _ => .quiet ⟨rfl, rfl, rfl, rfl, rfl, fun _ h => h, fun _ h => List.mem_append_left _ h, rfl, .refl⟩)
    fun e => .quiet (quiet_spend e)

lemma acts_scheduleLane (hc : T.calls) (lane : Channel.Lane) : Acts T .serve e (scheduleLane id e lane) :=
  have hpeek : Acts T .serve e (e.peek id lane).2 := .single (.peek e id lane hc)
  scheduleLane_keeps e .refl hpeek (hpeek.trans (.single (.schedule _ id lane)))

lemma acts_serve (hc : T.calls) (now : TimePoint) (id : PeerId) : Acts T .serve e (serve now e id) := by
  have hserved : Acts T .serve e ((e.advance id now).sendAcks id) :=
    (acts_advance e hc now).trans (acts_sendAcks _ hc)
  rw [serve]
  exact .ite .refl (.ite (hserved.trans (.foldl (fun e lane => acts_scheduleLane e hc lane) _ _)) hserved)

lemma acts_sendData (hc : T.calls) (now : TimePoint) : Acts T .serve e (e.sendData now) := by
  have hrun := SendScheduler.run_keeps (sendOne now) (P := fun e' => Acts T .serve e e')
    (fun e' lane id h => h.trans (.single (.sendOne e' now lane id hc)))
    (e.world.sends.length + e.mScheduler.waiting + 1) e.mScheduler e .refl
  exact hrun.trans (.single (.rings _ _))

lemma acts_serveTouched (hc : T.calls) (now : TimePoint) : Acts T .serve e (e.serveTouched now) := by
  have hserved : Acts T .serve e (e.mTouched.foldl (serve now) e) :=
    .foldl (fun e id => acts_serve e hc now id) _ _
  rw [serveTouched]
  exact .ite hserved (hserved.trans (acts_sendData _ hc now))

def Alive (e : NetworkEngine) : Prop := ∀ id p, e.find id = some p → p.ended = false → p.link.mFailed = false

variable {e}

lemma Alive.of_view (h : e.Alive) (hv : e'.view = e.view) : e'.Alive := by
  intro id p hp he
  have hs : e.view.sessions id = some p.view := by rw [← hv, sessions_view e' hp]
  obtain ⟨q, hq, hqp⟩ := Option.map_eq_some_iff.mp hs
  have hl : q.link = p.link := congrArg SessionView.link hqp
  have hen : q.ended = p.ended := congrArg SessionView.ended hqp
  rw [← hl]
  exact h id q hq (hen.trans he)

variable (e)

lemma notes_noteMedia : Notes Peer.noteMedia := by
  refine ⟨fun p => ?_, fun p => ?_, fun p packet h => ?_, fun p h => ?_⟩
  · rw [Peer.noteMedia]
    dsimp only
    split <;> rfl
  · rw [Peer.noteMedia]
    dsimp only
    split <;> rfl
  all_goals
    rw [Peer.noteMedia]
    dsimp only
    split <;> exact h

lemma acts_publishStats (id : PeerId) : Acts T .serve e (e.publishStats id) := by
  have hnoted : Acts T .serve e (e.modifyPeer id Peer.noteMedia) := .single (.note e id _ notes_noteMedia)
  rw [publishStats]
  split
  · exact hnoted
  · exact hnoted.trans (.single (.publish _ _ (.stats id _)))

lemma hasPending_of_hasPendingReliable {l : ReliableLink} (h : l.hasPendingReliable = false) :
    l.hasPending .reliable = false ∧ l.hasPending .bulk = false := by
  have hl := List.any_eq_false.mp h
  exact ⟨Bool.eq_false_iff.mpr (hl .reliable (by decide)), Bool.eq_false_iff.mpr (hl .bulk (by decide))⟩

lemma acts_settlePeer (ha : e.Alive) (id : PeerId) : Acts T .serve e (e.settlePeer id) := by
  rw [settlePeer]
  split
  · exact .refl
  next p h =>
  split
  · exact .refl
  next he =>
  have he : p.ended = false := by simpa using he
  have htimed : Acts T .serve e (e.modifyPeer id fun peer => { peer with deadline := peer.link.nextDeadline }) :=
    .single (.note e id _ ⟨fun _ => rfl, fun _ => rfl, fun _ _ h => h, fun _ _ => rfl⟩)
  have hfind : (e.modifyPeer id fun peer => { peer with deadline := peer.link.nextDeadline }).find id =
      some { p with deadline := p.link.nextDeadline } := by
    rw [find_modifyPeer_self, h, Option.map_some]
  generalize (e.modifyPeer id fun peer => { peer with deadline := peer.link.nextDeadline }) = timed at htimed hfind
  have hsettled : Acts T .serve timed (if p.unsettled && !p.link.hasPendingReliable then
      (timed.settle id).2.modifyPeer id fun peer => { peer with unsettled := !(timed.settle id).1 }
        else timed) := by
    split
    · next hp =>
      have hp : p.unsettled = true ∧ p.link.hasPendingReliable = false := by simpa using hp
      obtain ⟨hr, hb⟩ := hasPending_of_hasPendingReliable hp.2
      refine (Acts.single (.settle timed id _ hfind he (ha id p h he) hr hb)).trans (.single (.note _ id _ ?_))
      exact ⟨fun _ => rfl, fun _ => rfl, fun _ _ h => h, fun _ h => h⟩
    · exact .refl
  exact .ite ((htimed.trans hsettled).trans (acts_publishStats _ id)) (htimed.trans hsettled)

lemma acts_settlePeers (ha : e.Alive) (ids : List PeerId) : Acts T .serve e (ids.foldl settlePeer e) := by
  induction ids generalizing e with
  | nil => exact .refl
  | cons id ids ih => exact (acts_settlePeer e ha id).trans (ih _ (ha.of_view (view_settlePeer e id)))

lemma acts_finishStep (now : TimePoint) : Acts T k e (e.finishStep now) := by
  have hchanged : Acts T k e (if e.mPeersChanged then
      { e with mPeersChanged := false }.withMailbox (·.publishDiscovered e.mDiscovery.peers) else e) := by
    exact .ite (.single (.discovered e)) .refl
  rw [finishStep]
  exact hchanged.trans (.quiet (.of_fields rfl rfl rfl rfl rfl rfl rfl rfl .refl))

end NetLink.NetworkEngine
