import NetLink.Engine.View
import NetLink.Lib.Maps

/-! What an engine knows of the peers around it, and what it tells of them. -/

namespace NetLink

open Std (TreeMap)

namespace Discovery.DiscoveryLogic

open Net (SocketAddress)
open Channel (TimePoint)

variable (d : DiscoveryLogic)

lemma onBeacon_cases (origin : SocketAddress) (datagram : List UInt8) (now : TimePoint) :
    d.onBeacon origin datagram now = ({}, d) ∨
    (∃ peer reply, d.onBeacon origin datagram now = (⟨.new, some peer, reply⟩, d.note peer now) ∧
      peer.info.id ≠ d.mIdentity.instanceId ∧
      (peer.info.id ∈ d.mPeers ∨ d.mPeers.size < MaxDiscoveredPeers)) ∨
    ∃ entry : Entry, d.onBeacon origin datagram now = (⟨.known, some entry.peer, false⟩, d.note entry.peer now) ∧
      d.mPeers[entry.peer.info.id]? = some entry := by
  rw [onBeacon]
  split
  · exact .inl rfl
  next b _ =>
  split
  · exact .inl rfl
  next hok =>
  have hown : (sightingOf b origin).info.id ≠ d.mIdentity.instanceId := fun h => hok (.inl h)
  split
  · next hnone =>
    dsimp only
    split
    · exact .inl rfl
    · next hroom => exact .inr (.inl ⟨_, _, rfl, hown, .inr (not_le.mp hroom)⟩)
  · next entry hentry =>
    have hid := d.keyed _ entry hentry
    split
    · refine .inr (.inl ⟨_, _, rfl, hown, .inl ?_⟩)
      rw [TreeMap.mem_iff_isSome_getElem?]
      exact congrArg Option.isSome hentry
    · exact .inr (.inr ⟨entry, rfl, by rw [hid, hentry]⟩)

lemma expire_spec (now : TimePoint) (hasSession : PeerId → Bool) :
    (∀ id ∈ (d.expire now hasSession).1, hasSession id = false) ∧
    ∀ id : PeerId, (d.expire now hasSession).2.mPeers[id]? =
      if id ∈ (d.expire now hasSession).1 then none else d.mPeers[id]? := by
  have hlost : ∀ id, id ∈ (d.expire now hasSession).1 ↔ ∃ entry, d.mPeers[id]? = some entry ∧
      (decide (now - entry.lastSeen < PeerExpiry) || hasSession id) = false := by
    intro id
    simp only [expire, List.mem_map, List.mem_filter]
    constructor
    · rintro ⟨⟨j, entry⟩, ⟨hj, hk⟩, rfl⟩
      exact ⟨entry, TreeMap.mem_toList_iff_getElem?_eq_some.mp hj, by simpa using hk⟩
    · rintro ⟨entry, hj, hk⟩
      exact ⟨(id, entry), ⟨TreeMap.mem_toList_iff_getElem?_eq_some.mpr hj, by simpa using hk⟩, rfl⟩
  refine ⟨fun id hid => ?_, fun id => ?_⟩
  · obtain ⟨entry, -, hk⟩ := (hlost id).mp hid
    exact (Bool.or_eq_false_iff.mp hk).2
  · have hkept : (d.expire now hasSession).2.mPeers[id]? = d.mPeers[id]?.filter fun entry =>
        decide (now - entry.lastSeen < PeerExpiry) || hasSession id := TreeMap.getElem?_filter'
    rw [hkept]
    cases hentry : d.mPeers[id]? with
    | none => simp
    | some entry =>
      cases hk : decide (now - entry.lastSeen < PeerExpiry) || hasSession id with
      | true =>
        have hnot : id ∉ (d.expire now hasSession).1 := by
          rw [hlost, hentry]
          rintro ⟨other, hother, hk'⟩
          obtain rfl := Option.some.inj hother
          rw [hk] at hk'
          cases hk'
        rw [if_neg hnot, Option.filter_some, if_pos hk]
      | false =>
        rw [if_pos ((hlost id).mpr ⟨entry, hentry, hk⟩), Option.filter_some, hk]
        rfl

end Discovery.DiscoveryLogic

def EngineEvent.isNews (event : EngineEvent) : Bool := event.kind == .peerDiscovered || event.kind == .peerLost

def latest (events : List EngineEvent) (id : PeerId) : Option EngineEvent.Kind :=
  ((events.filter fun event => event.isNews && event.peer == id).getLast?).map (·.kind)

lemma latest_append {events : List EngineEvent} {event : EngineEvent} (hn : event.isNews = true) (id : PeerId) :
    latest (events ++ [event]) id = if event.peer = id then some event.kind else latest events id := by
  by_cases hid : event.peer = id
  · simp [latest, List.filter_append, hn, hid]
  · simp [latest, List.filter_append, hid]

namespace NetworkEngine

open Net (SocketAddress)
open Channel (TimePoint)
open Discovery (Entry KnownPeer MaxDiscoveredPeers)

structure Board where
  own : PeerId
  known : TreeMap PeerId Entry
  changed : Bool
  published : List PeerInfo
  news : List EngineEvent
  lost : List Emission

def board (e : NetworkEngine) : Board where
  own := e.mDiscovery.mIdentity.instanceId
  known := e.mDiscovery.mPeers
  changed := e.mPeersChanged
  published := e.mMailbox.mDiscovered
  news := (e.history.filterMap Mark.event).filter (·.isNews)
  lost := e.emissions.filter (·.event.kind == .peerLost)

def discoveredEvent (info : PeerInfo) : EngineEvent := { kind := .peerDiscovered, peer := info.id, info := info }

def lostEvent (id : PeerId) : EngineEvent := { kind := .peerLost, peer := id }

namespace Board

def Lists (b : Board) : Prop :=
  ∀ info : PeerInfo, info ∈ b.published ↔ ∃ entry : Entry, b.known[info.id]? = some entry ∧ entry.peer.info = info

inductive Change (peers : TreeMap PeerId Peer) (b : Board) : Board → Prop
  | sighted (peer : KnownPeer) (now : TimePoint) (ho : peer.info.id ≠ b.own)
      (hr : peer.info.id ∈ b.known ∨ b.known.size < MaxDiscoveredPeers) :
      Change peers b { b with
        known := b.known.insert peer.info.id ⟨peer, now⟩
        changed := true
        news := b.news ++ [discoveredEvent peer.info] }
  | repeated (entry : Entry) (now : TimePoint) (h : b.known[entry.peer.info.id]? = some entry) :
      Change peers b { b with known := b.known.insert entry.peer.info.id ⟨entry.peer, now⟩ }
  | forgotten (ids : List PeerId) (known : TreeMap PeerId Entry) (changed : Bool)
      (hk : ∀ id : PeerId, known[id]? = if id ∈ ids then none else b.known[id]?)
      (hs : ∀ id ∈ ids, peers[id]? = none) (hc : changed = false → b.changed = false ∧ ids = []) :
      Change peers b { b with
        known := known
        changed := changed
        news := b.news ++ ids.map lostEvent
        lost := b.lost ++ ids.map fun id => ⟨lostEvent id, peers⟩ }
  | published (infos : List PeerInfo) (hl : { b with published := infos }.Lists) :
      Change peers b { b with changed := false, published := infos }

structure Faithful (b : Board) : Prop where
  room : b.known.size ≤ MaxDiscoveredPeers
  stranger : b.own ∉ b.known
  told : ∀ id, id ∈ b.known ↔ latest b.news id = some .peerDiscovered
  lists : b.changed = false → b.Lists
  recorded : b.lost.map (·.event) = b.news.filter (·.kind == .peerLost)
  absent : ∀ x ∈ b.lost, x.peers[x.event.peer]? = none

variable {peers : TreeMap PeerId Peer} {b b' b'' : Board}

lemma mem_known {known : TreeMap PeerId Entry} {id : PeerId} : id ∈ known ↔ known[id]?.isSome :=
  TreeMap.mem_iff_isSome_getElem?

lemma getElem?_insert_known (known : TreeMap PeerId Entry) (id j : PeerId) (entry : Entry) :
    (known.insert id entry)[j]? = if id = j then some entry else known[j]? := by
  simp [TreeMap.getElem?_insert]

lemma latest_forgotten (events : List EngineEvent) (ids : List PeerId) (id : PeerId) :
    latest (events ++ ids.map lostEvent) id = if id ∈ ids then some .peerLost else latest events id := by
  induction ids generalizing events with
  | nil => simp
  | cons j ids ih =>
    rw [List.map_cons, ← List.singleton_append, ← List.append_assoc, ih, latest_append rfl]
    by_cases hid : id ∈ ids
    · simp [hid]
    · by_cases hj : j = id
      · simp [lostEvent, hj]
      · simp [lostEvent, hid, hj, Ne.symm hj]

lemma Faithful.change (h : b.Faithful) (hc : Change peers b b') : b'.Faithful := by
  cases hc with
  | sighted peer now ho hr =>
    refine ⟨?_, fun hm => ?_, fun id => ?_, fun hc => (by cases hc), ?_, h.absent⟩
    · rw [TreeMap.size_insert]
      have hroom := h.room
      split
      · exact hroom
      · next hn => exact hr.resolve_left fun hm => hn (TreeMap.mem_iff_contains.mp hm)
    · rw [mem_known, getElem?_insert_known, if_neg ho, ← mem_known] at hm
      exact h.stranger hm
    · rw [mem_known, getElem?_insert_known, latest_append rfl]
      by_cases hid : peer.info.id = id
      · simp [discoveredEvent, hid]
      · simp only [discoveredEvent, hid, if_false, ← mem_known, h.told]
    · simpa [discoveredEvent, List.filter_append] using h.recorded
  | repeated entry now he =>
    have hsame : ∀ id : PeerId, (b.known.insert entry.peer.info.id ⟨entry.peer, now⟩)[id]?.map (·.peer) =
        b.known[id]?.map (·.peer) := by
      intro id
      rw [getElem?_insert_known]
      split
      · next hid => rw [← hid, he, Option.map_some, Option.map_some]
      · rfl
    have hmem : ∀ id, id ∈ b.known.insert entry.peer.info.id ⟨entry.peer, now⟩ ↔ id ∈ b.known := by
      intro id
      have hsome := congrArg Option.isSome (hsame id)
      rw [Option.isSome_map, Option.isSome_map] at hsome
      rw [mem_known, mem_known, hsome]
    refine ⟨?_, fun hm => h.stranger ((hmem _).mp hm), fun id => (hmem id).trans (h.told id), fun hc info => ?_,
      h.recorded, h.absent⟩
    · rw [TreeMap.size_insert, if_pos (TreeMap.mem_iff_contains.mp (mem_known.mpr (congrArg Option.isSome he)))]
      exact h.room
    · have hinfo : ∀ known : TreeMap PeerId Entry, (∃ x : Entry, known[info.id]? = some x ∧ x.peer.info = info) ↔
          ∃ peer : KnownPeer, known[info.id]?.map (·.peer) = some peer ∧ peer.info = info := by
        intro known
        constructor
        · rintro ⟨x, hx, hi⟩
          exact ⟨x.peer, by rw [hx, Option.map_some], hi⟩
        · rintro ⟨peer, hp, hi⟩
          obtain ⟨x, hx, rfl⟩ := Option.map_eq_some_iff.mp hp
          exact ⟨x, hx, hi⟩
      rw [hinfo, hsame, ← hinfo]
      exact h.lists hc info
  | forgotten ids known changed hk hs hc =>
    have hsub : ∀ id ∈ known, id ∈ b.known := by
      intro id hid
      rw [mem_known, hk] at hid
      split at hid
      · cases hid
      · exact mem_known.mpr hid
    refine ⟨(Lib.size_le_of_subset hsub).trans h.room, fun hm => h.stranger (hsub _ hm), fun id =>
      ?_, fun hn => ?_,
      ?_, ?_⟩
    · rw [mem_known, hk, latest_forgotten]
      split
      · simp
      · rw [← mem_known]
        exact h.told id
    · obtain ⟨hold, rfl⟩ := hc hn
      intro info
      have hl := h.lists hold info
      rw [hk]
      exact hl
    · simp [List.filter_append, List.filter_map, Function.comp_def, lostEvent, h.recorded]
    · intro x hx
      rcases List.mem_append.mp hx with hx | hx
      · exact h.absent x hx
      · obtain ⟨id, hid, rfl⟩ := List.mem_map.mp hx
        exact hs id hid
  | published infos hl => exact ⟨h.room, h.stranger, h.told, fun _ => hl, h.recorded, h.absent⟩

def Changes (peers : TreeMap PeerId Peer) : Board → Board → Prop := Relation.ReflTransGen (Change peers)

lemma Faithful.changes (h : b.Faithful) (hc : Changes peers b b') : b'.Faithful := by
  induction hc with
  | refl => exact h
  | tail _ hc ih => exact ih.change hc

end Board

variable (e : NetworkEngine)

lemma board_record {mark : Mark} (hm : mark.event = none) : (e.record mark).board = e.board := by
  simp [board, record, hm]

lemma board_emit {event : EngineEvent} (hn : event.isNews = false) : (e.emit event).board = e.board := by
  have hk : (event.kind == .peerLost) = false := (Bool.or_eq_false_iff.mp hn).2
  simp [board, emit, record, Mark.event, List.filter_append, hn, hk]

lemma board_emit_discovered (info : PeerInfo) : (e.emit (discoveredEvent info)).board =
    { e.board with news := e.board.news ++ [discoveredEvent info] } := by
  simp [board, emit, record, Mark.event, List.filter_append, discoveredEvent, EngineEvent.isNews]

def lose (e : NetworkEngine) (ids : List PeerId) : NetworkEngine := { e with
  history := e.history ++ ids.map fun id => .emitted (lostEvent id)
  mEvents := e.mEvents ++ ids.map lostEvent
  emissions := e.emissions ++ ids.map fun id => ⟨lostEvent id, e.mPeers⟩ }

lemma emit_lose (id : PeerId) (ids : List PeerId) : (e.emit (lostEvent id)).lose ids = e.lose (id :: ids) := by
  simp [lose, emit, record]

lemma foldl_emit_lost (ids : List PeerId) : ids.foldl (fun e id => e.emit (lostEvent id)) e = e.lose ids := by
  induction ids generalizing e with
  | nil => simp [lose]
  | cons id ids ih => rw [List.foldl_cons, ih, emit_lose]

lemma foldl_lost (ids : List PeerId) :
    ids.foldl (fun e id => { e.emit (lostEvent id) with mPeersChanged := true }) e =
      { e.lose ids with mPeersChanged := e.mPeersChanged || !ids.isEmpty } := by
  induction ids generalizing e with
  | nil => simp [lose]
  | cons id ids ih =>
    rw [List.foldl_cons, ih, ← emit_lose]
    simp [lose]

lemma board_lose (ids : List PeerId) : (e.lose ids).board = { e.board with
    news := e.board.news ++ ids.map lostEvent
    lost := e.board.lost ++ ids.map fun id => ⟨lostEvent id, e.mPeers⟩ } := by
  have hevents : (ids.map fun id => Mark.emitted (lostEvent id)).filterMap Mark.event = ids.map lostEvent := by
    rw [List.filterMap_map]
    exact congrFun (List.filterMap_eq_map (f := lostEvent)) ids
  have hnews : (ids.map lostEvent).filter (·.isNews) = ids.map lostEvent := by
    simp [List.filter_eq_self, lostEvent, EngineEvent.isNews]
  have hlost : (ids.map fun id => (⟨lostEvent id, e.mPeers⟩ : Emission)).filter (·.event.kind == .peerLost) =
      ids.map fun id => ⟨lostEvent id, e.mPeers⟩ := by
    simp [List.filter_eq_self, lostEvent]
  simp only [board, lose, List.filterMap_append, List.filter_append, hevents, hnews, hlost]

lemma board_forgetPeers (hn : ∀ id, e.find id = none) :
    Board.Changes e.mPeers e.board { e.forgetPeers with mPeersChanged := true }.board := by
  have hfold : e.forgetPeers = ({ e with mDiscovery := e.mDiscovery.clear.2 } : NetworkEngine).lose
      e.mDiscovery.mPeers.keys := foldl_emit_lost _ _
  have hboard := congrArg (fun b : Board => { b with changed := true })
    (board_lose { e with mDiscovery := e.mDiscovery.clear.2 } e.mDiscovery.mPeers.keys)
  rw [hfold]
  refine .single ((congrArg (Board.Change e.mPeers e.board) hboard).mpr
    (.forgotten e.mDiscovery.mPeers.keys ∅ true (fun id => ?_) (fun id _ => hn id) (by simp)))
  cases hk : e.mDiscovery.mPeers[id]? with
  | none => simp [board, hk]
  | some entry =>
    rw [if_pos (TreeMap.mem_keys.mpr (Board.mem_known.mpr (congrArg Option.isSome hk)))]
    simp

def expired (e : NetworkEngine) (now : TimePoint) : List PeerId × Discovery.DiscoveryLogic :=
  e.mDiscovery.expire now fun id => e.mPeers.contains id

def ticked (e : NetworkEngine) (now : TimePoint) : NetworkEngine := { e with
  mNextTick := some (now + BeaconInterval)
  mBeaconDue := true
  mDiscovery := (e.expired now).2 }

lemma tick_eq (now : TimePoint) : e.tick now = { (e.ticked now).lose (e.expired now).1 with
    mPeersChanged := e.mPeersChanged || !(e.expired now).1.isEmpty } :=
  foldl_lost _ _

lemma board_tick (now : TimePoint) : Board.Changes e.mPeers e.board (e.tick now).board := by
  obtain ⟨hs, hk⟩ := e.mDiscovery.expire_spec now fun id => e.mPeers.contains id
  have hboard := congrArg (fun b : Board => { b with changed := e.mPeersChanged || !(e.expired now).1.isEmpty })
    (board_lose (e.ticked now) (e.expired now).1)
  rw [tick_eq]
  refine .single ((congrArg (Board.Change e.mPeers e.board) hboard).mpr
    (.forgotten (e.expired now).1 _ _ hk (fun id hid => ?_) fun hc => ?_))
  · exact TreeMap.getElem?_eq_none_of_contains_eq_false (hs id hid)
  · simpa [board] using hc

lemma lists_peers (d : Discovery.DiscoveryLogic) (info : PeerInfo) :
    info ∈ d.peers ↔ ∃ entry : Entry, d.mPeers[info.id]? = some entry ∧ entry.peer.info = info := by
  rw [Discovery.DiscoveryLogic.peers, List.mem_map]
  constructor
  · rintro ⟨entry, hv, rfl⟩
    obtain ⟨id, hid⟩ := Lib.mem_values_iff.mp hv
    exact ⟨entry, by rw [d.keyed id entry hid, hid], rfl⟩
  · rintro ⟨entry, hid, hi⟩
    exact ⟨entry, Lib.mem_values_iff.mpr ⟨_, hid⟩, hi⟩

end NetworkEngine

end NetLink
