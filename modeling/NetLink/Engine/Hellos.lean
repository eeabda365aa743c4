import NetLink.Engine.Observed

/-! What a Hello that is turned away leaves behind. -/

namespace NetLink.NetworkEngine

open Net (SocketAddress)
open Channel (TimePoint Packet)

structure SameTables (e e' : NetworkEngine) : Prop where
  peers : e'.mPeers = e.mPeers
  byStream : e'.mByStream = e.mByStream
  mailbox : e'.mMailbox = e.mMailbox
  scheduler : e'.mScheduler = e.mScheduler
  events : e'.mEvents = e.mEvents

/-- Both sides asked at once, and this one has the higher ID. -/
def keepsAsking (e : NetworkEngine) (id : PeerId) (peer : Peer) : Bool :=
  peer.state == .connecting && peer.initiator && e.mId > id

def isFullWithout (e : NetworkEngine) (id : PeerId) : Bool :=
  let others := e.mPeers.erase id
  others.size ≥ MaxPeers || others.values.countP (·.state != .connected) ≥ MaxPendingSessions

/-- A Hello to be answered meets a record that gives way, and without it there is no room for a new one. -/
def displaces (e : NetworkEngine) (origin : SocketAddress) (packet : Packet) : Bool :=
  (e.newHello origin packet).any fun hello => (e.find hello.fromInstance).any fun peer =>
    !e.keepsAsking hello.fromInstance peer && e.isFullWithout hello.fromInstance

variable (e : NetworkEngine) {id : PeerId} {origin : SocketAddress} {packet : Packet} {hello : Session.Hello}
  {p : Peer}

lemma peers_erase (h : e.find id = some p) : (e.erase id).mPeers = e.mPeers.erase id := by
  rw [erase, h]
  rfl

lemma find_erase : (e.erase id).find id = none := by
  cases h : e.find id with
  | none => rw [erase, h, h]
  | some p => simp [find, peers_erase e h]

lemma isFull_erase {e' : NetworkEngine} (hp : e'.find id = some p) (ho : ∀ j ≠ id, e'.find j = e.find j) :
    (e'.erase id).isFull = e.isFullWithout id := by
  have hsame : (e'.mPeers.erase id).Equiv (e.mPeers.erase id) := by
    refine .of_forall_constGet?_eq fun j => ?_
    by_cases hj : j = id
    · simp [hj]
    · have hfind : e'.mPeers[j]? = e.mPeers[j]? := ho j hj
      simp [Std.TreeMap.getElem?_erase, Ne.symm hj, hfind]
  rw [isFull, pendingSessions, peers_erase e' hp, hsame.size_eq, hsame.values_eq]
  rfl

lemma find_makeWay {way : Bool × NetworkEngine} (hw : e.makeWay id = some way) : way.2.find id = none := by
  rw [makeWay] at hw
  split at hw
  · next h =>
    cases hw
    exact h
  split at hw
  · split at hw
    · cases hw
    · cases hw
      exact find_erase e
  · cases hw
    exact find_erase _

lemma makeWay_of_some (h : e.find id = some p) (hk : e.keepsAsking id p = false) :
    ∃ way, e.makeWay id = some way ∧ way.2.isFull = e.isFullWithout id := by
  rw [makeWay, h]
  dsimp only
  split
  next hc =>
    rw [if_neg fun hlt => by simp [keepsAsking, hc.1, hc.2, hlt] at hk]
    exact ⟨_, rfl, isFull_erase e h fun _ _ => rfl⟩
  · refine ⟨_, rfl, isFull_erase e (find_report e h .lost) fun j hj => ?_⟩
    rw [report, h]
    dsimp only
    split
    · rfl
    · rw [find_emit, find_modifyPeer, if_neg hj.symm]

lemma makeWay_of_keepsAsking (h : e.find id = some p) (hk : e.keepsAsking id p = true) : e.makeWay id = none := by
  simp only [keepsAsking, Bool.and_eq_true, beq_iff_eq, decide_eq_true_eq] at hk
  rw [makeWay, h]
  dsimp only
  rw [if_pos hk.1, if_pos hk.2]

lemma sameTables_meetHello {now : TimePoint} (h : (e.meetHello origin now hello).1 = none) :
    SameTables e (e.meetHello origin now hello).2 ↔ ((e.find hello.fromInstance).any fun peer =>
      !e.keepsAsking hello.fromInstance peer && e.isFullWithout hello.fromInstance) = false := by
  have hsame : SameTables e e := ⟨rfl, rfl, rfl, rfl, rfl⟩
  rw [meetHello] at h ⊢
  cases hf : e.find hello.fromInstance with
  | none =>
    have hway : e.makeWay hello.fromInstance = some (false, e) := by rw [makeWay, hf]
    rw [hway] at h ⊢
    dsimp only at h ⊢
    split at h
    next hfull => simp [hfull, hsame]
    next => cases h
  | some p =>
    cases hk : e.keepsAsking hello.fromInstance p with
    | true => simp [makeWay_of_keepsAsking e hf hk, hk, hsame]
    | false =>
      obtain ⟨way, hway, hfull⟩ := makeWay_of_some e hf hk
      rw [hway] at h ⊢
      dsimp only at h ⊢
      split at h
      next hc =>
        rw [if_pos hc, Option.any_some, hk, ← hfull, hc]
        refine iff_of_false (fun hs => ?_) (by decide)
        rw [find, ← hs.peers, ← find, find_makeWay e hway] at hf
        cases hf
      next => cases h

theorem rejected_hello_changes_nothing (hd : packet.header.dstStreamID = 0) (hf : isFirstPacket packet = true)
    (now : TimePoint) (h : (e.onHello origin packet now).1 = none) :
    SameTables e (e.onHello origin packet now).2 ↔ e.displaces origin packet = false := by
  have hsame : SameTables e e := ⟨rfl, rfl, rfl, rfl, rfl⟩
  rcases onHello_cases e origin packet now with ⟨hn, he | ⟨id, p, -, -, he⟩⟩ | hnew
  · simp [displaces, hn, he, hsame]
  · rw [he] at h
    cases h
  · obtain ⟨hello, hn, he⟩ := hnew hd hf
    rw [he] at h
    rw [he, displaces, hn]
    exact sameTables_meetHello e h

namespace Observed

def crowded : Observed :=
  let peers : List PeerId := (List.range 65).map fun n => UInt64.ofNat (n + 2)
  (({ engine := .new { instanceId := 1 } 0 } : Observed).step
    { Sample.bound with channel := peers.map fun id => .datagram Sample.there (Sample.beaconOf id) } 0).step
    (Sample.calling (peers.map (.post .connect))) 1

theorem rejected_hello_changes_nothing_unknown : crowded.engine.mPeers.size = 65 ∧
    SameTables crowded.engine (crowded.engine.onHello Sample.there (Sample.firstPacket 67 1 9) 1).2 := by
  have hcrowded : crowded.engine.mPeers.size = 65 ∧
      (crowded.engine.onHello Sample.there (Sample.firstPacket 67 1 9) 1).1 = none ∧
      crowded.engine.displaces Sample.there (Sample.firstPacket 67 1 9) = false := by decide +kernel
  exact ⟨hcrowded.1, (rejected_hello_changes_nothing _ (by decide +kernel) (by decide +kernel) 1
    hcrowded.2.1).mpr hcrowded.2.2⟩

/-- The Hello of a peer that is being asked is turned away, and the record of the pending `connect` is gone. -/
theorem rejected_hello_drops_connect : (system anything).Reachable crowded ∧
    isFirstPacket (Sample.firstPacket 66 1 9) = true ∧
    (crowded.engine.onHello Sample.there (Sample.firstPacket 66 1 9) 1).1 = none ∧
    (crowded.engine.find 66).isSome ∧
    ((crowded.engine.onHello Sample.there (Sample.firstPacket 66 1 9) 1).2.find 66).isNone :=
  ⟨reachable_step (reachable_step (reachable_new _ _) trivial) trivial, by decide +kernel⟩

end Observed

end NetLink.NetworkEngine
