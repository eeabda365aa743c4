import Mathlib.Tactic.Linarith
import NetLink.Discovery.Beacon
import NetLink.Types

/-! Which peers announced themselves on the network. -/

namespace NetLink.Discovery

open Std (TreeMap)
open Net (Text IPv4Address SocketAddress)
open Channel (TimePoint fromMillis)

def PeerExpiry : ℤ := fromMillis 6000
def MaxDiscoveredPeers : ℕ := 1024

structure LocalIdentity where
  instanceId : UInt64 := 0
  appIdHash : UInt64 := 0
  version : AppVersion := {}
  name : Text := []
  deriving DecidableEq, Repr

structure KnownPeer where
  info : PeerInfo := {}
  endpoint : SocketAddress := {}
  deriving DecidableEq, Repr

inductive Sighting
  | ignored | known | new
  deriving DecidableEq, Repr

structure Seen where
  sighting : Sighting := .ignored
  peer : Option KnownPeer := none
  reply : Bool := false
  deriving DecidableEq, Repr

structure Entry where
  peer : KnownPeer := {}
  lastSeen : TimePoint := 0
  deriving DecidableEq, Repr

lemma keyed_empty (id : PeerId) (entry : Entry) (h : (∅ : TreeMap PeerId Entry)[id]? = some entry) :
    entry.peer.info.id = id := by
  simp at h

structure DiscoveryLogic where
  mIdentity : LocalIdentity
  mLocalIp : IPv4Address := {}
  mMask : IPv4Address := {}
  mAnnouncing : Bool := false
  mPeers : TreeMap PeerId Entry := ∅
  keyed : ∀ (id : PeerId) (entry : Entry), mPeers[id]? = some entry → entry.peer.info.id = id := by
    exact NetLink.Discovery.keyed_empty

namespace DiscoveryLogic

def setInterface (d : DiscoveryLogic) (ip mask : IPv4Address) : DiscoveryLogic :=
  { d with mLocalIp := ip, mMask := mask }

def clear (d : DiscoveryLogic) : List PeerId × DiscoveryLogic :=
  (d.mPeers.keys, { d with mPeers := ∅, keyed := by simp })

def setAnnouncing (d : DiscoveryLogic) (announcing : Bool) : DiscoveryLogic :=
  { d with mAnnouncing := announcing }

def isInSubnet (d : DiscoveryLogic) (address : IPv4Address) : Bool :=
  !d.mMask.isNetmask || Net.sameSubnet d.mLocalIp address d.mMask

def broadcastAddress (d : DiscoveryLogic) : IPv4Address :=
  if d.mMask.isNetmask then Net.subnetBroadcast d.mLocalIp d.mMask else IPv4Address.broadcast

def beacon (d : DiscoveryLogic) (reply : Bool) : List UInt8 :=
  encodeBeacon {
    instanceId := d.mIdentity.instanceId
    appIdHash := d.mIdentity.appIdHash
    version := d.mIdentity.version
    reply := reply
    name := d.mIdentity.name }

def sightingOf (b : Beacon) (origin : SocketAddress) : KnownPeer where
  endpoint := origin
  info := {
    id := b.instanceId
    displayName := b.name
    address := origin.ip.toString
    port := origin.port
    appVersion := b.version.toString }

def note (d : DiscoveryLogic) (peer : KnownPeer) (now : TimePoint) : DiscoveryLogic :=
  { d with
    mPeers := d.mPeers.insert peer.info.id { peer := peer, lastSeen := now }
    keyed := by
      intro id entry h
      rw [TreeMap.getElem?_insert] at h
      split at h
      · next hid =>
        obtain rfl := Option.some.inj h
        exact Std.LawfulEqCmp.eq_of_compare hid
      · exact d.keyed id entry h }

def onBeacon (d : DiscoveryLogic) (origin : SocketAddress) (datagram : List UInt8) (now : TimePoint) :
    Seen × DiscoveryLogic :=
  match decodeBeacon datagram with
  | none => ({}, d)
  | some b =>
    if b.instanceId = d.mIdentity.instanceId ∨ b.appIdHash ≠ d.mIdentity.appIdHash ∨
        b.version ≠ d.mIdentity.version ∨ !d.isInSubnet origin.ip ∨ b.name.length > MaxDisplayName then ({}, d)
    else
      match d.mPeers[b.instanceId]? with
      | none =>
        let peer := sightingOf b origin
        if d.mPeers.size ≥ MaxDiscoveredPeers then ({}, d)
        else ({ sighting := .new, peer := some peer, reply := d.mAnnouncing && !b.reply }, d.note peer now)
      | some entry =>
        if entry.peer.endpoint ≠ origin ∨ entry.peer.info.displayName ≠ b.name then
          ({ sighting := .new, peer := some (sightingOf b origin) }, d.note (sightingOf b origin) now)
        else ({ sighting := .known, peer := some entry.peer }, d.note entry.peer now)

def expire (d : DiscoveryLogic) (now : TimePoint) (hasSession : PeerId → Bool) : List PeerId × DiscoveryLogic :=
  let kept := fun (id : PeerId) (e : Entry) => decide (now - e.lastSeen < PeerExpiry) || hasSession id
  ((d.mPeers.toList.filter fun p => !kept p.1 p.2).map (·.1),
    { d with
      mPeers := d.mPeers.filter kept
      keyed := by
        intro id entry h
        rw [TreeMap.getElem?_filter'] at h
        exact d.keyed id entry (Option.mem_filter_iff.mp h).1 })

def find (d : DiscoveryLogic) (id : PeerId) : Option KnownPeer := d.mPeers[id]?.map (·.peer)

def peers (d : DiscoveryLogic) : List PeerInfo := d.mPeers.values.map (·.peer.info)

end DiscoveryLogic

end NetLink.Discovery
