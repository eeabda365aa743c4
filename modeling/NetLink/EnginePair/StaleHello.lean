import NetLink.EnginePair.Agreement

/-! When a Hello may take the place of a session: only the link of a later attempt tells that the remote has given
the session up. -/

namespace NetLink

open Net (SocketAddress)
open Channel (TimePoint Packet decodePacket)
open NetworkEngine (World Peer View handleDatagram not_before_last)

namespace NetworkEngine

variable (e : NetworkEngine) {d : SocketAddress × List UInt8} {x : UInt32} {peer : Peer}

/-- The Connected record `onHello` ends for a datagram, with the link the Hello is of. -/
def endsConnected (d : SocketAddress × List UInt8) : Option (UInt32 × Peer) :=
  if Discovery.isBeacon d.2 then none
  else
    (decodePacket d.2).bind fun packet => (e.newHello d.1 packet).bind fun hello =>
      ((e.find hello.fromInstance).filter (·.state == .connected)).map fun peer =>
        (packet.header.srcStreamID, peer)

lemma endsConnected_eq_some (h : e.endsConnected d = some (x, peer)) :
    Discovery.isBeacon d.2 = false ∧ ∃ packet hello, decodePacket d.2 = some packet ∧
      e.newHello d.1 packet = some hello ∧ e.find hello.fromInstance = some peer ∧ peer.state = .connected ∧
      x = packet.header.srcStreamID := by
  rw [endsConnected] at h
  split at h
  · simp at h
  next hn =>
  obtain ⟨packet, hp, h⟩ := Option.bind_eq_some_iff.mp h
  obtain ⟨hello, hh, h⟩ := Option.bind_eq_some_iff.mp h
  obtain ⟨peer', hf, h⟩ := Option.map_eq_some_iff.mp h
  obtain ⟨hf, hs⟩ := Option.filter_eq_some_iff.mp hf
  obtain ⟨rfl, rfl⟩ := Prod.mk.inj h
  exact ⟨by simpa using hn, packet, hello, hp, hh, hf, by simpa using hs, rfl⟩

lemma onHello_of_endsConnected (h : e.endsConnected d = some (x, peer)) (now : TimePoint) :
    ∃ packet hello, decodePacket d.2 = some packet ∧ x = packet.header.srcStreamID ∧
      e.find hello.fromInstance = some peer ∧ e.onHello d.1 packet now =
        let e := (e.report hello.fromInstance .lost).erase hello.fromInstance
        if e.isFull then (none, e) else (some hello.fromInstance, e.admitPeer d.1 hello false now) := by
  obtain ⟨-, packet, hello, hp, hn, hf, hs, hx⟩ := endsConnected_eq_some e h
  refine ⟨packet, hello, hp, hx, hf, ?_⟩
  rw [onHello_of_newHello e hn, meetHello, makeWay, hf]
  simp [hs]

end NetworkEngine

namespace EnginePair

variable {p : EnginePair} {world : World} {now : TimePoint} {d : SocketAddress × List UInt8}
  {before after : List (SocketAddress × List UInt8)} {x r : UInt32} {peer : Peer} {v w : View}

def meets (e : NetworkEngine) (world : World) (now : TimePoint) (before : List (SocketAddress × List UInt8)) :
    NetworkEngine :=
  before.foldl (handleDatagram now) (e.beforeReceiving world now)

/-- The first link was opened for the peer before the second one. -/
def OpensLater (e : NetworkEngine) (id : PeerId) (first second : UInt32) : Prop :=
  List.Sublist [first, second] (e.view.linksTo id)

instance (e : NetworkEngine) (id : PeerId) (first second : UInt32) : Decidable (OpensLater e id first second) :=
  inferInstanceAs (Decidable (List.Sublist _ _))

lemma run_meets (hr : system.Reachable p) (hh : Hears p.a p.b world now)
    (hs : p.a.arriving world now = before ++ d :: after) :
    NetworkEngine.Run (rules p.b) p.a.view (meets p.a world now before).view := by
  have hlawful := lawful hh
  have hbefore := NetworkEngine.reaches_beforeReceiving p.a world now hlawful
  have halong := hlawful.datagrams
  rw [hs, Lib.along_append] at halong
  have hbound : (p.a.beforeReceiving world now).mIoSocket.isSome := by
    rw [NetworkEngine.arriving, NetworkEngine.incoming] at hs
    split at hs
    · simp at hs
    next hb => exact Option.isSome_iff_ne_none.mpr (by simpa using hb)
  have hrun := hbefore.trans (NetworkEngine.reaches_handleDatagrams _ now before hbound halong.1)
  exact hrun (fits_of_reachable hr).soundA

lemma Fits.gone (h : Fits v w) {id : PeerId} {s : NetworkEngine.SessionView} (hs : v.sessions id = some s)
    (hr : s.link.mRemoteStreamID = some r) (hx : List.Sublist [r, x] (w.linksTo v.id)) {j : PeerId}
    {t : NetworkEngine.SessionView} (ht : w.sessions j = some t) : t.link.mLocalStreamID ≠ r := by
  rintro rfl
  obtain ⟨-, -, ho, -⟩ := (h.ledgerA.backed id s hs).known _ hr
  obtain rfl := h.distinctB.eq ho (h.ledgerB.opened ht)
  exact not_before_last (h.distinctB.linksTo _) (h.ledgerB.latest _ t ht) hx

theorem hello_ends_abandoned (hr : system.Reachable p) (hh : Hears p.a p.b world now)
    (hs : p.a.arriving world now = before ++ d :: after) (hd : Distinct (meets p.a world now before))
    (he : (meets p.a world now before).endsConnected d = some (x, peer))
    (hx : ∀ r, peer.link.mRemoteStreamID = some r → OpensLater p.b p.a.mId r x) :
    (∃ packet hello, decodePacket d.2 = some packet ∧ x = packet.header.srcStreamID ∧
      (meets p.a world now before).find hello.fromInstance = some peer ∧
      (meets p.a world now before).onHello d.1 packet now =
        let e := ((meets p.a world now before).report hello.fromInstance .lost).erase hello.fromInstance
        if e.isFull then (none, e) else (some hello.fromInstance, e.admitPeer d.1 hello false now)) ∧
    peer.link.mRemoteStreamID.isSome ∧
      ∀ j t, p.b.find j = some t → some t.link.mLocalStreamID ≠ peer.link.mRemoteStreamID := by
  have hrun := run_meets hr hh hs
  have hfits := (fits_of_reachable hr).run (fun _ _ hp => hp) hrun hd
  obtain ⟨-, packet, hello, -, -, hf, hc, -⟩ := NetworkEngine.endsConnected_eq_some _ he
  have hsession := NetworkEngine.sessions_view _ hf
  obtain ⟨r, hremote, -⟩ := (hfits.ledgerA.backed _ _ hsession).connected hc
  have hremote : peer.link.mRemoteStreamID = some r := hremote
  have hlater : List.Sublist [r, x] (p.b.view.linksTo (meets p.a world now before).view.id) := by
    rw [id_of_run hrun]
    exact hx r hremote
  refine ⟨NetworkEngine.onHello_of_endsConnected _ he now, by rw [hremote]; rfl, fun j t ht hj => ?_⟩
  rw [hremote] at hj
  exact hfits.gone hsession hremote hlater (NetworkEngine.sessions_view _ ht) (Option.some.inj hj)

namespace Sample

def returned : EnginePair :=
  ({ crossed with b := restart crossed.b { instanceId := 1 } 0 }.right
    (meeting NetworkEngine.Sample.there NetworkEngine.Sample.here 2) 5).right (hearing [] [.post .connect 2] 11) 6

lemma reachable_returned : system.Reachable returned := by
  have hrestarted : system.Reachable { crossed with b := restart crossed.b { instanceId := 1 } 0 } :=
    reachable_crossed.step (.inr ⟨.restart _ _ (by decide +kernel), rfl⟩)
  exact reachable_right (reachable_right hrestarted (by decide +kernel) (by decide +kernel)) (by decide +kernel)
    (by decide +kernel)

def helloOf (streamID : UInt32) : SocketAddress × List UInt8 :=
  (NetworkEngine.Sample.there, (NetworkEngine.Sample.firstPacket 1 2 streamID).bytes)

def hello (streamID : UInt32) : World where
  localInterface := some {}
  channel := [.datagram (helloOf streamID).1 (helloOf streamID).2]

end Sample

open Sample

theorem hello_ends_abandoned_returned : ∃ peer, (meets returned.a (hello 11) 7 []).endsConnected (helloOf 11) =
    some (11, peer) ∧
    peer.link.mRemoteStreamID.isSome ∧
      ∀ j t, returned.b.find j = some t → some t.link.mLocalStreamID ≠ peer.link.mRemoteStreamID := by
  have he : ((meets returned.a (hello 11) 7 []).endsConnected (helloOf 11)).map
      (fun ends => (ends.1, ends.2.link.mRemoteStreamID)) = some (11, some 9) := by decide +kernel
  obtain ⟨⟨x, peer⟩, he, hx⟩ := Option.map_eq_some_iff.mp he
  obtain ⟨rfl, hremote⟩ : x = 11 ∧ peer.link.mRemoteStreamID = some 9 := Prod.mk.inj hx
  refine ⟨peer, he, (hello_ends_abandoned reachable_returned (by decide +kernel)
    (show returned.a.arriving (hello 11) 7 = [] ++ helloOf 11 :: [] by decide +kernel) (by decide +kernel) he
      fun r hr => ?_).2⟩
  obtain rfl := Option.some.inj (hremote.symm.trans hr)
  decide +kernel

/-- The Hello of the attempt that gave way arrives late: it ends the session that came of the crossing, in which
both sides are Connected. -/
theorem stale_hello_ends_session : system.Reachable crossed ∧ Hears crossed.a crossed.b (hello 8) 5 ∧
    crossed.a.arriving (hello 8) 5 = [] ++ helloOf 8 :: [] ∧ Distinct (meets crossed.a (hello 8) 5 []) ∧
    ∃ peer t, (meets crossed.a (hello 8) 5 []).endsConnected (helloOf 8) = some (8, peer) ∧
      crossed.b.find 2 = some t ∧ t.state = .connected ∧
      some t.link.mLocalStreamID = peer.link.mRemoteStreamID := by
  refine ⟨reachable_crossed, by decide +kernel, by decide +kernel, by decide +kernel, ?_⟩
  have he : ((meets crossed.a (hello 8) 5 []).endsConnected (helloOf 8)).map
      (fun ends => (ends.1, ends.2.link.mRemoteStreamID)) = some (8, some 9) := by decide +kernel
  have ht : ((crossed.b.find 2).map fun t => (t.state, t.link.mLocalStreamID)) = some (.connected, 9) := by
    decide +kernel
  obtain ⟨⟨x, peer⟩, he, hx⟩ := Option.map_eq_some_iff.mp he
  obtain ⟨rfl, hremote⟩ : x = 8 ∧ peer.link.mRemoteStreamID = some 9 := Prod.mk.inj hx
  obtain ⟨t, ht, htx⟩ := Option.map_eq_some_iff.mp ht
  obtain ⟨hstate, hlocal⟩ : t.state = .connected ∧ t.link.mLocalStreamID = 9 := Prod.mk.inj htx
  exact ⟨peer, t, he, ht, hstate, by rw [hlocal, hremote]⟩

end EnginePair

end NetLink
