import NetLink.Engine.Discovered
import NetLink.Engine.Tidy

/-! How much strangers can make an engine keep. -/

namespace NetLink.NetworkEngine

open Net (SocketAddress)
open Channel (TimePoint Packet decodePacket)

def Mark.byHello : Mark → Option Bool
  | .opened _ _ byHello => some byHello
  | _ => none

def lastOpening (marks : List Mark) : Option Bool := (marks.filterMap Mark.byHello).getLast?

def createdByHello (e : NetworkEngine) (id : PeerId) : Bool := lastOpening (e.view.about id) == some true

lemma lastOpening_append (marks ms : List Mark) :
    lastOpening (marks ++ ms) = (lastOpening ms).or (lastOpening marks) := by
  simp [lastOpening, List.filterMap_append, List.getLast?_append]

section

variable {Γ : Rules} {v w : View} {id : PeerId}

lemma lastOpening_farewell (s : SessionView) (reason : DisconnectReason) :
    lastOpening (s.farewell id reason) = none := by
  rw [SessionView.farewell]
  split <;> rfl

lemma SessionMove.opening {s s' : SessionView} {ms : List Mark} (h : SessionMove id s s' ms) :
    s'.initiator = s.initiator ∧ lastOpening ms = none := by
  cases h with
  | tell reason | decline m reason | goodbye m reason | finish reason => exact ⟨rfl, lastOpening_farewell s reason⟩
  | _ => exact ⟨rfl, rfl⟩

def View.Traced (v : View) : Prop := ∀ id s, v.sessions id = some s →
    lastOpening (v.about id) = some (!s.initiator)

lemma PeerMove.opening {o o' : Option SessionView} {marks ms : List Mark} (hm : PeerMove Γ v id o o' ms)
    (h : ∀ s, o = some s → lastOpening marks = some (!s.initiator)) (s : SessionView) (hs : o' = some s) :
    lastOpening (marks ++ ms) = some (!s.initiator) := by
  rw [lastOpening_append]
  cases hm with
  | quiet | applied | late | ignored => exact h s hs
  | answered c s₀ m | relinked s₀ l control | overtaken s₀ info =>
    obtain rfl := Option.some.inj hs
    exact h s₀ rfl
  | refused | lostCrossing | dropTold | dropEnded => cases hs
  | opened | asked | welcomed | crossed =>
    obtain rfl := Option.some.inj hs
    rfl
  | session s₀ s₁ ms hm =>
    obtain rfl := Option.some.inj hs
    obtain ⟨hi, ho⟩ := hm.opening
    rw [ho, hi]
    exact h s₀ rfl

lemma Move.traced (h : v.Traced) (hm : Move Γ v w) : w.Traced := by
  intro id s hs
  obtain ⟨ms, ha, hp⟩ := hm.shown id
  rw [ha]
  exact hp.opening (h id) s hs

end

def Peer.waits (p : Peer) : Bool := !p.initiator && (p.state == .connecting || p.state == .awaitingDecision)

structure Uncrowded (e : NetworkEngine) : Prop where
  peers : e.mPeers.size ≤ MaxPeers
  waiting : e.mPeers.values.countP Peer.waits ≤ MaxPendingSessions

variable {T : Terms} {k : Stage} {who : Option PeerId} {e e' : NetworkEngine} {j : PeerId} {p : Peer}
  {origin : SocketAddress}

lemma Peer.waits_congr {p' : Peer} (hi : p'.initiator = p.initiator) (hs : p'.state = p.state) :
    p'.waits = p.waits := by
  rw [waits, waits, hi, hs]

lemma Act.waits (h : Act T k (some j) e e') (hf : e.find j = some p) :
    ∀ p', e'.find j = some p' → p'.waits = true → p.waits = true := by
  have hsame : ∀ {q : Peer}, e'.find j = some q → q.waits = p.waits →
      ∀ p', e'.find j = some p' → p'.waits = true → p.waits = true := by
    intro q hq hw p' hp'
    obtain rfl := Option.some.inj (hq.symm.trans hp')
    exact fun h => hw.symm.trans h
  have hover : ∀ {q : Peer}, e'.find j = some q → q.waits = false →
      ∀ p', e'.find j = some p' → p'.waits = true → p.waits = true := by
    intro q hq hw p' hp' h
    obtain rfl := Option.some.inj (hq.symm.trans hp')
    rw [hw] at h
    cases h
  cases h with
  | report _ _ reason => exact hsame (find_report e hf reason) rfl
  | note _ _ f hn =>
    have hv := hn.view p
    exact hsame (find_modified e hf f)
      (Peer.waits_congr (congrArg SessionView.initiator hv) (congrArg SessionView.state hv))
  | sendDecline _ _ q now => exact hover (find_sendDecline e hf now) (by simp [Peer.waits, Peer.dismissed])
  | sendClose _ _ q now =>
    have hclosed := find_sendClose e hf now
    split at hclosed
    · exact hsame hclosed rfl
    · exact hover hclosed (by simp [Peer.waits, Peer.dismissed])
  | erase =>
    intro p' hp'
    rw [find_erase] at hp'
    cases hp'
  | sendAccept _ _ q h hs =>
    obtain rfl := Option.some.inj (h.symm.trans hf)
    exact hsame (find_sendAccept e h) (by simp [Peer.waits, hs])
  | drain => exact hover (find_modified e hf _) (by simp [Peer.waits])
  | openSession _ _ now h => simp [h] at hf
  | admitPeer _ origin hello crossing now h => simp [h] at hf
  | pause => exact hsame (find_onLink e hf _) rfl
  | timer => exact hsame (find_onLink e hf _) rfl
  | packet => exact hsame (find_onLink e hf _) rfl
  | overtaken => exact hover (find_onLink _ (find_setConnected e hf) _) (by simp [Peer.waits])
  | ready => exact hsame (find_modified e hf _) rfl
  | endPeer => exact hsame (find_endPeer e hf) rfl
  | call => exact hsame (find_onLink e hf _) rfl
  | setConnected => exact hover (find_setConnected e hf) (by simp [Peer.waits])
  | settle => exact hsame hf rfl
  | peek _ _ lane => exact hsame (find_peek e hf lane) rfl
  | schedule _ _ lane =>
    have hadded : find { e with mScheduler := e.mScheduler.add lane j } j = some p := hf
    exact hsame (find_setScheduled _ hadded lane true) rfl
  | sendOne _ now lane =>
    refine hsame (find_sendOne e hf now lane) ?_
    split <;> rfl

lemma waiting_le_pending (e : NetworkEngine) : e.mPeers.values.countP Peer.waits ≤ e.pendingSessions := by
  refine List.countP_mono_left fun p _ hw => ?_
  cases hs : p.state <;> simp [Peer.waits, hs] at hw ⊢

lemma Act.uncrowded (h : Act T k who e e') (hu : e.Uncrowded) : e'.Uncrowded := by
  have hothers : ∀ i p', who ≠ some i → e'.find i = some p' → e.find i = some p' := by
    intro i p' hi hp'
    rcases h.elsewhere hi with he | hg
    · rwa [← he.find]
    · rw [hg.find] at hp'
      cases hp'
  have hmem : ∀ (e : NetworkEngine) (i : PeerId), i ∈ e.mPeers ↔ ∃ p, e.find i = some p := by
    intro e i
    rw [Std.TreeMap.mem_iff_isSome_getElem?]
    exact Option.isSome_iff_exists
  by_cases hnew : ∃ j, who = some j ∧ e.find j = none ∧ (e'.find j).isSome
  · obtain ⟨j, rfl, hn, hs⟩ := hnew
    rcases h.of_none hn with ha | ⟨-, now, hroom, ⟨p, hp, -, hc⟩, -⟩
    · rw [ha.find] at hs
      cases hs
    have hknown : ∀ i p', i ≠ j → e'.find i = some p' → e.find i = some p' :=
      fun i p' hij => hothers i p' fun hw => hij (Option.some.inj hw).symm
    refine ⟨?_, ?_⟩
    · have hsize : e'.mPeers.size ≤ e.mPeers.size + 1 := by
        refine Lib.size_le_succ_of_subset (x := j) fun i hi hij => ?_
        obtain ⟨p', hp'⟩ := (hmem e' i).mp hi
        exact (hmem e i).mpr ⟨p', hknown i p' hij hp'⟩
      exact hsize.trans hroom
    · cases hi : p.initiator with
      | true =>
        refine le_trans (Lib.countP_values_le fun i p' hp' hw => ?_) hu.waiting
        by_cases hij : i = j
        · subst hij
          obtain rfl := Option.some.inj (hp.symm.trans hp')
          simp [Peer.waits, hi] at hw
        · exact ⟨p', hknown i p' hij hp', hw⟩
      | false =>
        have hcount : e'.mPeers.values.countP Peer.waits ≤ e.mPeers.values.countP Peer.waits + 1 :=
          Lib.countP_values_le_succ (x := j) fun i p' hij hp' hw => ⟨p', hknown i p' hij hp', hw⟩
        exact hcount.trans (Nat.succ_le_of_lt ((waiting_le_pending e).trans_lt (hc hi)))
  · have hkept : ∀ i p', e'.find i = some p' → ∃ p, e.find i = some p ∧ (p'.waits = true → p.waits = true) := by
      intro i p' hp'
      by_cases hi : who = some i
      · subst hi
        cases hf : e.find i with
        | none => exact absurd ⟨i, rfl, hf, congrArg Option.isSome hp'⟩ hnew
        | some p => exact ⟨p, rfl, h.waits hf p' hp'⟩
      · exact ⟨p', hothers i p' hi hp', id⟩
    refine ⟨le_trans (Lib.size_le_of_subset fun i hi => ?_) hu.peers,
      le_trans (Lib.countP_values_le fun i p' hp' hw => ?_) hu.waiting⟩
    · obtain ⟨p', hp'⟩ := (hmem e' i).mp hi
      obtain ⟨p, hp, -⟩ := hkept i p' hp'
      exact (hmem e i).mpr ⟨p, hp⟩
    · obtain ⟨p, hp, hwaits⟩ := hkept i p' hp'
      exact ⟨p, hp, hwaits hw⟩

lemma Uncrowded.round (h : e.Uncrowded) (hs : Sound e.view) (ha : e.Alive) (world : World) (now : TimePoint) :
    (e.round world now).Uncrowded :=
  round_keeps (P := Uncrowded) (fun _ _ _ _ hu ha => ha.uncrowded hu) (fun _ hu => ⟨hu.peers, hu.waiting⟩)
    hs ha world now
    ⟨h.peers, h.waiting⟩

lemma Uncrowded.takeBatch (h : e.Uncrowded) : e.takeBatch.2.Uncrowded := ⟨h.peers, h.waiting⟩

def rejectsBeacon (e : NetworkEngine) (origin : SocketAddress) (datagram : List UInt8) : Bool :=
  let identity := e.mDiscovery.mIdentity
  (Discovery.decodeBeacon datagram).all fun b =>
    b.instanceId == identity.instanceId || b.appIdHash != identity.appIdHash || b.version != identity.version ||
      !e.mDiscovery.isInSubnet origin.ip || b.name.length > MaxDisplayName

def rejects (e : NetworkEngine) (d : SocketAddress × List UInt8) : Bool :=
  if Discovery.isBeacon d.2 then e.rejectsBeacon d.1 d.2
  else (decodePacket d.2).all fun packet => packet.header.dstStreamID == 0 &&
    (!isFirstPacket packet || (Session.decodeHello packet.body).all (e.rejectsHello d.1))

structure Unaffected (e e' : NetworkEngine) : Prop where
  discovery : e'.mDiscovery = e.mDiscovery
  records : ∀ id, (e'.find id).map (fun p => (p.initiator, p.state)) = (e.find id).map fun p =>
    (p.initiator, p.state)
  history : e'.history = e.history

lemma Unaffected.refl (e : NetworkEngine) : Unaffected e e := ⟨rfl, fun _ => rfl, rfl⟩

lemma onBeacon_of_rejectsBeacon {datagram : List UInt8}
    (h : e.rejectsBeacon origin datagram = true) (now : TimePoint) : e.onBeacon origin datagram now = e := by
  have hignored : e.mDiscovery.onBeacon origin datagram now = ({}, e.mDiscovery) := by
    rw [Discovery.DiscoveryLogic.onBeacon]
    split
    · rfl
    next b hb =>
    rw [if_pos]
    simpa [rejectsBeacon, hb, or_assoc] using h
  rw [onBeacon, hignored]
  split <;> rfl

lemma unaffected_modifyPeer (id : PeerId) {f : Peer → Peer}
    (hf : ∀ p, ((f p).initiator, (f p).state) = (p.initiator, p.state)) : Unaffected e (e.modifyPeer id f) := by
  refine ⟨rfl, fun j => ?_, rfl⟩
  rw [find_modifyPeer]
  split
  · next hj =>
    rw [hj, Option.map_map]
    congr 1
    funext p
    exact hf p
  · rfl

lemma Unaffected.trans {e'' : NetworkEngine} (h : Unaffected e e') (h' : Unaffected e' e'') : Unaffected e e'' :=
  ⟨h'.discovery.trans h.discovery, fun id => (h'.records id).trans (h.records id), h'.history.trans h.history⟩

lemma unaffected_onLink (id : PeerId) (f : Channel.ReliableLink → Channel.ReliableLink) :
    Unaffected e (e.onLink id f) := by
  rw [onLink]
  split
  · exact .refl e
  · next p _ =>
    have hput := unaffected_modifyPeer (e := e) id (f := fun peer =>
      { peer with link := f (e.lend p) }) fun _ => rfl
    exact ⟨hput.discovery, hput.records, hput.history⟩

lemma unaffected_receive {id : PeerId} {packet : Packet}
    (hl : packet.header.flags.lane = .control) (now : TimePoint) :
    Unaffected e (e.receive id origin packet now) := by
  rw [receive]
  split
  · exact .refl e
  split
  · exact .refl e
  rw [if_neg (by simp [hl])]
  have hheard : Unaffected e (e.hear id packet) := unaffected_modifyPeer id fun _ => rfl
  have htaken := hheard.trans (unaffected_onLink id (·.onPacket packet now))
  exact ⟨htaken.discovery, htaken.records, htaken.history⟩

lemma unaffected_of_rejects {d : SocketAddress × List UInt8} (h : e.rejects d = true) (now : TimePoint) :
    Unaffected e (handleDatagram now e d) := by
  rw [rejects] at h
  rw [handleDatagram]
  split
  · next hb =>
    rw [if_pos hb] at h
    rw [onBeacon_of_rejectsBeacon h]
    exact .refl e
  next hb =>
  rw [if_neg hb] at h
  split
  · exact .refl e
  next packet hp =>
  rw [hp, Option.all_some, Bool.and_eq_true, beq_iff_eq] at h
  rcases handlePacket_cases e d.1 packet now with he | ⟨id, p, -, hr, he⟩ | ⟨hello, hn, -⟩
  · rw [he]
    exact .refl e
  · rw [View.Routes, if_pos h.1] at hr
    rw [he]
    exact unaffected_receive (lane_of_isFirstPacket hr.1) now
  · rw [newHello] at hn
    split at hn
    · next hc =>
      obtain ⟨hd, hok⟩ := Option.filter_eq_some_iff.mp hn
      rw [hc.2.1, hd] at h
      simp only [Bool.not_true, Bool.false_or, Option.all_some] at h
      rw [h.2] at hok
      cases hok
    · cases hn

namespace Observed

variable {o : Observed}

lemma uncrowded (hr : (system anything).Reachable o) : o.engine.Uncrowded := by
  refine hr.invariant (P := fun o => o.engine.Uncrowded) ?_ ?_
  · rintro o ⟨config, drawn, rfl⟩
    exact ⟨Nat.zero_le MaxPeers, Nat.zero_le MaxPendingSessions⟩
  · rintro o o' hr hu ⟨world, now, -, rfl⟩
    exact (hu.round (sound hr) (consistent hr).alive world now).takeBatch

lemma traced (hr : (system anything).Reachable o) :
    o.engine.view.Traced ∧ o.engine.mDiscovery.mIdentity.instanceId = o.engine.mId := by
  refine (invariant (Γ := .any) (P := fun v => v.Traced ∧ v.identity.instanceId = v.id)
    (fun e world now _ => lawful_any e world now) (fun config drawn => ⟨fun id s hs => ?_, rfl⟩)
      (fun v w _ hv hm => ?_)
    (fun v hv => hv) hr).2
  · simp [view, NetworkEngine.new, find] at hs
  · obtain ⟨hid, -, hidentity, -⟩ := hm.settings
    exact ⟨hm.traced hv.1, by rw [hid, hidentity, hv.2]⟩

theorem strangers_bounded (hr : (system anything).Reachable o) :
    o.engine.mPeers.size ≤ MaxPeers ∧
    (o.engine.mPeers.toList.countP fun x => o.engine.createdByHello x.1 &&
      (x.2.state == .connecting || x.2.state == .awaitingDecision)) ≤ MaxPendingSessions ∧
    o.engine.mDiscovery.mPeers.size ≤ Discovery.MaxDiscoveredPeers ∧
    o.engine.mId ∉ o.engine.mDiscovery.mPeers ∧
    (∀ (id : PeerId) (entry : Discovery.Entry), o.engine.mDiscovery.mPeers[id]? = some entry →
      entry.peer.info.id = id) ∧
    (∀ (e : NetworkEngine) (d : SocketAddress × List UInt8) (now : TimePoint),
      e.rejects d = true → Unaffected e (handleDatagram now e d)) ∧
    ∀ (e : NetworkEngine) (origin : SocketAddress) (bytes : List UInt8) (now : TimePoint),
      e.rejectsBeacon origin bytes = true → Unaffected e (e.onBeacon origin bytes now) := by
  have hu := uncrowded hr
  have hf := (announced hr).faithful
  obtain ⟨htraced, hid⟩ := traced hr
  refine ⟨hu.peers, ?_, hf.room, ?_, o.engine.mDiscovery.keyed, fun e d now h => unaffected_of_rejects h now,
    fun e origin bytes now h => ?_⟩
  · refine le_trans (le_of_eq ?_) hu.waiting
    rw [Lib.values_eq_map_toList, List.countP_map]
    refine List.countP_congr fun x hx => ?_
    have hfind : o.engine.find x.1 = some x.2 := Std.TreeMap.mem_toList_iff_getElem?_eq_some.mp hx
    have hopening := htraced x.1 x.2.view (sessions_view _ hfind)
    have hcreated : o.engine.createdByHello x.1 = !x.2.initiator := by
      rw [createdByHello, hopening]
      cases hi : x.2.initiator <;> simp [Peer.view, hi]
    rw [hcreated]
    rfl
  · rw [← hid]
    exact hf.stranger
  · rw [onBeacon_of_rejectsBeacon h]
    exact .refl e

def visited : Observed :=
  let greet (id : PeerId) (src : UInt32) : Received := .datagram Sample.there (Sample.firstPacket id 1 src).bytes
  (({ engine := .new { autoAccept := false } 1 } : Observed).step
    { Sample.bound with channel := [.datagram Sample.there (Sample.beaconOf 2)] } 0).step
    { localInterface := some {}, channel := [greet 2 7, greet 3 8] } 1

theorem strangers_bounded_visited : visited.engine.mPeers.keys = [2, 3] ∧ visited.engine.createdByHello 3 = true ∧
    visited.engine.mPeers.size ≤ MaxPeers ∧ (1 : PeerId) ∉ visited.engine.mDiscovery.mPeers := by
  have hr : (system anything).Reachable visited :=
    reachable_step (reachable_step (reachable_new _ _) trivial) trivial
  exact ⟨by decide +kernel, by decide +kernel, (strangers_bounded hr).1, (strangers_bounded hr).2.2.2.1⟩

end Observed

end NetLink.NetworkEngine
