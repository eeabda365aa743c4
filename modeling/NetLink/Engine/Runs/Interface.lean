import NetLink.Channel.Codec
import NetLink.Engine.Runs.Commands

/-! The adapter, timers and what is heard of other engines, as runs of moves. -/

namespace NetLink.NetworkEngine

open Net (SocketAddress)
open Channel (TimePoint Mailbox)

variable {Γ : Rules} (e : NetworkEngine) {id : PeerId} {p : Peer}

lemma view_foldl {α : Type} {f : NetworkEngine → α → NetworkEngine} (hf : ∀ e x, (f e x).view = e.view)
    (xs : List α) (e : NetworkEngine) : (xs.foldl f e).view = e.view := by
  induction xs generalizing e with
  | nil => rfl
  | cons x xs ih => rw [List.foldl_cons, ih, hf]

lemma reaches_notice (event : EngineEvent)
    (hk : event.kind = .peerDiscovered ∨ event.kind = .peerLost ∨ event.kind = .adapterChanged) :
    Reaches Γ e (e.emit event) :=
  .of_move (.notice event hk)

lemma isBeacon_encodeBeacon (b : Discovery.Beacon) : Discovery.isBeacon (Discovery.encodeBeacon b) = true := by
  simp only [Discovery.isBeacon, Bool.and_eq_true, decide_eq_true_eq, beq_iff_eq]
  refine ⟨⟨⟨?_, ?_⟩, rfl⟩, rfl⟩
  · simp only [Discovery.encodeBeacon, Channel.writeUint16, List.length_append, List.length_cons, List.length_nil,
      Discovery.BeaconPrefixSize]
    omega
  · simp only [Discovery.encodeBeacon, List.append_assoc]
    exact Channel.readUint16_writeUint16 _ _

lemma reaches_sendBeacon (destination : SocketAddress) (reply : Bool) :
    Reaches Γ e (e.sendBeacon destination reply) := by
  rw [sendBeacon]
  split
  · exact .refl e
  dsimp only
  split
  · exact .of_move (.beacon _ (isBeacon_encodeBeacon _))
  · exact .of_view rfl

namespace View

def sweep (reason : DisconnectReason) (v : View) (id : PeerId) : View :=
  match v.sessions id with
  | none => v
  | some s => (v.drop id).log (s.farewell id reason)

lemma run_sweep (reason : DisconnectReason) (v : View) (id : PeerId) : Run Γ v (v.sweep reason id) := by
  rw [sweep]
  split
  · exact .refl
  · exact .single (.dropTold id _ reason ‹_›)

lemma run_sweeps (reason : DisconnectReason) (ids : List PeerId) (v : View) :
    Run Γ v (ids.foldl (sweep reason) v) := by
  induction ids generalizing v with
  | nil => exact .refl
  | cons id ids ih => exact (run_sweep reason v id).trans (ih _)

lemma sweep_eq (reason : DisconnectReason) (v : View) (id : PeerId) : v.sweep reason id = { v with
    sessions := Function.update v.sessions id none
    route := (v.sweep reason id).route
    history := (v.sweep reason id).history
    pending := (v.sweep reason id).pending } := by
  rw [sweep]
  split
  · next h => rw [← h, Function.update_eq_self]
  · rw [drop_eq, ← sessions_drop]
    rfl

lemma sweeps_eq (reason : DisconnectReason) (ids : List PeerId) (v : View) : ids.foldl (sweep reason) v = { v with
    sessions := fun j => if j ∈ ids then none else v.sessions j
    route := (ids.foldl (sweep reason) v).route
    history := (ids.foldl (sweep reason) v).history
    pending := (ids.foldl (sweep reason) v).pending } := by
  induction ids generalizing v with
  | nil => simp
  | cons id ids ih =>
    rw [List.foldl_cons, ih, sweep_eq]
    congr 1
    funext j
    by_cases hj : j = id <;> simp [hj]

end View

lemma view_endInPassing (h : e.find id = some p) (reason : DisconnectReason) :
    (endInPassing reason e id).view = (e.view.set id p.view.told).log (p.view.farewell id reason) :=
  view_report e h reason

lemma said_endInPassing (reason : DisconnectReason) (ids : List PeerId) (hn : ids.Nodup) (e : NetworkEngine)
    (v : View) (hs : ∀ id ∈ ids, v.sessions id = e.view.sessions id) (hh : v.said = e.view.said) :
    (ids.foldl (endInPassing reason) e).view.said = (ids.foldl (View.sweep reason) v).said := by
  induction ids generalizing e v with
  | nil => exact hh.symm
  | cons id ids ih =>
    rw [List.nodup_cons] at hn
    have hv := hs id List.mem_cons_self
    have hne : ∀ j ∈ ids, j ≠ id := by
      rintro j hj rfl
      exact hn.1 hj
    rw [List.foldl_cons, List.foldl_cons]
    cases h : e.find id with
    | none =>
      have he : (endInPassing reason e id).view = e.view := by rw [endInPassing, view_withMailbox, report, h]
      rw [sessions_view_none e h] at hv
      apply ih hn.2
      · intro j hj
        rw [he, View.sweep, hv]
        exact hs j (List.mem_cons_of_mem id hj)
      · rw [View.sweep, hv]
        exact hh.trans (congrArg View.said he.symm)
    | some p =>
      have he := view_endInPassing e h reason
      rw [sessions_view e h] at hv
      apply ih hn.2
      · intro j hj
        rw [he, View.sweep, hv, View.sessions_log, View.sessions_log, View.sessions_drop_of_ne _ _ (hne j hj),
          View.sessions_set_of_ne _ _ _ (hne j hj)]
        exact hs j (List.mem_cons_of_mem id hj)
      · rw [he, View.sweep, hv]
        apply View.said_log
        rw [View.said_drop, View.said_set, hh]

def View.setting (v : View) := (v.id, v.autoAccept, v.identity, v.route, v.socket, v.shutdown, v.outbox)

lemma setting_endInPassing (reason : DisconnectReason) (e : NetworkEngine) (id : PeerId) :
    (endInPassing reason e id).view.setting = e.view.setting := by
  cases h : e.find id with
  | none => rw [endInPassing, view_withMailbox, report, h]
  | some p =>
    rw [view_endInPassing e h]
    rfl

lemma setting_endInPassings (reason : DisconnectReason) (ids : List PeerId) (e : NetworkEngine) :
    (ids.foldl (endInPassing reason) e).view.setting = e.view.setting := by
  induction ids generalizing e with
  | nil => rfl
  | cons id ids ih => rw [List.foldl_cons, ih, setting_endInPassing]

lemma view_releasePeer (id : PeerId) : (e.releasePeer id).view = e.view := by
  rw [releasePeer]
  split <;> rfl

lemma view_endAllSessions (reason : DisconnectReason) : (e.endAllSessions reason).view = { e.view with
    sessions := fun _ => none
    route := fun _ => none
    history := (e.mPeers.keys.foldl (endInPassing reason) e).view.said.1
    pending := (e.mPeers.keys.foldl (endInPassing reason) e).view.said.2 } := by
  have hset := setting_endInPassings reason e.mPeers.keys e
  generalize hpassed : e.mPeers.keys.foldl (endInPassing reason) e = passed at hset ⊢
  have hreleased := view_foldl view_releasePeer passed.mPeers.keys passed
  rw [← hreleased] at hset
  have hsaid := congrArg View.said hreleased
  simp only [View.setting, view, Prod.mk.injEq, View.said] at hset hsaid
  obtain ⟨h₁, h₂, h₃, -, h₅, h₆, h₇⟩ := hset
  rw [view, View.mk.injEq]
  refine ⟨?_, ?_, ?_, ?_, ?_, ?_, ?_, ?_, ?_, ?_⟩ <;> simp_all [endAllSessions, find, view, View.said]

lemma reaches_endAllSessions (reason : DisconnectReason) : Reaches Γ e (e.endAllSessions reason) := by
  intro hs
  have hrun := View.run_sweeps (Γ := Γ) reason e.mPeers.keys e.view
  have hw := hs.run hrun
  have heq := View.sweeps_eq reason e.mPeers.keys e.view
  have hnone : ∀ j, (e.mPeers.keys.foldl (View.sweep reason) e.view).sessions j = none := by
    intro j
    rw [heq]
    by_cases hj : j ∈ e.mPeers.keys
    · simp [hj]
    · have hf : e.find j = none := by
        rw [mem_keys_iff] at hj
        simpa using hj
      simp [hj, sessions_view_none e hf]
  have hroute : ∀ x, (e.mPeers.keys.foldl (View.sweep reason) e.view).route x = none := by
    intro x
    cases hx : (e.mPeers.keys.foldl (View.sweep reason) e.view).route x with
    | none => rfl
    | some id =>
      obtain ⟨s, hs, -⟩ := hw.routed x id hx
      simp [hnone] at hs
  have hsaid := said_endInPassing reason e.mPeers.keys
    (Std.TreeMap.nodup_keys) e e.view (fun _ _ => rfl) rfl
  have hview : (e.endAllSessions reason).view = e.mPeers.keys.foldl (View.sweep reason) e.view := by
    rw [view_endAllSessions, hsaid, heq, View.mk.injEq]
    rw [heq] at hnone hroute
    exact ⟨rfl, rfl, rfl, (funext hnone).symm, (funext hroute).symm, rfl, rfl, rfl, rfl, rfl⟩
  rw [hview]
  exact hrun

lemma reaches_forgetPeers : Reaches Γ e e.forgetPeers := by
  rw [forgetPeers]
  dsimp only
  have hclear : Reaches Γ e { e with mDiscovery := e.mDiscovery.clear.2 } := .of_view rfl
  exact hclear.trans (.foldl (fun e id => reaches_notice e _ (.inr (.inl rfl))) _ _)

lemma reaches_bind (hb : e.mIoSocket = none) (iface : LocalInterface) : Reaches Γ e (e.bind iface) := by
  rw [bind]
  dsimp only
  split
  · exact .of_view rfl
  next here hc =>
  intro hs
  refine (Relation.ReflTransGen.single (.rebind (some here) (hs.bound hb))).tail ?_
  exact .notice _ (.inr (.inr rfl))

lemma sessions_forgetPeers : e.forgetPeers.view.sessions = e.view.sessions := by
  rw [forgetPeers]
  generalize e.mDiscovery.clear = cleared
  obtain ⟨known, discovery⟩ := cleared
  dsimp only
  have hkeep : ∀ (ids : List PeerId) (e : NetworkEngine),
      (ids.foldl (fun e id => e.emit { kind := .peerLost, peer := id }) e).view.sessions = e.view.sessions := by
    intro ids
    induction ids with
    | nil => exact fun _ => rfl
    | cons id ids ih => exact fun e => ih _
  exact hkeep known _

lemma reaches_leave (reason : DisconnectReason) (current : Option LocalInterface) : Reaches Γ e
    { (if e.mIoSocket.isSome then e.endAllSessions reason else e).forgetPeers with
      mPeersChanged := true
      mInterface := current }.closeSockets := by
  have hended : Reaches Γ e (if e.mIoSocket.isSome then e.endAllSessions reason else e) :=
    .ite (reaches_endAllSessions e reason) (.refl e)
  intro hs
  have hnone : ∀ j, (if e.mIoSocket.isSome then e.endAllSessions reason else e).view.sessions j = none := by
    intro j
    split
    · rw [view_endAllSessions]
    · next hb =>
      have hb : e.mIoSocket = none := by simpa using hb
      exact hs.bound hb j
  refine (hended.trans ((reaches_forgetPeers _).trans (.of_move (.rebind none ?_)))) hs
  rwa [sessions_forgetPeers]

lemma reaches_updateInterface (socketFailed : Bool) : Reaches Γ e (e.updateInterface socketFailed) := by
  rw [updateInterface]
  dsimp only
  split
  · split
    · exact .of_view rfl
    · split
      · next hb =>
        exact .trans (.of_view rfl) (reaches_bind { e with mCheckInterface := false } (by simpa using hb) _)
      · exact .of_view rfl
  · have hleave := fun reason current => reaches_leave (Γ := Γ) { e with mCheckInterface := false } reason current
    split
    · exact .trans (.of_view rfl) (hleave _ _)
    · split
      · exact .trans (.of_view rfl) ((hleave _ _).trans (reaches_bind _ rfl _))
      · exact .trans (.of_view rfl) (hleave _ _)

lemma identity_onBeacon (d : Discovery.DiscoveryLogic) (origin : SocketAddress) (bytes : List UInt8)
    (now : TimePoint) :
    (d.onBeacon origin bytes now).2.mIdentity = d.mIdentity := by
  rw [Discovery.DiscoveryLogic.onBeacon]
  split
  · rfl
  split
  · rfl
  split
  · dsimp only
    split <;> rfl
  · split <;> rfl

lemma reaches_onBeacon (origin : SocketAddress) (bytes : List UInt8) (now : TimePoint) :
    Reaches Γ e (e.onBeacon origin bytes now) := by
  rw [onBeacon]
  split
  · exact .refl e
  have hseen : Reaches Γ e { e with mDiscovery := (e.mDiscovery.onBeacon origin bytes now).2 } := by
    apply Reaches.of_view
    rw [view, identity_onBeacon]
    rfl
  refine hseen.trans ?_
  generalize e.mDiscovery.onBeacon origin bytes now = answer
  obtain ⟨seen, discovery⟩ := answer
  dsimp only
  split
  · exact .refl _
  next peer hp =>
  have hnew : Reaches Γ { e with mDiscovery := discovery } (if seen.sighting = .new then
      { ({ e with mDiscovery := discovery }.emit
          { kind := .peerDiscovered, peer := peer.info.id, info := peer.info }) with
        mPeersChanged := true } else { e with mDiscovery := discovery }) :=
    .ite ((reaches_notice _ _ (.inl rfl)).then_view rfl) (.refl _)
  exact .ite (hnew.trans (reaches_sendBeacon _ _ _)) hnew

lemma reaches_serviceTimer (now : TimePoint) (id : PeerId) : Reaches Γ e (serviceTimer now e id) := by
  rw [serviceTimer]
  split
  · exact .refl e
  next p h =>
  have htimer : Reaches Γ e (if p.deadline.any (· ≤ now) then (e.onLink id (·.onTimer now)).touch id else e) :=
    .ite ((reaches_onLink e id _ fun l => .onTimer l now).then_view rfl) (.refl e)
  exact .ite (htimer.then_view rfl) htimer

lemma reaches_serviceTimers (now : TimePoint) : Reaches Γ e (e.serviceTimers now) :=
  .foldl (fun e id => reaches_serviceTimer e now id) _ _

lemma reaches_tick (now : TimePoint) : Reaches Γ e (e.tick now) := by
  have hlost : ∀ (e : NetworkEngine) (id : PeerId),
      Reaches Γ e { e.emit { kind := .peerLost, peer := id } with mPeersChanged := true } :=
    fun e id => (reaches_notice e _ (.inr (.inl rfl))).then_view rfl
  rw [tick]
  exact .trans (.of_view rfl) (.foldl hlost _ { e with
    mNextTick := some (now + BeaconInterval)
    mBeaconDue := true
    mDiscovery := (e.mDiscovery.expire now fun id => e.mPeers.contains id).2 })

lemma reaches_updatePause : Reaches Γ e e.updatePause := by
  have hpause : ∀ (e : NetworkEngine) (id : PeerId), Reaches Γ e (e.pausePeer id) :=
    fun e id => (reaches_onLink e id _ fun l => .setPaused l e.mPaused).then_view rfl
  rw [updatePause]
  exact .ite (.refl e) (.trans (.of_view rfl) (.foldl hpause _ { e with mPaused := !e.mPaused }))

lemma reaches_announce : Reaches Γ e e.announce := by
  rw [announce]
  exact .ite (.trans (.of_view rfl) (reaches_sendBeacon { e with mBeaconDue := false } _ _)) (.of_view rfl)

end NetLink.NetworkEngine
