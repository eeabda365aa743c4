import Mathlib.Data.List.Perm.Basic
import NetLink.Engine.Runs.Sessions

/-! Commands of the application, as runs of moves. -/

namespace NetLink.NetworkEngine

open Net (SocketAddress)
open Channel (TimePoint ReliableLink Mailbox)

variable {Γ : Rules} (e : NetworkEngine) {id : PeerId} {p : Peer}

lemma free_of_head? {ids : List UInt32} {x : UInt32}
    (h : (ids.dropWhile fun id => id == 0 || e.mByStream.contains id).head? = some x) :
    x ≠ 0 ∧ e.mByStream[x]? = none := by
  have hn := List.head?_dropWhile_not (fun id => id == 0 || e.mByStream.contains id) ids
  rw [h] at hn
  refine ⟨?_, ?_⟩
  · rintro rfl
    simp at hn
  · cases hx : e.mByStream[x]? with
    | none => rfl
    | some id =>
      have hc : e.mByStream.contains x = true := by
        rw [Std.TreeMap.contains_eq_isSome_getElem?, hx]
        rfl
      simp [hc] at hn

def candidates (n : ℕ) : List UInt32 := (List.range (n + 1)).map fun n => UInt32.ofNat (n + 1)

lemma drawStreamID_cases :
    (∃ ids : List UInt32, (ids.dropWhile fun id => id == 0 || e.mByStream.contains id).head? =
      some e.drawStreamID.1) ∨
    e.drawStreamID.1 = 1 ∧ ∀ x ∈ candidates e.mByStream.size, (x == 0 || e.mByStream.contains x) = true := by
  rw [drawStreamID]
  split
  · next x rest he => exact .inl ⟨e.world.streamIDs, by rw [he]; rfl⟩
  · cases hx : ((candidates e.mByStream.size).dropWhile fun id => id == 0 || e.mByStream.contains id).head? with
    | some x =>
      refine .inl ⟨candidates e.mByStream.size, ?_⟩
      rw [hx]
      exact congrArg some (congrArg (Option.getD · 1) hx).symm
    | none =>
      refine .inr ⟨congrArg (Option.getD · 1) hx, ?_⟩
      rwa [List.head?_eq_none_iff, List.dropWhile_eq_nil_iff] at hx

lemma drawStreamID_ne_zero : e.drawStreamID.1 ≠ 0 := by
  rcases drawStreamID_cases e with ⟨ids, hx⟩ | ⟨hx, -⟩
  · exact (free_of_head? e hx).1
  · simp [hx]

lemma mem_keys_iff : id ∈ e.mPeers.keys ↔ (e.find id).isSome := by
  rw [Std.TreeMap.mem_keys, find, ← Std.TreeMap.isSome_getElem?_iff_mem]

lemma size_mByStream_le (hs : Sound e.view) : e.mByStream.size ≤ e.mPeers.size := by
  let owner : UInt32 → PeerId := fun x => (e.mByStream[x]?).getD 0
  have howner : ∀ x ∈ e.mByStream.keys, ∃ p, e.find (owner x) = some p ∧ p.link.mLocalStreamID = x := by
    intro x hx
    rw [Std.TreeMap.mem_keys] at hx
    obtain ⟨id, hid⟩ : ∃ id, e.mByStream[x]? = some id := Option.isSome_iff_exists.mp (by simpa using hx)
    obtain ⟨s, hs, hl⟩ := hs.routed x id hid
    obtain ⟨p, hp, rfl⟩ := Option.map_eq_some_iff.mp hs
    refine ⟨p, ?_, hl⟩
    simp only [owner, hid, Option.getD_some]
    exact hp
  have hnodup : (e.mByStream.keys.map owner).Nodup := by
    refine Std.TreeMap.nodup_keys.map_on fun x hx y hy hxy => ?_
    obtain ⟨p, hp, rfl⟩ := howner x hx
    obtain ⟨q, hq, rfl⟩ := howner y hy
    rw [hxy] at hp
    obtain rfl := Option.some.inj (hp.symm.trans hq)
    rfl
  have hsub : e.mByStream.keys.map owner ⊆ e.mPeers.keys := by
    intro id hid
    obtain ⟨x, hx, rfl⟩ := List.mem_map.mp hid
    obtain ⟨p, hp, -⟩ := howner x hx
    rw [mem_keys_iff, hp]
    rfl
  have hlen := (List.subperm_of_subset hnodup hsub).length_le
  rwa [List.length_map, Std.TreeMap.length_keys, Std.TreeMap.length_keys] at hlen

lemma toNat_candidate {n size : ℕ} (hn : n < size + 1) (hs : size < MaxPeers) :
    (UInt32.ofNat (n + 1)).toNat = n + 1 := by
  have hmax : MaxPeers = 256 := rfl
  rw [UInt32.toNat_ofNat']
  omega

lemma drawStreamID_free (hs : Sound e.view) (hm : e.mPeers.size < MaxPeers) :
    e.mByStream[e.drawStreamID.1]? = none := by
  have hsize : e.mByStream.size < MaxPeers := Nat.lt_of_le_of_lt (size_mByStream_le e hs) hm
  rcases drawStreamID_cases e with ⟨ids, hx⟩ | ⟨-, htaken⟩
  · exact (free_of_head? e hx).2
  exfalso
  have hnodup : (candidates e.mByStream.size).Nodup := by
    refine List.nodup_range.map_on fun a ha b hb hab => ?_
    have hn := congrArg UInt32.toNat hab
    rw [toNat_candidate (List.mem_range.mp ha) hsize, toNat_candidate (List.mem_range.mp hb) hsize] at hn
    omega
  have hsub : candidates e.mByStream.size ⊆ e.mByStream.keys := by
    intro x hm
    have hx := htaken x hm
    obtain ⟨n, hn, rfl⟩ := List.mem_map.mp hm
    rcases Bool.or_eq_true _ _ ▸ hx with h0 | hc
    · have h0 := congrArg UInt32.toNat (beq_iff_eq.mp h0)
      rw [toNat_candidate (List.mem_range.mp hn) hsize] at h0
      cases h0
    · rw [Std.TreeMap.mem_keys]
      exact hc
  have hlen := (List.subperm_of_subset hnodup hsub).length_le
  rw [candidates, List.length_map, List.length_range, Std.TreeMap.length_keys] at hlen
  omega

def newLink (e : NetworkEngine) (now : TimePoint) : ReliableLink :=
  ((ReliableLink.new e.mConfig.timings e.drawStreamID.1 (some e.mAssemblyBudget)).supervise
    now).setPaused e.mPaused

lemma newLink_eq (now : TimePoint) : (e.newLink now).mLocalStreamID = e.drawStreamID.1 ∧
    e.newLink now = { e.newLink now with mBudget := some e.mAssemblyBudget } := by
  rw [newLink]
  cases e.mPaused <;> exact ⟨rfl, rfl⟩

lemma newborn_newLink (now : TimePoint) (budget : Channel.AssemblyBudget) :
    Newborn { e.newLink now with mBudget := some budget } :=
  ⟨_, _, _, now, _, _, drawStreamID_ne_zero e, rfl⟩

lemma find_addPeer (info : PeerInfo) (address : SocketAddress) (byHello : Bool) (now : TimePoint) :
    (e.addPeer info address byHello now).find info.id =
      some { info := info, address := address, link := e.newLink now } := by
  simp [find, addPeer, touch, record, newLink]

lemma view_addPeer (info : PeerInfo) (address : SocketAddress) (byHello : Bool) (now : TimePoint) :
    (e.addPeer info address byHello now).view = (e.view.openSession info.id
      { address := address, link := e.newLink now }).log
      [.opened info.id (e.newLink now).mLocalStreamID byHello] := by
  have hs : (e.addPeer info address byHello now).view.sessions = Function.update e.view.sessions info.id
      (some { address := address, link := e.newLink now }) := by
    funext j
    simp only [view, find, addPeer, touch, record, Std.TreeMap.getElem?_insert]
    by_cases hj : j = info.id
    · simp [hj, Peer.view, newLink]
    · simp [Ne.symm hj, hj]
  have hr : (e.addPeer info address byHello now).view.route =
      Function.update e.view.route (e.newLink now).mLocalStreamID (some info.id) := by
    funext x
    rw [(newLink_eq e now).1]
    simp only [view, addPeer, touch, record, Std.TreeMap.getElem?_insert]
    by_cases hx : x = e.drawStreamID.1
    · simp [hx]
    · simp [Ne.symm hx, hx]
  have hm : [Mark.opened info.id e.drawStreamID.1 byHello].filterMap Mark.event = [] := rfl
  rw [View.openSession, ← hs, ← hr, (newLink_eq e now).1, View.log, hm, List.append_nil]
  rfl

lemma id_of_known {known : Discovery.KnownPeer} (h : e.mDiscovery.find id = some known) : known.info.id = id := by
  obtain ⟨entry, he, rfl⟩ := Option.map_eq_some_iff.mp h
  exact e.mDiscovery.keyed id entry he

def View.asking (v : View) (id : PeerId) (address : SocketAddress) (l : ReliableLink) : SessionView :=
  { address := address, link := l, control := [v.helloMessage id], initiator := true, announced := true }

lemma view_openSession (id : PeerId) (now : TimePoint) :
    (∃ reason, (e.openSession id now).view = e.view.log [.refused id, SessionView.disconnected id reason]) ∨
      ∃ address l, Newborn l ∧ e.view.socket.isSome ∧ (Sound e.view → e.view.route l.mLocalStreamID = none) ∧
        (e.openSession id now).view =
        (e.view.openSession id (e.view.asking id address l)).log [.opened id l.mLocalStreamID false] := by
  rw [openSession]
  split
  · exact .inl ⟨.lost, by rw [view_emit, view_record _ (by rfl), View.log_log]; rfl⟩
  next known hk =>
  obtain rfl := id_of_known e hk
  split
  · exact .inl ⟨.localEnd, by rw [view_emit, view_record _ (by rfl), View.log_log]; rfl⟩
  next hb =>
  have hm : e.mPeers.size < MaxPeers := Nat.lt_of_not_le fun hm => hb (.inr hm)
  have hb : e.mIoSocket ≠ none := fun hn => hb (.inl (by rw [hn]; rfl))
  have hl : Newborn (e.newLink now) := by
    rw [(newLink_eq e now).2]
    exact newborn_newLink e now _
  refine .inr ⟨known.endpoint, e.newLink now, hl, Option.isSome_iff_ne_none.mpr hb, fun hs => ?_, ?_⟩
  · rw [(newLink_eq e now).1]
    exact drawStreamID_free e hs hm
  dsimp only
  rw [view_withMailbox, view_modifyPeer _ (find_addPeer e known.info known.endpoint false now), view_addPeer,
    View.set_log, View.set_openSession _ _ _ _ (by rfl)]
  rfl

lemma view_sendAccept (h : e.find id = some p) : (e.sendAccept id).view = (e.view.set id (p.view.accepted
    (controlMessage .accept ({ name := e.mDiscovery.mIdentity.name } : Session.Accept).encode))).log
    [.acceptQueued id] := by
  rw [sendAccept, view_record _ (by rfl), view_touch, view_withMailbox, view_modifyPeer e h]
  rfl

lemma find_sendAccept (h : e.find id = some p) : (e.sendAccept id).find id = some { p with
    control := p.control ++ [controlMessage .accept
      ({ name := e.mDiscovery.mIdentity.name } : Session.Accept).encode]
    state := .connecting
    acceptSent := true
    stateDeadline := none } := by
  simp [sendAccept, h]

def Peer.ignores (peer : Peer) : Bool :=
  !(peer.state == .closing && peer.closeSent) && (peer.ended || (peer.state == .connecting && !peer.announced))

def Swallows (e : NetworkEngine) (c : Mailbox.PostedCommand) : Prop :=
  c.command = .connect ∧ (e.find c.peer).any Peer.ignores

instance (c : Mailbox.PostedCommand) : Decidable (e.Swallows c) := inferInstanceAs (Decidable (_ ∧ _))

lemma ignores_of (hl : ¬p.view.Lingers)
    (hi : p.view.ended = true ∨ p.view.state = .connecting ∧ p.view.announced = false) : p.ignores = true := by
  have hl : (p.state == .closing && p.closeSent) = false := by simpa [SessionView.Lingers, Peer.view] using hl
  rw [Peer.ignores, hl]
  rcases hi with he | ⟨hs, ha⟩
  · have he : p.ended = true := he
    simp [he]
  · have hs : p.state = .connecting := hs
    have ha : p.announced = false := ha
    simp [hs, ha]

lemma reaches_answered {c : Mailbox.Command} (hc : c = .accept ∨ c = .connect) (h : e.find id = some p)
    (hs : p.state = .awaitingDecision) (hq : e.Swallows ⟨c, id⟩ → Γ.swallows) :
      Reaches Γ e ((e.record (.applied c id)).sendAccept id) := by
  apply Reaches.of_move
  rw [view_sendAccept (e.record (.applied c id)) h, view_record _ (by rfl), View.set_log, View.log_log]
  refine .answered c id p.view _ (follows_accept _) hc (sessions_view e h) hs fun hc he => hq ⟨hc, ?_⟩
  have hs : p.view.state = .awaitingDecision := hs
  exact (Option.any_eq_true _ _).mpr ⟨p, h, ignores_of (by simp [SessionView.Lingers, hs]) (.inl he)⟩

lemma reaches_applied_openSession {before : NetworkEngine} (now : TimePoint)
    (hl : ∀ s, before.view.sessions id = some s → s.Lingers)
    (he : e.view = (before.view.drop id).log [.applied .connect id]) :
      Reaches Γ before (e.openSession id now) := by
  intro hs
  refine Relation.ReflTransGen.single ?_
  rcases view_openSession e id now with ⟨reason, hv⟩ | ⟨address, l, hn, hb, hx, hv⟩
  · rw [hv, he, View.log_log]
    exact .refused id reason hl
  · have hx : (before.view.drop id).route l.mLocalStreamID = none := by
      have hx := hx (by rw [he]; exact (hs.drop id).log _)
      rwa [he] at hx
    rw [he, View.drop_eq] at hb
    have hm := Move.opened (Γ := Γ) (v := before.view) id address l hl hb hn hx
    have ha : e.view.asking id address l = before.view.asking id address l := by
      rw [he, View.drop_eq]
      rfl
    rw [hv, ha, he, View.openSession_log, View.log_log]
    exact hm

lemma reaches_connect (id : PeerId) (now : TimePoint) (hq : e.Swallows ⟨.connect, id⟩ → Γ.swallows) :
    Reaches Γ e ((e.record (.applied .connect id)).startSession id now) := by
  rw [startSession]
  split
  · next hs =>
    apply Reaches.of_move
    rw [view_record _ (by rfl)]
    exact .late id hs
  split
  · next h =>
    have h : e.find id = none := h
    have hn := sessions_view_none e h
    refine reaches_applied_openSession _ now (by simp [hn]) ?_
    rw [View.drop_of_none _ _ hn, view_record _ (by rfl)]
  next p h =>
  have h : e.find id = some p := h
  have hs := sessions_view e h
  split
  · next ha =>
    exact reaches_answered e (.inr rfl) h ha hq
  next ha =>
  split
  · next hc =>
    have hl : ¬p.view.Lingers := by
      rintro ⟨hs, hcs⟩
      have hcs : p.closeSent = true := hcs
      rcases hc with hc | hc
      · exact hc hs
      · simp [hcs] at hc
    apply Reaches.of_move
    rw [view_record _ (by rfl)]
    refine .ignored id p.view hs ha hl fun hi => hq ⟨rfl, ?_⟩
    exact (Option.any_eq_true _ _).mpr ⟨p, h, ignores_of hl hi⟩
  · next hc =>
    simp only [not_or, not_not, Bool.not_eq_true', Bool.not_eq_false] at hc
    refine reaches_applied_openSession _ now ?_ ?_
    · intro s hs'
      obtain rfl := Option.some.inj (hs.symm.trans hs')
      exact hc
    · rw [view_erase, view_record _ (by rfl), View.drop_log]

lemma reaches_applied (c : Mailbox.Command) (id : PeerId) (hc : c ≠ .connect) :
    Reaches Γ e (e.record (.applied c id)) := by
  apply Reaches.of_move
  rw [view_record _ (by rfl)]
  exact .applied c id hc

lemma reaches_endSession (id : PeerId) (now : TimePoint) : Reaches Γ e (e.endSession id now) := by
  rw [endSession]
  split
  · exact .refl e
  next p h =>
  split
  · next hs =>
    refine .of_session (sessions_view e h) (.drain hs) ?_
    rw [view_touch, view_modifyPeer e h, View.log_nil]
    rfl
  · next hs => exact reaches_sendDecline e h hs now
  · next hs => exact reaches_close e h (by simp [hs]) .localEnd now
  · exact .refl e

lemma reaches_shutdownPeer (now : TimePoint) (id : PeerId) : Reaches Γ e (shutdownPeer now e id) := by
  cases h : e.find id with
  | none => exact .of_view (by simp [shutdownPeer, report, h])
  | some p =>
    have hp := find_report e h .shutdown
    rw [shutdownPeer]
    simp only [hp]
    split
    · next hs =>
      -- Nothing is left to report when the Decline is sent
      refine .of_session (sessions_view e h) (.decline _ .shutdown follows_decline hs) ?_
      rw [view_sendDecline _ hp, view_report e h, View.set_log, View.set_set, View.log_log]
      have hv : p.told.view = p.view.told := rfl
      rw [hv, SessionView.told_told, SessionView.farewell_told, List.append_nil]
    split
    · next hs hc => exact reaches_close e h hs .shutdown now
    · next hs hc =>
      have hc : p.closeSent = true := by simpa [Peer.told] using hc
      exact .of_session (sessions_view e h) (.tell .shutdown hc) (view_report e h .shutdown)

lemma reaches_beginShutdown (now : TimePoint) : Reaches Γ e (e.beginShutdown now) := by
  rw [beginShutdown]
  split
  · exact .refl e
  · have hoff : Reaches Γ e { e with mShutdown := true, mDiscovery := e.mDiscovery.setAnnouncing false } :=
      .of_move .shutDown
    have hpeers := Reaches.foldl (Γ := Γ) (fun e id => reaches_shutdownPeer e now id) e.mPeers.keys
    exact (hoff.trans (hpeers _)).then_view (view_withMailbox _ _)

lemma reaches_apply (now : TimePoint) (c : Mailbox.PostedCommand) (hq : e.Swallows c → Γ.swallows) :
    Reaches Γ e (apply now e c) := by
  obtain ⟨command, id⟩ := c
  cases command with
  | connect => exact reaches_connect e id now hq
  | accept =>
    rw [apply]
    dsimp only
    split
    · next hs =>
      obtain ⟨p, h, hs⟩ := (Option.any_eq_true _ _).mp hs
      exact reaches_answered e (.inl rfl) h (by simpa using hs) hq
    · exact reaches_applied e .accept id (by decide)
  | decline =>
    refine (reaches_applied e .decline id (by decide)).trans ?_
    rw [apply]
    dsimp only
    split
    · next hs =>
      obtain ⟨p, h, hs⟩ := (Option.any_eq_true _ _).mp hs
      exact reaches_sendDecline _ h (by simpa using hs) now
    · exact .refl _
  | disconnect => exact (reaches_applied e .disconnect id (by decide)).trans (reaches_endSession _ id now)
  | announce => exact (reaches_applied e .announce id (by decide)).then_view rfl
  | stopAnnouncing => exact (reaches_applied e .stopAnnouncing id (by decide)).then_view rfl
  | checkInterface => exact (reaches_applied e .checkInterface id (by decide)).then_view rfl
  | resumeReceiving => exact reaches_applied e .resumeReceiving id (by decide)
  | shutdown => exact (reaches_applied e .shutdown id (by decide)).trans (reaches_beginShutdown _ now)

end NetLink.NetworkEngine
