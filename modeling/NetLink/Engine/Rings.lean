import NetLink.Channel.RunEnds
import NetLink.Engine.Turn

/-! The rings of the scheduler and the marks in the records say the same. -/

namespace NetLink

namespace Channel.SendScheduler

variable {r : Ring} {peer : PeerId}

lemma peers_remove (hn : r.peers.Nodup) : (r.remove peer).peers = r.peers.erase peer := by
  rw [Ring.remove]
  split
  · next h =>
    refine (List.erase_of_not_mem fun hm => ?_).symm
    have hp := List.findIdx?_eq_none_iff.mp h peer hm
    simp at hp
  · next i h =>
    obtain ⟨hi, hp, -⟩ := List.findIdx?_eq_some_iff_getElem.mp h
    obtain rfl := beq_iff_eq.mp hp
    exact (hn.erase_getElem i hi).symm

lemma peers_answered (hn : r.peers.Nodup) (hc : r.cursor < r.peers.length) (result : Result) :
    (r.answered result).peers = if result = .empty then r.peers.erase (r.peers.getD r.cursor 0) else r.peers := by
  cases result with
  | sent =>
    rw [Ring.answered]
    split <;> rfl
  | lost => rfl
  | empty =>
    rw [if_pos rfl, List.getD_eq_getElem _ _ hc]
    exact (hn.erase_getElem _ hc).symm
  | blocked => rfl

end Channel.SendScheduler

namespace NetworkEngine

open Channel (TimePoint ReliableLink Packet Mailbox SendScheduler)
open Channel.SendScheduler (Ring)

structure Rung (rings : Channel.Lane → Ring) (e : NetworkEngine) : Prop where
  nodup : ∀ lane, (rings lane).peers.Nodup
  mem : ∀ lane j, j ∈ (rings lane).peers ↔ (e.find j).any (·.scheduled lane) = true

variable {rings : Channel.Lane → Ring} {T : Terms} {who : Option PeerId} {e e' : NetworkEngine} {id : PeerId}
  {p : Peer}

namespace Rung

lemma mem_of_some (h : Rung rings e) (hf : e.find id = some p) (lane : Channel.Lane) :
    id ∈ (rings lane).peers ↔ p.scheduled lane = true := by
  rw [h.mem, hf, Option.any_some]

lemma congr (h : Rung rings e) (hs : ∀ j, (e'.find j).map (·.scheduled) = (e.find j).map (·.scheduled)) :
    Rung rings e' where
  nodup := h.nodup
  mem lane j := by
    have hany : ∀ e : NetworkEngine, (e.find j).any (·.scheduled lane) =
      ((e.find j).map (·.scheduled)).any (· lane) :=
      fun e => by rw [Option.any_map]
    rw [h.mem, hany, hany, hs]

lemma turn (h : Rung e.mScheduler.mRings e) (ht : Turn id e e') : Rung e'.mScheduler.mRings e' := by
  rw [ht.rings]
  refine h.congr fun j => ?_
  by_cases hj : j = id
  · rw [hj]
    exact ht.scheduled
  · rw [ht.others j hj]

lemma add (h : Rung rings e) (hf : e.find id = some p) {lane : Channel.Lane} (hs : p.scheduled lane = false)
    (hfind : e'.find id = some { p with scheduled := Function.update p.scheduled lane true })
    (hothers : ∀ j ≠ id, e'.find j = e.find j) :
    Rung (Function.update rings lane { rings lane with peers := (rings lane).peers ++ [id] }) e' := by
  have hout : id ∉ (rings lane).peers := by
    rw [h.mem_of_some hf, hs]
    exact Bool.false_ne_true
  refine ⟨fun other => ?_, fun other j => ?_⟩
  · by_cases ho : other = lane
    · subst ho
      rw [Function.update_self]
      exact List.nodup_append_comm.mp (List.nodup_cons.mpr ⟨hout, h.nodup other⟩)
    · rw [Function.update_of_ne ho]
      exact h.nodup other
  · by_cases hj : j = id
    · subst hj
      rw [hfind, Option.any_some]
      by_cases ho : other = lane
      · subst ho
        simp
      · dsimp only
        rw [Function.update_of_ne ho, Function.update_of_ne ho, h.mem_of_some hf]
    · rw [hothers j hj, ← h.mem]
      by_cases ho : other = lane
      · subst ho
        simp [hj]
      · rw [Function.update_of_ne ho]

lemma leave (h : Rung rings e) {lane : Channel.Lane} {ring : Ring} (hr : ring.peers = (rings lane).peers.erase id)
    (hself : ∀ other, (e'.find id).any (·.scheduled other) = if other = lane then false else (e.find id).any
      (·.scheduled other))
    (hothers : ∀ j ≠ id, e'.find j = e.find j) : Rung (Function.update rings lane ring) e' := by
  refine ⟨fun other => ?_, fun other j => ?_⟩
  · by_cases ho : other = lane
    · subst ho
      rw [Function.update_self, hr]
      exact (h.nodup other).erase _
    · rw [Function.update_of_ne ho]
      exact h.nodup other
  · by_cases ho : other = lane
    · subst ho
      rw [Function.update_self, hr, (h.nodup other).mem_erase_iff, h.mem]
      by_cases hj : j = id
      · subst hj
        rw [hself, if_pos rfl]
        simp
      · rw [hothers j hj]
        exact and_iff_right hj
    · rw [Function.update_of_ne ho, h.mem]
      by_cases hj : j = id
      · subst hj
        rw [hself, if_neg ho]
      · rw [hothers j hj]

lemma erase (h : Rung e.mScheduler.mRings e) (id : PeerId) : Rung (e.erase id).mScheduler.mRings (e.erase id) := by
  cases hf : e.find id with
  | none =>
    rw [NetworkEngine.erase, hf]
    exact h
  | some p =>
    have hrings : (e.erase id).mScheduler.mRings = fun lane => (e.mScheduler.mRings lane).remove id := by
      rw [NetworkEngine.erase, hf]
      rfl
    rw [hrings]
    refine ⟨fun lane => ?_, fun lane j => ?_⟩
    · rw [SendScheduler.peers_remove (h.nodup lane)]
      exact (h.nodup lane).erase _
    · rw [SendScheduler.peers_remove (h.nodup lane), (h.nodup lane).mem_erase_iff, h.mem]
      by_cases hj : j = id
      · subst hj
        rw [find_erase]
        simp
      · rw [(elsewhere_erase e (Ne.symm hj)).find]
        exact and_iff_right hj

end Rung

lemma Rung.opens {now : TimePoint} (h : Rung e.mScheduler.mRings e) (hn : e.find id = none)
    (ho : Opens id now e e') (hr : e'.mScheduler.mRings = e.mScheduler.mRings)
    (hothers : ∀ j ≠ id, e'.find j = e.find j) :
    Rung e'.mScheduler.mRings e' := by
  obtain ⟨p, hp, hfresh, -⟩ := ho.find
  rw [hr]
  refine ⟨h.nodup, fun lane j => ?_⟩
  by_cases hj : j = id
  · subst hj
    rw [h.mem, hn, hp, Option.any_some, hfresh.scheduled]
    rfl
  · rw [h.mem, hothers j hj]

lemma scheduler_addPeer (e : NetworkEngine) (info : PeerInfo) (address : Net.SocketAddress) (byHello : Bool)
    (now : TimePoint) : (e.addPeer info address byHello now).mScheduler = e.mScheduler := rfl

lemma scheduler_modifyPeer (e : NetworkEngine) (id : PeerId) (f : Peer → Peer) :
    (e.modifyPeer id f).mScheduler = e.mScheduler := rfl

lemma scheduler_withMailbox (e : NetworkEngine) (f : Mailbox → Mailbox) :
    (e.withMailbox f).mScheduler = e.mScheduler := rfl

lemma scheduler_sendAccept (e : NetworkEngine) (id : PeerId) : (e.sendAccept id).mScheduler = e.mScheduler := rfl

lemma scheduler_emit (e : NetworkEngine) (event : EngineEvent) : (e.emit event).mScheduler = e.mScheduler := rfl

lemma scheduler_openSession (e : NetworkEngine) (id : PeerId) (now : TimePoint) :
    (e.openSession id now).mScheduler = e.mScheduler := by
  rw [openSession]
  split
  · rfl
  split
  · rfl
  · rw [scheduler_withMailbox, scheduler_modifyPeer, scheduler_addPeer]

lemma scheduler_admitPeer (e : NetworkEngine) (origin : Net.SocketAddress) (hello : Session.Hello)
    (crossing : Bool) (now : TimePoint) : (e.admitPeer origin hello crossing now).mScheduler = e.mScheduler := by
  rw [admitPeer]
  dsimp only
  split
  · rw [scheduler_sendAccept, scheduler_withMailbox, scheduler_modifyPeer, scheduler_addPeer]
  · rw [scheduler_emit, scheduler_withMailbox, scheduler_modifyPeer, scheduler_addPeer]

lemma uses_openSession (e : NetworkEngine) (id : PeerId) (now : TimePoint) :
    Mailbox.Uses e.mMailbox (e.openSession id now).mMailbox := by
  rw [openSession]
  split
  · exact .refl _
  split
  · exact .refl _
  · exact .trans (uses_lock _) (.of_same rfl rfl rfl)

lemma uses_publishSession (e : NetworkEngine) (id : PeerId) (session : Mailbox.Session) :
    Mailbox.Uses e.mMailbox (e.withMailbox (·.publishSession id session)).mMailbox :=
  .trans (uses_lock _) (.of_same rfl rfl rfl)

lemma uses_admitPeer (e : NetworkEngine) (origin : Net.SocketAddress) (hello : Session.Hello) (crossing : Bool)
    (now : TimePoint) : Mailbox.Uses e.mMailbox (e.admitPeer origin hello crossing now).mMailbox := by
  rw [admitPeer]
  dsimp only
  split
  · exact .trans (uses_publishSession ((e.addPeer (helloInfo origin hello) origin true now).modifyPeer _ _) _ _)
      (turn_sendAccept _).uses
  · exact uses_publishSession ((e.addPeer (helloInfo origin hello) origin true now).modifyPeer _ _) _ _

lemma uses_endAllSessions (e : NetworkEngine) (reason : DisconnectReason) :
    Mailbox.Uses e.mMailbox (e.endAllSessions reason).mMailbox := by
  have hended : ∀ (ids : List PeerId) (e : NetworkEngine),
      Mailbox.Uses e.mMailbox (ids.foldl (endInPassing reason) e).mMailbox := by
    intro ids
    induction ids with
    | nil => exact fun e => .refl _
    | cons id ids ih =>
      intro e
      have hclosed : Turn id e ((e.report id reason).withMailbox (·.close id)) :=
        (turn_report e reason).trans (turn_close _)
      exact hclosed.uses.trans (ih _)
  have hmail : (e.endAllSessions reason).mMailbox = (e.mPeers.keys.foldl (endInPassing reason) e).mMailbox :=
    mailbox_releasePeers _ _
  rw [hmail]
  exact hended _ e

lemma Act.collect_cases (h : Act T .collect who e e') : (∃ id, Turn id e e') ∨ (∃ id, e' = e.erase id) ∨
    (∃ id now, e.find id = none ∧ Opens id now e e' ∧ (∀ j ≠ id, e'.find j = e.find j) ∧
      e'.mScheduler = e.mScheduler ∧ Mailbox.Uses e.mMailbox e'.mMailbox) ∨
    ∃ reason, e' = e.endAllSessions reason := by
  cases h with
  | quiet h => exact .inl ⟨0, .of_quiet h⟩
  | publish _ f hf =>
    cases hf with
    | stats id stats =>
      exact .inl ⟨id, turn_withMailbox e (fun m => .publishStats m id stats) fun m j _ =>
        m.mails_publishStats j id stats⟩
    | running running => exact .inl ⟨0, turn_withMailbox e (fun m => .of_same rfl rfl rfl) fun _ _ _ => .refl⟩
  | discovered =>
    refine .inl ⟨0, ⟨fun _ _ => elsewhere_discovered e, ?_, fun _ h => h, fun _ h => h⟩, rfl, rfl⟩
    exact .trans (uses_lock _) (.of_same rfl rfl rfl)
  | report _ id reason => exact .inl ⟨id, turn_report e reason⟩
  | note _ id f hf => exact .inl ⟨id, turn_modifyPeer e hf.scheduled⟩
  | sendDecline _ id p now => exact .inl ⟨id, turn_sendDecline e now⟩
  | sendClose _ id p now => exact .inl ⟨id, turn_sendClose e now⟩
  | erase _ id => exact .inr (.inl ⟨id, rfl⟩)
  | sendAccept _ id p => exact .inl ⟨id, turn_sendAccept e⟩
  | drain _ id p now =>
    exact .inl ⟨id, (turn_modifyPeer e (by exact fun _ => rfl)).trans (.of_quiet (quiet_touch _ id))⟩
  | openSession _ id now hn =>
    rcases openSession_cases e id now with hq | ho
    · exact .inl ⟨id, .of_quiet hq⟩
    · exact .inr (.inr (.inl ⟨id, now, hn, ho, fun j hj => (elsewhere_openSession e hj.symm now).find,
        scheduler_openSession e id now, uses_openSession e id now⟩))
  | admitPeer _ origin hello crossing now hn hf =>
    exact .inr (.inr (.inl ⟨_, now, hn, opens_admitPeer e origin hello crossing now hf,
      fun j hj => (elsewhere_admitPeer e hj.symm crossing now).find,
        scheduler_admitPeer e origin hello crossing now,
      uses_admitPeer e origin hello crossing now⟩))
  | endAllSessions _ reason => exact .inr (.inr (.inr ⟨reason, rfl⟩))
  | pause _ id paused => exact .inl ⟨id, (turn_onLink e _).trans (.of_quiet (quiet_touch _ id))⟩
  | timer _ id now => exact .inl ⟨id, (turn_onLink e _).trans (.of_quiet (quiet_touch _ id))⟩
  | packet _ id p packet now => exact .inl ⟨id, (turn_onLink e _).trans (.of_quiet (quiet_touch _ id))⟩
  | overtaken _ id p packet now =>
    exact .inl ⟨id, ((turn_setConnected e).trans (turn_onLink _ _)).trans (.of_quiet (quiet_touch _ id))⟩
  | ready _ id => exact .inl ⟨id, (turn_modifyPeer e (by exact fun _ => rfl)).trans (.of_quiet (quiet_touch _ id))⟩

lemma Act.rung (h : Act T .collect who e e') (hr : Rung e.mScheduler.mRings e) : Rung e'.mScheduler.mRings e' := by
  rcases h.collect_cases with ⟨id, ht⟩ | ⟨id, rfl⟩ | ⟨id, now, hn, ho, hothers, hs, -⟩ | ⟨reason, rfl⟩
  · exact hr.turn ht
  · exact hr.erase id
  · exact hr.opens hn ho (by rw [hs]) hothers
  · refine ⟨fun _ => List.nodup_nil, fun lane j => ?_⟩
    rw [find_endAllSessions]
    exact iff_of_false List.not_mem_nil Bool.false_ne_true

lemma Act.uses (h : Act T .collect who e e') : Mailbox.Uses e.mMailbox e'.mMailbox := by
  rcases h.collect_cases with ⟨id, ht⟩ | ⟨id, rfl⟩ | ⟨id, now, -, -, -, -, hu⟩ | ⟨reason, rfl⟩
  · exact ht.uses
  · exact (beside_erase e id).uses
  · exact hu
  · exact uses_endAllSessions e reason

lemma Rung.scheduleLane (h : Rung e.mScheduler.mRings e) (id : PeerId) (lane : Channel.Lane) :
    Rung (scheduleLane id e lane).mScheduler.mRings (scheduleLane id e lane) := by
  rw [NetworkEngine.scheduleLane]
  split
  · exact h
  next hs =>
  obtain ⟨p, hf, hs⟩ : ∃ p, e.find id = some p ∧ p.scheduled lane = false := by
    cases hf : e.find id with
    | none => simp [hf] at hs
    | some p => exact ⟨p, rfl, by simpa [hf] using hs⟩
  have hpeeked := find_peek e hf lane
  have hrung : Rung (e.peek id lane).2.mScheduler.mRings (e.peek id lane).2 := h.turn (turn_peek e lane)
  split
  · next he =>
    rw [he] at hrung
    exact hrung
  · next peeked he =>
    rw [he] at hrung hpeeked
    exact hrung.add hpeeked hs (find_setScheduled _ hpeeked lane true)
      fun j hj => (elsewhere_modifyPeer _ hj.symm _).find

lemma rung_answers (now : TimePoint) : SendScheduler.Answers (sendOne now) Rung := by
  rintro rings e lane ring h hpeers rfl
  have hc := SendScheduler.cursor_wrapped hpeers
  have hn : (rings lane).wrapped.peers.Nodup := by
    rw [SendScheduler.peers_wrapped]
    exact h.nodup lane
  have hin : (rings lane).wrapped.peers.getD (rings lane).wrapped.cursor 0 ∈ (rings lane).peers := by
    rw [List.getD_eq_getElem _ _ hc, ← SendScheduler.peers_wrapped (rings lane)]
    exact List.getElem_mem hc
  have hafter := SendScheduler.peers_answered hn hc
    (sendOne now e lane ((rings lane).wrapped.peers.getD (rings lane).wrapped.cursor 0)).1
  rw [SendScheduler.peers_wrapped] at hafter hin ⊢
  generalize (rings lane).peers.getD (rings lane).wrapped.cursor 0 = id at hin hafter ⊢
  obtain ⟨p, hf, -⟩ := (Option.any_eq_true _ _).mp ((h.mem lane id).mp hin)
  have hothers : ∀ j ≠ id, (sendOne now e lane id).2.find j = e.find j :=
    (beside_sendOne e now lane).others
  have hfind := find_sendOne e hf now lane
  have hstays : (sendOne now e lane id).1 ≠ .empty → (∃ q, (sendOne now e lane id).2.find id = some q ∧
      q.scheduled = p.scheduled) → Rung (Function.update rings lane ((rings lane).wrapped.answered
        (sendOne now e lane id).1)) (sendOne now e lane id).2 := by
    rintro hne ⟨q, hq, hs⟩
    rw [if_neg hne] at hafter
    refine Rung.congr (e := e) ⟨fun other => ?_, fun other j => ?_⟩ fun j => ?_
    · by_cases ho : other = lane
      · rw [ho, Function.update_self, hafter]
        exact h.nodup lane
      · rw [Function.update_of_ne ho]
        exact h.nodup other
    · by_cases ho : other = lane
      · rw [ho, Function.update_self, hafter, h.mem]
      · rw [Function.update_of_ne ho, h.mem]
    · by_cases hj : j = id
      · rw [hj, hq, hf, Option.map_some, Option.map_some, hs]
      · rw [hothers j hj]
  cases hresult : (sendOne now e lane id).1 with
  | empty =>
    rw [hresult] at hfind hafter
    refine h.leave (hafter.trans (if_pos rfl)) (fun other => ?_) hothers
    rw [hfind, hf, Option.any_some, Option.any_some]
    by_cases ho : other = lane
    · rw [if_pos ho, ho]
      exact Function.update_self ..
    · rw [if_neg ho]
      exact Function.update_of_ne ho ..
  | _ =>
    rw [hresult] at hfind hstays
    exact hstays (by decide) ⟨_, hfind, rfl⟩

lemma Rung.sendData (h : Rung e.mScheduler.mRings e) (now : TimePoint) :
    Rung (e.sendData now).mScheduler.mRings (e.sendData now) := by
  have hrun := SendScheduler.run_invariant (rung_answers now) (e.world.sends.length + e.mScheduler.waiting + 1)
    e.mScheduler e h
  exact hrun.congr fun _ => rfl

lemma Rung.schedule (h : Rung e.mScheduler.mRings e) (id : PeerId) :
    Rung (e.schedule id).mScheduler.mRings (e.schedule id) := by
  rw [NetworkEngine.schedule]
  generalize SendScheduler.Order = lanes
  induction lanes generalizing e with
  | nil => exact h
  | cons lane lanes ih => exact ih (h.scheduleLane id lane)

lemma Rung.serve (h : Rung e.mScheduler.mRings e) (now : TimePoint) (id : PeerId) :
    Rung (serve now e id).mScheduler.mRings (serve now e id) := by
  have hturn : Turn id e ((e.advance id now).sendAcks id) := (turn_advance e now).trans (turn_sendAcks _)
  have hserved := h.turn hturn
  rw [NetworkEngine.serve]
  split
  · exact h
  · dsimp only
    split
    · exact hserved.schedule id
    · exact hserved

end NetworkEngine

end NetLink
