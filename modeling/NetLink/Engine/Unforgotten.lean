import NetLink.Engine.Attended
import NetLink.Engine.Tables

/-! No work is forgotten between two steps: what a peer could send is known to the scheduler, what it owes is held
back for the next step, and the engine wakes up in time for both. -/

namespace NetLink.NetworkEngine

open Channel (TimePoint ReliableLink Mailbox SendScheduler)
open Channel.Mailbox (heldSince)

def TimedAt (e : NetworkEngine) (j : PeerId) : Prop :=
  ∀ p, e.find j = some p → p.ended = false → p.deadline = p.link.nextDeadline

def IdleAt (before : Mailbox) (e : NetworkEngine) (j : PeerId) : Prop :=
  ∀ p, e.find j = some p → p.ended = false →
    p.Attended False (heldSince before e.mMailbox j) ∧ p.deadline = p.link.nextDeadline

variable {before : Mailbox} {T : Terms} {k : Stage} {who : Option PeerId} {e e' : NetworkEngine} {j id : PeerId}
  {p p' : Peer} {ids : List PeerId} {t : TimePoint}

lemma TimedAt.of_find (h : e.TimedAt j) (hf : e'.find j = e.find j) : e'.TimedAt j := fun p hp => h p (hf ▸ hp)

lemma TimedAt.of_some (hf : e.find j = some p) (hp : p.ended = false → p.deadline = p.link.nextDeadline) :
    e.TimedAt j := by
  intro q hq
  obtain rfl := Option.some.inj (hf.symm.trans hq)
  exact hp

lemma TimedAt.of_none (hf : e.find j = none) : e.TimedAt j := fun p hp => by simp [hf] at hp

lemma IdleAt.attended (h : IdleAt before e j) : AttendedAt before e j :=
  fun p hp he => (h p hp he).1.congr rfl rfl rfl rfl False.elim fun _ h => h

lemma IdleAt.timed (h : IdleAt before e j) : e.TimedAt j := fun p hp he => (h p hp he).2

lemma IdleAt.of_none (hf : e.find j = none) : IdleAt before e j := fun p hp => by simp [hf] at hp

lemma IdleAt.of_ended (hf : e.find j = some p) (he : p.ended = true) : IdleAt before e j := by
  intro q hq hended
  obtain rfl := Option.some.inj (hf.symm.trans hq)
  simp [he] at hended

section Mailbox

variable (hb : Mailbox.Uses before e.mMailbox) (hn : before.Numbered)
include hb hn

lemma IdleAt.elsewhere (h : IdleAt before e j) (hf : e'.find j = e.find j)
    (hu : Mailbox.Uses e.mMailbox e'.mMailbox) :
    IdleAt before e' j := by
  intro p hp he
  obtain ⟨ha, ht⟩ := h p (hf ▸ hp) he
  exact ⟨ha.congr rfl rfl rfl rfl id fun lane hm => hu.heldSince_nil hb hn hm, ht⟩

lemma IdleAt.record (h : IdleAt before e j) (hf : e.find j = some p) (hf' : e'.find j = some p')
    (hu : Mailbox.Uses e.mMailbox e'.mMailbox) (hv : p'.view = p.view ∨ p' = p.told)
    (hs : p'.scheduled = p.scheduled)
    (ht : p.deadline = p.link.nextDeadline → p'.deadline = p'.link.nextDeadline) : IdleAt before e' j := by
  have hsame : p'.ended = p.ended ∧ p'.link = p.link ∧ p'.control = p.control ∧
    p'.transfersData = p.transfersData := by
    rcases hv with hv | rfl
    · refine ⟨congrArg SessionView.ended hv, congrArg SessionView.link hv, congrArg SessionView.control hv, ?_⟩
      exact congrArg SessionView.transfersData hv
    · exact ⟨rfl, rfl, rfl, rfl⟩
  obtain ⟨hended, hlink, hcontrol, hdata⟩ := hsame
  intro q hq he
  obtain rfl := Option.some.inj (hf'.symm.trans hq)
  obtain ⟨ha, hd⟩ := h p hf (hended ▸ he)
  exact ⟨ha.congr hlink hcontrol hdata hs id fun lane hm => hu.heldSince_nil hb hn hm, ht hd⟩

end Mailbox

lemma touched_sendClose (hf : e.find id = some p) (hr : p.link.mRemoteStreamID.isNone = false) (now : TimePoint) :
    id ∈ (e.sendClose id now).mTouched := by
  have hall : ((e.withMailbox (·.close id)).find id).all (·.link.mRemoteStreamID.isNone) = false := by
    rw [find_withMailbox, hf, Option.all_some, hr]
  rw [sendClose, hall, if_neg Bool.false_ne_true]
  exact List.mem_append_right _ (List.mem_singleton_self id)

lemma Act.idle (h : Act T .collect who e e') (hb : Mailbox.Uses before e.mMailbox) (hn : before.Numbered)
    (hi : IdleAt before e j) : IdleAt before e' j ∨ j ∈ e'.mTouched := by
  have huses := h.uses
  have htouched : ∀ e : NetworkEngine, j ∈ (e.touch j).mTouched := fun e =>
    List.mem_append_right _ (List.mem_singleton_self j)
  by_cases hj : who = some j
  swap
  · rcases h.elsewhere hj with he | hg
    · exact .inl (hi.elsewhere hb hn he.find huses)
    · exact .inl (.of_none hg.find)
  subst hj
  cases hf : e.find j with
  | none =>
    rcases h.of_none hf with ha | ⟨-, now, ho⟩
    · exact .inl (.of_none ha.find)
    · exact .inr ho.touched.1
  | some p =>
    cases h with
    | report _ _ reason => exact .inl (hi.record hb hn hf (find_report e hf reason) huses (.inr rfl) rfl id)
    | note _ _ f hv =>
      exact .inl (hi.record hb hn hf (find_modified e hf f) huses (.inl (hv.view p)) (hv.scheduled p) (hv.timed p))
    | sendDecline _ _ q now => exact .inr (htouched _)
    | sendClose _ _ q now =>
      cases hr : p.link.mRemoteStreamID.isNone with
      | true =>
        have hfind := find_sendClose e hf now
        rw [if_pos hr] at hfind
        exact .inl (.of_ended hfind rfl)
      | false => exact .inr (touched_sendClose hf hr now)
    | erase => exact .inl (.of_none (find_erase e))
    | openSession _ _ now h => simp [h] at hf
    | admitPeer _ origin hello crossing now h => simp [h] at hf
    | sendAccept => exact .inr (htouched _)
    | drain => exact .inr (htouched _)
    | pause => exact .inr (htouched _)
    | timer => exact .inr (htouched _)
    | packet => exact .inr (htouched _)
    | overtaken => exact .inr (htouched _)
    | ready => exact .inr (htouched _)

lemma touched_ready (world : World) (now : TimePoint) (hs : Sound e.view)
    (hj : j ∈ (e.beginStep world).mWork.ready) :
    (e.collect world now).find j = none ∨ j ∈ (e.collect world now).mTouched := by
  have hmarked : ∀ (ids : List PeerId) (e : NetworkEngine), j ∈ ids ∨ e.find j = none ∨ j ∈ e.mTouched →
      (ids.foldl markReady e).find j = none ∨ j ∈ (ids.foldl markReady e).mTouched := by
    intro ids
    induction ids with
    | nil => exact fun e h => h.resolve_left List.not_mem_nil
    | cons id ids ih =>
      intro e h
      refine ih _ ?_
      rw [markReady]
      split
      · next hn =>
        rcases h with h | h
        · rcases List.mem_cons.mp h with rfl | h
          · exact .inr (.inl (by simpa using hn))
          · exact .inl h
        · exact .inr h
      · rcases h with h | h | h
        · rcases List.mem_cons.mp h with rfl | h
          · exact .inr (.inr (List.mem_append_right _ (List.mem_singleton_self j)))
          · exact .inl h
        · refine .inr (.inl ?_)
          rw [find_touch, find_modifyPeer]
          split
          · next hid => rw [hid, h, Option.map_none]
          · exact h
        · exact .inr (.inr (List.mem_append_left _ h))
  have hcommands := hmarked _
    (((e.beginStep world).mWork.commands.foldl (apply now) (e.beginStep world))) (.inl hj)
  have hacts : Acts .all .collect ((e.beginStep world).applyCommands now) (e.collect world now) :=
    acts_afterCommands e trivial world now hs
  refine hacts.invariant (P := fun e => e.find j = none ∨ j ∈ e.mTouched) (fun e e' who h ha => ?_) hcommands
  rcases h with h | h
  · by_cases hw : who = some j
    · subst hw
      rcases ha.of_none h with habsent | ⟨-, now, ho⟩
      · exact .inl habsent.find
      · exact .inr ho.touched.1
    · rcases ha.elsewhere hw with he | hg
      · exact .inl (he.find.trans h)
      · exact .inl hg.find
  · exact .inr (ha.touched j h)

structure Unforgotten (before : Mailbox) (e : NetworkEngine) : Prop where
  uses : Mailbox.Uses before e.mMailbox
  numbered : before.Numbered
  listed : e.mMailbox.Listed
  rung : Rung e.mScheduler.mRings e
  attended : ∀ j, AttendedAt before e j
  timed : ∀ j, e.TimedAt j

lemma Unforgotten.beginStep (h : Unforgotten before e) (world : World) (j : PeerId) :
    IdleAt (e.beginStep world).mMailbox (e.beginStep world) j ∨ j ∈ (e.beginStep world).mTouched ∨
      j ∈ (e.beginStep world).mWork.ready := by
  have huses : Mailbox.Uses e.mMailbox
      ((world.calls.headD []).foldl Mailbox.call e.mMailbox) := Mailbox.Uses.calls _ _
  by_cases ht : j ∈ e.mAcksHeldBack
  · exact .inr (.inl ht)
  by_cases hr : j ∈ (e.beginStep world).mWork.ready
  · exact .inr (.inr hr)
  refine .inl fun p hp he => ⟨?_, h.timed j p hp he⟩
  refine (h.attended j p hp he).congr rfl rfl rfl rfl ht fun lane hm => ?_
  exact (h.uses.trans huses).heldSince_drain (huses.listed h.listed) hr (huses.heldSince_nil h.uses h.numbered hm)

lemma Unforgotten.drained (h : Unforgotten before e) (world : World) :
    (e.beginStep world).mMailbox.Listed ∧ (e.beginStep world).mMailbox.Numbered := by
  have huses : Mailbox.Uses e.mMailbox
      ((world.calls.headD []).foldl Mailbox.call e.mMailbox) := Mailbox.Uses.calls _ _
  exact ⟨(huses.listed h.listed).drain, (huses.numbered (h.uses.numbered h.numbered)).drain⟩

structure Gathered (before : Mailbox) (e : NetworkEngine) : Prop where
  uses : Mailbox.Uses before e.mMailbox
  rung : Rung e.mScheduler.mRings e
  idle : ∀ j, IdleAt before e j ∨ j ∈ e.mTouched

lemma Unforgotten.collect (h : Unforgotten before e) (hs : Sound e.view) (world : World) (now : TimePoint) :
    Gathered (e.beginStep world).mMailbox (e.collect world now) := by
  have hn := (h.drained world).2
  have hacts : Acts .all .collect (e.beginStep world) (e.collect world now) :=
    acts_collect e world now hs
  have hall := hacts.invariant (P := fun e' => Mailbox.Uses (e.beginStep world).mMailbox e'.mMailbox ∧
      Rung e'.mScheduler.mRings e' ∧ ∀ j, IdleAt (e.beginStep world).mMailbox e' j ∨ j ∈ e'.mTouched ∨
        j ∈ (e.beginStep world).mWork.ready)
    (fun e' e'' who hp ha => ⟨hp.1.trans ha.uses, ha.rung hp.2.1, fun j => ?_⟩)
    ⟨.refl _, h.rung.congr fun _ => rfl, h.beginStep world⟩
  · refine ⟨hall.1, hall.2.1, fun j => ?_⟩
    rcases hall.2.2 j with hi | ht | hr
    · exact .inl hi
    · exact .inr ht
    · exact (touched_ready world now hs hr).imp_left .of_none
  · rcases hp.2.2 j with hi | ht | hr
    · rcases ha.idle hp.1 hn hi with hi | ht
      · exact .inl hi
      · exact .inr (.inl ht)
    · exact .inr (.inl (ha.touched j ht))
    · exact .inr (.inr hr)

structure Serving (before : Mailbox) (ids : List PeerId) (e : NetworkEngine) : Prop where
  uses : Mailbox.Uses before e.mMailbox
  rung : Rung e.mScheduler.mRings e
  attended : ∀ j, AttendedAt before e j ∨ j ∈ ids

lemma Serving.serve (h : Serving before (id :: ids) e) (hn : before.Numbered)
    (now : TimePoint) :
    Serving before ids (serve now e id) := by
  have hbeside := beside_serve e now id
  refine ⟨h.uses.trans hbeside.uses, h.rung.serve now id, fun j => ?_⟩
  by_cases hj : j = id
  · subst hj
    exact .inl (attended_serve h.uses hn now)
  · rcases h.attended j with ha | hm
    · exact .inl (ha.elsewhere h.uses hn (hbeside.others j hj) hbeside.uses hbeside.held)
    · exact .inr ((List.mem_cons.mp hm).resolve_left hj)

lemma Serving.foldl (h : Serving before ids e) (hn : before.Numbered) (now : TimePoint) :
    Serving before [] (ids.foldl (NetworkEngine.serve now) e) := by
  induction ids generalizing e with
  | nil => exact h
  | cons id ids ih => exact ih (h.serve hn now)

lemma timed_sendOne (now : TimePoint) (lane : Channel.Lane) (h : e.TimedAt j) :
    (sendOne now e lane id).2.TimedAt j := by
  by_cases hj : j = id
  swap
  · exact h.of_find ((beside_sendOne e now lane).others j hj)
  subst hj
  cases hf : e.find j with
  | none =>
    rw [sendOne_of_none e hf]
    exact .of_none hf
  | some p =>
    have hpeeked : p.ended = false → p.deadline = (e.offering j p lane).link.nextDeadline := fun he =>
      (h p hf he).trans (ReliableLink.nextDeadline_peek _ (e.lend p) lane _).symm
    refine .of_some (find_sendOne e hf now lane) ?_
    split
    · exact hpeeked
    · exact hpeeked
    · exact fun _ => rfl
    · exact fun _ => rfl

lemma timed_sendData (now : TimePoint) (h : e.TimedAt j) : (e.sendData now).TimedAt j := by
  have hrun := SendScheduler.run_keeps (sendOne now) (P := fun e => e.TimedAt j)
    (fun e lane id h => timed_sendOne now lane h) (e.world.sends.length + e.mScheduler.waiting + 1)
      e.mScheduler e h
  exact hrun.of_find rfl

lemma timed_settlePeer (e : NetworkEngine) (id : PeerId) : (e.settlePeer id).TimedAt id := by
  have hkeeps : ∀ {e : NetworkEngine} {f : Peer → Peer}, e.TimedAt id →
      (∀ p, (f p).ended = p.ended ∧ (f p).deadline = p.deadline ∧ (f p).link = p.link) →
        (e.modifyPeer id f).TimedAt id := by
    intro e f h hf q hq he
    rw [find_modifyPeer_self] at hq
    obtain ⟨p, hp, rfl⟩ := Option.map_eq_some_iff.mp hq
    obtain ⟨hended, hdeadline, hlink⟩ := hf p
    rw [hdeadline, hlink]
    exact h p hp (hended ▸ he)
  have hstats : ∀ {e : NetworkEngine}, e.TimedAt id → (e.publishStats id).TimedAt id := by
    intro e h
    have hnoted : (e.modifyPeer id Peer.noteMedia).TimedAt id := by
      refine hkeeps h fun p => ?_
      rw [Peer.noteMedia]
      dsimp only
      split <;> exact ⟨rfl, rfl, rfl⟩
    rw [publishStats]
    split
    · exact hnoted
    · exact hnoted.of_find rfl
  rw [settlePeer]
  split
  · next hf => exact .of_none hf
  next p hf =>
  split
  · next he => exact .of_some hf fun hn => by simp [he] at hn
  have htimed : (e.modifyPeer id fun peer => { peer with deadline := peer.link.nextDeadline }).TimedAt id :=
    .of_some (find_modified e hf _) fun _ => rfl
  generalize (e.modifyPeer id fun peer => { peer with deadline := peer.link.nextDeadline }) = timed at htimed
  have hsettled : TimedAt (if p.unsettled && !p.link.hasPendingReliable then
      (timed.settle id).2.modifyPeer id fun peer => { peer with unsettled := !(timed.settle id).1 }
        else timed) id := by
    split
    · exact hkeeps (htimed.of_find rfl) fun _ => ⟨rfl, rfl, rfl⟩
    · exact htimed
  dsimp only
  split
  · exact hstats hsettled
  · exact hsettled

lemma AttendedAt.settlePeer (hb : Mailbox.Uses before e.mMailbox) (hn : before.Numbered)
    (h : AttendedAt before e j) (id : PeerId) : AttendedAt before (e.settlePeer id) j := by
  have hturn : Turn id e (e.settlePeer id) := turn_settlePeer e
  by_cases hj : j = id
  swap
  · exact h.elsewhere hb hn (hturn.others j hj) hturn.uses hturn.held
  subst hj
  intro q hq he
  have hview : (e.find j).map Peer.view = some q.view := by
    have hv := congrFun (congrArg View.sessions (view_settlePeer e j)) j
    exact hv.symm.trans (sessions_view _ hq)
  obtain ⟨p, hp, hpq⟩ := Option.map_eq_some_iff.mp hview
  have hs : q.scheduled = p.scheduled := by
    have hs := hturn.scheduled
    rw [hq, hp] at hs
    exact Option.some.inj hs
  refine h.record hb hn hp hq ?_ ?_ ?_ ?_ hs hturn.uses hturn.held q hq he
  · exact (congrArg SessionView.ended hpq).symm
  · exact (congrArg SessionView.link hpq).symm
  · exact (congrArg SessionView.control hpq).symm
  · exact (congrArg SessionView.transfersData hpq).symm

structure Settling (before : Mailbox) (ids : List PeerId) (e : NetworkEngine) : Prop where
  uses : Mailbox.Uses before e.mMailbox
  rung : Rung e.mScheduler.mRings e
  attended : ∀ j, AttendedAt before e j
  timed : ∀ j, e.TimedAt j ∨ j ∈ ids

lemma Settling.settlePeer (h : Settling before (id :: ids) e) (hn : before.Numbered) :
    Settling before ids (e.settlePeer id) := by
  have hturn : Turn id e (e.settlePeer id) := turn_settlePeer e
  refine ⟨h.uses.trans hturn.uses, h.rung.turn hturn, fun j => (h.attended j).settlePeer h.uses hn id, fun j => ?_⟩
  by_cases hj : j = id
  · subst hj
    exact .inl (timed_settlePeer e j)
  · rcases h.timed j with ht | hm
    · exact .inl (ht.of_find (hturn.others j hj))
    · exact .inr ((List.mem_cons.mp hm).resolve_left hj)

lemma Settling.foldl (h : Settling before ids e) (hn : before.Numbered) :
    Settling before [] (ids.foldl NetworkEngine.settlePeer e) := by
  induction ids generalizing e with
  | nil => exact h
  | cons id ids ih => exact ih (h.settlePeer hn)

lemma Gathered.serveTouched (h : Gathered before e) (hn : before.Numbered) (now : TimePoint) :
    Settling before (e.serveTouched now).mTouched (e.serveTouched now) := by
  have hserved : Serving before [] (e.mTouched.foldl (serve now) e) :=
    Serving.foldl ⟨h.uses, h.rung, fun j => (h.idle j).imp_left IdleAt.attended⟩ hn now
  have hothers : ∀ j, (e.mTouched.foldl (serve now) e).TimedAt j ∨
    j ∈ (e.mTouched.foldl (serve now) e).mTouched := by
    intro j
    by_cases hj : j ∈ e.mTouched
    · exact .inr (Beside.touched_foldl (fun e id => beside_serve e now id) _ e hj)
    · have hfind := Beside.others_foldl (fun e id => beside_serve e now id) _ e hj
      exact .inl (((h.idle j).resolve_right hj).timed.of_find hfind)
  have hattended : ∀ j, AttendedAt before (e.mTouched.foldl (serve now) e) j :=
    fun j => (hserved.attended j).resolve_right List.not_mem_nil
  rw [NetworkEngine.serveTouched]
  generalize e.mTouched.foldl (serve now) e = served at hserved hothers hattended
  split
  · exact ⟨hserved.uses, hserved.rung, hattended, hothers⟩
  · obtain ⟨huses, hsent⟩ := attended_sendData hserved.uses hn hserved.rung hattended now
    refine ⟨huses, hserved.rung.sendData now, hsent, fun j => ?_⟩
    have htouched : (served.sendData now).mTouched = served.mTouched :=
      SendScheduler.run_keeps (sendOne now) (P := fun e => e.mTouched = served.mTouched)
        (fun e lane id h => (touched_sendOne e now lane).trans h) _ _ _ rfl
    rw [htouched]
    exact (hothers j).imp_left (timed_sendData now)

lemma Settling.eraseEnded (h : Settling before [] e) (hn : before.Numbered) (id : PeerId) :
    Settling before [] (e.eraseEnded id) := by
  have hbeside := beside_erase e id
  rw [NetworkEngine.eraseEnded]
  split
  swap
  · exact h
  refine ⟨h.uses.trans hbeside.uses, h.rung.erase id, fun j => ?_, fun j => ?_⟩ <;> by_cases hj : j = id
  · subst hj
    exact .of_none (find_erase e)
  · exact (h.attended j).elsewhere h.uses hn (hbeside.others j hj) hbeside.uses hbeside.held
  · subst hj
    exact .inl (.of_none (find_erase e))
  · exact (h.timed j).imp_left fun ht => ht.of_find (hbeside.others j hj)

lemma Settling.swept (h : Settling before [] e) (hn : before.Numbered) : Settling before [] e.swept := by
  have hcleared : Settling before [] { e with mEnded := [] } :=
    ⟨h.uses, h.rung.congr fun _ => rfl, h.attended, h.timed⟩
  rw [NetworkEngine.swept]
  generalize e.mEnded = ids, ({ e with mEnded := [] } : NetworkEngine) = cleared at hcleared
  induction ids generalizing cleared with
  | nil => exact hcleared
  | cons id ids ih => exact ih _ (hcleared.eraseEnded hn id)

lemma Settling.finishStep (h : Settling before [] e) (hn : before.Numbered) (now : TimePoint) :
    Settling before [] (e.finishStep now) := by
  have huses : Mailbox.Uses e.mMailbox (e.finishStep now).mMailbox := by
    rw [NetworkEngine.finishStep]
    dsimp only
    split
    · exact .trans (uses_lock _) (.of_same rfl rfl rfl)
    · exact .refl _
  have hheld : (e.finishStep now).mAcksHeldBack = e.mAcksHeldBack := by
    rw [NetworkEngine.finishStep]
    dsimp only
    split <;> rfl
  have hrings : (e.finishStep now).mScheduler = e.mScheduler := by
    rw [NetworkEngine.finishStep]
    dsimp only
    split <;> rfl
  refine ⟨h.uses.trans huses, ?_, fun j => ?_, fun j => ?_⟩
  · rw [hrings]
    exact h.rung.congr fun j => by rw [find_finishStep]
  · exact (h.attended j).elsewhere h.uses hn (find_finishStep now j) huses fun i hi => by rwa [hheld]
  · exact (h.timed j).imp_left fun ht => ht.of_find (find_finishStep now j)

lemma Settling.takeBatch (h : Settling before [] e) : Settling before [] e.takeBatch.2 :=
  ⟨h.uses, h.rung.congr fun _ => rfl, h.attended, h.timed⟩

lemma Unforgotten.step (h : Unforgotten before e) (hs : Sound e.view) (world : World) (now : TimePoint) :
    Unforgotten (e.beginStep world).mMailbox (e.step world now).2 := by
  obtain ⟨hlisted, hn⟩ := h.drained world
  have hround : Settling (e.beginStep world).mMailbox [] (e.round world now) := by
    rw [round_eq]
    exact ((((h.collect hs world now).serveTouched hn now).foldl hn).swept hn).finishStep hn now
  have hstep : Settling (e.beginStep world).mMailbox [] (e.step world now).2 := hround.takeBatch
  exact ⟨hstep.uses, hn, hstep.uses.listed hlisted, hstep.rung, hstep.attended,
    fun j => (hstep.timed j).resolve_right List.not_mem_nil⟩

lemma unforgotten_new (config : EngineConfig) (drawn : UInt64) :
    Unforgotten (NetworkEngine.new config drawn).mMailbox (NetworkEngine.new config drawn) := by
  have hnone : ∀ j, (NetworkEngine.new config drawn).find j = none := fun j => by simp [NetworkEngine.new, find]
  have hmail : ∀ id : PeerId, (NetworkEngine.new config drawn).mMailbox.mPeers[id]? = none := fun id => by
    simp [NetworkEngine.new]
  refine ⟨.refl _, fun id p hp => ?_, fun id p hp => ?_, ⟨fun lane => ?_, fun lane j => ?_⟩, fun j =>
    .of_none (hnone j),
    fun j => .of_none (hnone j)⟩
  · simp [hmail] at hp
  · simp [hmail] at hp
  · simp [NetworkEngine.new, SendScheduler.new, SendScheduler.setRate]
  · rw [hnone]
    exact iff_of_false List.not_mem_nil Bool.false_ne_true

def WakesBy (wake : Option TimePoint) (t : TimePoint) : Prop := ∃ w, wake = some w ∧ w ≤ t

lemma WakesBy.earlier_left {a : Option TimePoint} (h : WakesBy a t) (b : Option TimePoint) :
    WakesBy (earlier a b) t := by
  obtain ⟨w, rfl, hw⟩ := h
  cases b with
  | none => exact ⟨w, rfl, hw⟩
  | some u => exact ⟨min w u, rfl, (min_le_left w u).trans hw⟩

lemma WakesBy.earlier_right {b : Option TimePoint} (h : WakesBy b t) (a : Option TimePoint) :
    WakesBy (earlier a b) t := by
  obtain ⟨w, rfl, hw⟩ := h
  cases a with
  | none => exact ⟨w, rfl, hw⟩
  | some u => exact ⟨min u w, rfl, (min_le_right u w).trans hw⟩

lemma wakesBy_some (t : TimePoint) : WakesBy (some t) t := ⟨t, rfl, le_rfl⟩

lemma wakesBy_foldl (peers : List Peer) (wake : Option TimePoint)
    (h : WakesBy wake t ∨ ∃ p ∈ peers, p.deadline = some t ∨ p.stateDeadline = some t) :
    WakesBy (peers.foldl (fun wake peer => earlier (earlier wake peer.deadline) peer.stateDeadline) wake) t := by
  induction peers generalizing wake with
  | nil =>
    rcases h with h | ⟨p, hp, -⟩
    · exact h
    · cases hp
  | cons p peers ih =>
    refine ih _ ?_
    rcases h with h | ⟨q, hq, hd⟩
    · exact .inl ((h.earlier_left _).earlier_left _)
    · rcases List.mem_cons.mp hq with rfl | hq
      · dsimp only
        rcases hd with hd | hd <;> rw [hd]
        · exact .inl (((wakesBy_some t).earlier_right _).earlier_left _)
        · exact .inl ((wakesBy_some t).earlier_right _)
      · exact .inr ⟨q, hq, hd⟩

def alarm (e : NetworkEngine) (now : TimePoint) : Option TimePoint :=
  let wake := e.mPeers.values.foldl (fun wake peer => earlier (earlier wake peer.deadline) peer.stateDeadline)
    (if e.mShutdown then none else e.mNextTick)
  if (e.mSocketBlocked || e.mScheduler.hasBacklog || !e.mAcksHeldBack.isEmpty) || e.mSocketFailed then
    earlier wake (some (now + SendScheduler.Tick))
  else wake

lemma mNextWake_finishStep (e : NetworkEngine) (now : TimePoint) :
    (e.finishStep now).mNextWake = (e.finishStep now).alarm now := by
  rw [finishStep]
  rfl

lemma mNextWake_takeBatch (e : NetworkEngine) : e.takeBatch.2.mNextWake = e.mNextWake := rfl

lemma alarm_takeBatch (e : NetworkEngine) (now : TimePoint) : e.takeBatch.2.alarm now = e.alarm now := rfl

lemma mNextWake_step (e : NetworkEngine) (world : World) (now : TimePoint) :
    (e.step world now).2.mNextWake = (e.step world now).2.alarm now := by
  rw [step, mNextWake_takeBatch, alarm_takeBatch, round, mNextWake_finishStep]

lemma alarm_of_deadline {now t : TimePoint} (hf : e.find id = some p)
    (h : p.deadline = some t ∨ p.stateDeadline = some t) :
    WakesBy (e.alarm now) t := by
  have hwake := wakesBy_foldl e.mPeers.values (if e.mShutdown then none else e.mNextTick)
    (.inr ⟨p, Lib.mem_values_iff.mpr ⟨id, hf⟩, h⟩)
  rw [alarm]
  split
  · exact hwake.earlier_left _
  · exact hwake

lemma alarm_of_waiting {now : TimePoint}
    (h : e.mAcksHeldBack ≠ [] ∨ ∃ lane, (e.mScheduler.mRings lane).peers ≠ []) :
    WakesBy (e.alarm now) (now + SendScheduler.Tick) := by
  have hwaits : ((e.mSocketBlocked || e.mScheduler.hasBacklog || !e.mAcksHeldBack.isEmpty) ||
    e.mSocketFailed) = true := by
    rcases h with h | ⟨lane, h⟩
    · simp [h]
    · have hbacklog : e.mScheduler.hasBacklog = true :=
        List.any_eq_true.mpr ⟨lane, by cases lane <;> decide, by simpa using h⟩
      simp [hbacklog]
  rw [alarm, hwaits]
  exact (wakesBy_some _).earlier_right _

namespace Observed

lemma unforgotten {o : Observed} (hr : (system anything).Reachable o) : ∃ before, Unforgotten before o.engine := by
  have hall := hr.invariant (P := fun o => Sound o.engine.view ∧ ∃ before, Unforgotten before o.engine) ?_ ?_
  · exact hall.2
  · rintro o ⟨config, drawn, rfl⟩
    exact ⟨sound_new config drawn, _, unforgotten_new config drawn⟩
  · rintro o o' hr ⟨hs, before, h⟩ ⟨world, now, -, rfl⟩
    exact ⟨sound (reachable_step hr trivial), _, h.step hs world now⟩

theorem no_work_forgotten {o : Observed} (hr : (system anything).Reachable o) (world : World) (now : TimePoint)
    (e : NetworkEngine) (he : (o.engine.step world now).2 = e) :
    (∀ id p, e.find id = some p → p.ended = false →
      (p.link.OwesAck → id ∈ e.mAcksHeldBack) ∧
      (∀ lane, p.offers ((o.engine.beginStep world).mMailbox.heldSince e.mMailbox id lane) lane = true →
        p.scheduled lane = true) ∧
      p.deadline = p.link.nextDeadline ∧
      (∀ t, p.deadline = some t ∨ p.stateDeadline = some t → WakesBy e.mNextWake t)) ∧
    (∀ lane, (e.mScheduler.mRings lane).peers.Nodup ∧
      ∀ id, id ∈ (e.mScheduler.mRings lane).peers ↔ ∃ p, e.find id = some p ∧ p.scheduled lane = true) ∧
    ((e.mAcksHeldBack ≠ [] ∨ ∃ lane, (e.mScheduler.mRings lane).peers ≠ []) →
      WakesBy e.mNextWake (now + SendScheduler.Tick)) := by
  obtain ⟨before, hbefore⟩ := unforgotten hr
  have h := hbefore.step (sound hr) world now
  have hwake := mNextWake_step o.engine world now
  rw [he] at h hwake
  rw [hwake]
  refine ⟨fun id p hp hended => ?_, fun lane => ⟨h.rung.nodup lane, fun id => ?_⟩, alarm_of_waiting⟩
  · have hattended := h.attended id p hp hended
    refine ⟨hattended.acks, fun lane ho => ?_, h.timed id p hp hended, fun t => alarm_of_deadline hp⟩
    cases hs : p.scheduled lane with
    | true => rfl
    | false =>
      rw [hattended.lanes lane hs] at ho
      cases ho
  · rw [h.rung.mem, Option.any_eq_true]

theorem no_work_forgotten_greeted : greeted.engine.mAcksHeldBack = [2] ∧
    WakesBy greeted.engine.mNextWake (1 + SendScheduler.Tick) := by
  have hr : (system anything).Reachable (({ engine := .new {} 1 } : Observed).step Sample.bound 0) :=
    reachable_step (reachable_new {} 1) trivial
  have hheld : greeted.engine.mAcksHeldBack = [2] := by decide +kernel
  exact ⟨hheld, (no_work_forgotten hr _ 1 greeted.engine rfl).2.2
    (.inl (by rw [hheld]; exact List.cons_ne_nil _ _))⟩

end Observed

end NetLink.NetworkEngine
