import NetLink.Engine.Tidy

/-! Every `connect` has an outcome, or a session that still owes one. -/

namespace NetLink.NetworkEngine

open Channel (TimePoint)

def EngineEvent.answers (event : EngineEvent) : Bool := event.kind == .connected || event.kind == .disconnected

def awaits (waiting : Bool) : Mark → Bool
  | .applied .connect _ => true
  | .emitted event => waiting && !EngineEvent.answers event
  | _ => waiting

structure SessionView.Owes (s : SessionView) : Prop where
  alive : s.ended = false
  announced : s.announced = true
  unreported : s.reported = false

def Owes (o : Option SessionView) : Prop := ∃ s, o = some s ∧ s.Owes

variable {Γ : Rules} {v w : View} {id : PeerId} {s s' : SessionView} {ms : List Mark} {o o' : Option SessionView}
  {waiting : Bool}

lemma awaits_farewell (s : SessionView) (id : PeerId) (reason : DisconnectReason) (h : waiting = true → s.Owes) :
    (s.farewell id reason).foldl awaits waiting = false := by
  cases waiting with
  | false =>
    rw [SessionView.farewell]
    split <;> rfl
  | true =>
    obtain ⟨-, ha, hr⟩ := h rfl
    simp [SessionView.farewell, ha, hr, awaits, SessionView.disconnected, EngineEvent.answers]

lemma awaits_connected (info : PeerInfo) : [connectedMark id info].foldl awaits waiting = false := by
  simp [connectedMark, awaits, EngineEvent.answers]

lemma SessionMove.owes (ht : s.Tidy) (h : waiting = true → s.Owes) (hm : SessionMove id s s' ms)
    (hw : ms.foldl awaits waiting = true) : s'.Owes := by
  cases hm with
  | drain | link | peek =>
    obtain ⟨he, ha, hr⟩ := h hw
    exact ⟨he, ha, hr⟩
  | tell reason | decline m reason | goodbye m reason | finish reason =>
    rw [awaits_farewell s id reason h] at hw
    cases hw
  | letGo hl =>
    obtain ⟨-, ha, hr⟩ := h hw
    have hsent := ht.sent hl.2 ha
    rw [hr] at hsent
    cases hsent
  | accepted info | settled info =>
    rw [awaits_connected] at hw
    cases hw
  | message event hk =>
    refine h ?_
    simpa [awaits, EngineEvent.answers, hk] using hw

lemma owes_of_ignored (ht : s.Tidy) (hs : s.state ≠ .awaitingDecision) (hl : ¬s.Lingers)
    (hq : ¬(s.ended = true ∨ s.state = .connecting ∧ s.announced = false)) : s.Owes := by
  obtain ⟨hcloses, -, -, htold, hopens, -⟩ := ht
  rw [SessionView.Lingers] at hl
  rw [SessionView.transfersData] at hopens
  cases hst : s.state <;> constructor <;> grind

lemma owes_of_answered (ht : s.Tidy) (hs : s.state = .awaitingDecision) (he : s.ended = false) : s.Owes := by
  obtain ⟨hcloses, -, -, htold, -, hwaits⟩ := ht
  constructor <;> grind

lemma PeerMove.owes (hΓ : ¬Γ.swallows ∧ ¬Γ.refusesCrossing) (hv : v.shutdown = false)
    (ht : ∀ s, o = some s → s.Tidy) (h : waiting = true → Owes o) (hm : PeerMove Γ v id o o' ms)
    (hw : ms.foldl awaits waiting = true) : Owes o' := by
  cases hm with
  | quiet => exact h hw
  | applied c o hc =>
    refine h ?_
    cases c <;> first | exact hw | exact absurd rfl hc
  | late o hs => simp [hs] at hv
  | ignored s hs hl hq => exact ⟨s, rfl, owes_of_ignored (ht s rfl) hs hl fun hbad => hΓ.1 (hq hbad)⟩
  | answered c s m hc hs hq =>
    suffices hs : s.Owes from ⟨_, rfl, hs.1, hs.2, hs.3⟩
    rcases hc with rfl | rfl
    · obtain ⟨s, ⟨⟩, hs⟩ := h hw
      exact hs
    · refine owes_of_answered (ht s rfl) hs ?_
      by_contra he
      exact hΓ.1 (hq rfl (by simpa using he))
  | refused o reason => simp [awaits, SessionView.disconnected, EngineEvent.answers] at hw
  | opened | crossed => exact ⟨_, rfl, rfl, rfl, rfl⟩
  | session s s' ms hm =>
    refine ⟨s', rfl, hm.owes (ht s rfl) (fun hw => ?_) hw⟩
    obtain ⟨s, ⟨⟩, hs⟩ := h hw
    exact hs
  | relinked s l control =>
    obtain ⟨s, ⟨⟩, he, ha, hr⟩ := h hw
    exact ⟨_, rfl, he, ha, hr⟩
  | overtaken s info =>
    rw [awaits_connected] at hw
    cases hw
  | asked | welcomed =>
    obtain ⟨s, hs, -⟩ := h (by simpa [awaits, requestMark, EngineEvent.answers] using hw)
    cases hs
  | lostCrossing s hs hq => exact absurd hq hΓ.2
  | dropTold s reason =>
    rw [awaits_farewell] at hw
    · cases hw
    · intro hw
      obtain ⟨s, ⟨⟩, hs⟩ := h hw
      exact hs
  | dropEnded s he =>
    obtain ⟨s, ⟨⟩, hs⟩ := h hw
    rw [hs.alive] at he
    cases he

def View.Answers (v : View) : Prop :=
  v.shutdown = false → ∀ id, (v.about id).foldl awaits false = true → Owes (v.sessions id)

lemma Move.answers (hΓ : ¬Γ.swallows ∧ ¬Γ.refusesCrossing) (ht : v.Tidy) (h : v.Answers) (hm : Move Γ v w) :
    w.Answers := by
  intro hw id
  have hv : v.shutdown = false := by
    by_contra hv
    rw [hm.settings.2.2.2 (by simpa using hv)] at hw
    cases hw
  obtain ⟨ms, habout, hp⟩ := hm.shown id
  rw [habout, List.foldl_append]
  exact hp.owes hΓ hv (ht id) (h hv id)

def Outstanding (id : PeerId) (ms : List Mark) : Prop :=
  ∃ pre post, ms = pre ++ .applied .connect id :: post ∧
    ∀ event, .emitted event ∈ post → event.peer = id → EngineEvent.answers event = false

lemma outstanding_concat {m : Mark} : Outstanding id (ms ++ [m]) ↔ m = .applied .connect id ∨ Outstanding id ms ∧
    ∀ event, m = .emitted event → event.peer = id → EngineEvent.answers event = false := by
  constructor
  · rintro ⟨pre, post, hms, hn⟩
    rcases List.eq_nil_or_concat post with rfl | ⟨post, last, rfl⟩
    · exact .inl (List.append_inj' hms rfl |>.2 |> List.singleton_inj.mp)
    · obtain ⟨rfl, hm⟩ := List.append_inj' (by simpa using hms : ms ++ [m] = (pre ++ _ :: post) ++ [last]) rfl
      obtain rfl := List.singleton_inj.mp hm
      exact .inr ⟨⟨pre, post, rfl, fun event he => hn event (by simp [he])⟩, fun event he =>
        hn event (by simp [he])⟩
  · rintro (rfl | ⟨⟨pre, post, rfl, hn⟩, hm⟩)
    · exact ⟨ms, [], rfl, by simp⟩
    · refine ⟨pre, post ++ [m], by simp, fun event he => ?_⟩
      rcases List.mem_append.mp he with he | he
      · exact hn event he
      · exact hm event (List.mem_singleton.mp he).symm

lemma outstanding_iff (id : PeerId) (ms : List Mark) :
    Outstanding id ms ↔ (ms.filter (Mark.concerns id)).foldl awaits false = true := by
  induction ms using List.reverseRecOn with
  | nil => simp [Outstanding]
  | append_singleton ms m ih =>
    rw [outstanding_concat, ih, List.filter_append, List.foldl_append]
    cases m with
    | applied c peer => cases c <;> by_cases hp : peer = id <;> simp [Mark.concerns, awaits, hp]
    | emitted event =>
      by_cases hp : event.peer = id
      · cases hk : event.kind <;> simp [Mark.concerns, ofSession, awaits, EngineEvent.answers, hp, hk]
      · simp [Mark.concerns, hp]
    | opened peer | refused peer | acceptQueued peer =>
      by_cases hp : peer = id <;> simp [Mark.concerns, awaits, hp]

/-- No `connect` of the step meets a session that has ended or one in the making that nobody was told about, and
no crossing Hello finds the engine full. -/
structure Attentive (e : NetworkEngine) (world : World) (now : TimePoint) : Prop where
  commands : Lib.Along (fun e c => ¬e.Swallows c) (apply now) (e.beginStep world)
    (e.beginStep world).mWork.commands
  datagrams : Lib.Along (fun e d => ¬e.RefusesCrossing d) (handleDatagram now) (e.beforeReceiving world now)
    (e.arriving world now)

instance (e : NetworkEngine) (world : World) (now : TimePoint) : Decidable (Attentive e world now) :=
  decidable_of_iff (_ ∧ _) ⟨fun h => ⟨h.1, h.2⟩, fun h => ⟨h.commands, h.datagrams⟩⟩

def Rules.attentive : Rules where
  incoming _ _ := True
  swallows := False
  refusesCrossing := False
  crossesEnded := True

lemma Attentive.lawful {e : NetworkEngine} {world : World} {now : TimePoint} (h : Attentive e world now) :
    Lawful .attentive e world now where
  commands := h.commands.mono fun _ _ hc => hc
  datagrams := h.datagrams.mono fun _ _ hd => ⟨fun _ _ _ => trivial, fun _ => trivial, hd⟩

namespace Observed

variable {o : Observed}

lemma answers (hr : (system Attentive).Reachable o) : o.engine.view.Answers := by
  refine (invariant (P := fun v => v.Tidy ∧ v.Answers) (Γ := .attentive) (fun _ _ _ h => h.lawful) ?_ ?_ ?_ hr).2.2
  · intro config drawn
    exact ⟨fun id s h => by simp [view, NetworkEngine.new, find] at h, fun _ id hw => by cases hw⟩
  · rintro v w - ⟨ht, h⟩ hm
    exact ⟨hm.tidy ht, hm.answers ⟨id, id⟩ ht h⟩
  · exact fun v h => h

def HasOutcome (o : Observed) (id : PeerId) (post : List Mark) : Prop :=
  (∃ event, .emitted event ∈ post ∧ event.peer = id ∧ (event.kind = .connected ∨ event.kind = .disconnected)) ∨
    ∃ p, o.engine.find id = some p ∧ p.ended = false ∧ p.announced = true ∧ p.reported = false

theorem connect_has_outcome (hr : (system Attentive).Reachable o) (hs : o.engine.mShutdown = false) {id : PeerId}
    {pre post : List Mark} (hh : o.engine.history = pre ++ .applied .connect id :: post) :
      o.HasOutcome id post := by
  by_contra hnone
  rw [HasOutcome] at hnone
  push Not at hnone
  obtain ⟨hevents, hrecord⟩ := hnone
  have hout : Outstanding id o.engine.history :=
    ⟨pre, post, hh, fun event he hp => by simp [EngineEvent.answers, hevents event he hp]⟩
  obtain ⟨s, hsome, he, ha, hrep⟩ := answers hr hs id ((outstanding_iff id _).mp hout)
  obtain ⟨p, hp, rfl⟩ := Option.map_eq_some_iff.mp hsome
  exact hrecord p hp he ha hrep

def commanded (calls : List Channel.Mailbox.Call) : Observed :=
  (({ engine := .new { instanceId := 1 } 0 } : Observed).step
    { Sample.bound with channel := [.datagram Sample.there (Sample.beaconOf 2)] } 0).step (Sample.calling calls) 1

theorem connect_has_outcome_commanded : (commanded [.post .connect 2]).HasOutcome 2 [.opened 2 1 false] := by
  have hh : (commanded [.post .connect 2]).engine.history =
      (commanded [.post .connect 2]).engine.history.take 2 ++ .applied .connect 2 :: [.opened 2 1 false] := by
    decide +kernel
  refine connect_has_outcome ?_ (by decide +kernel) hh
  refine reachable_step (reachable_step (reachable_new _ _) ?_) ?_ <;> decide +kernel

def swallowed : Observed := commanded [.post .connect 2, .post .disconnect 2, .post .connect 2]

theorem connect_swallowed : (system anything).Reachable swallowed ∧ swallowed.engine.mShutdown = false ∧
    ∃ pre post, swallowed.engine.history = pre ++ .applied .connect 2 :: post ∧ ¬swallowed.HasOutcome 2 post := by
  refine ⟨reachable_step (reachable_step (reachable_new _ _) trivial) trivial, by decide +kernel,
    swallowed.engine.history.dropLast, [], by decide +kernel, ?_⟩
  have hgone : (swallowed.engine.find 2).isNone := by decide +kernel
  rintro (⟨event, hmem, -⟩ | ⟨p, hp, -⟩)
  · cases hmem
  · simp [hp] at hgone

end Observed

end NetLink.NetworkEngine
