import NetLink.Engine.Tidy

/-! The events of one peer come in blocks: a session that may be asked for, may open and deliver, and ends once. -/

namespace NetLink.NetworkEngine

open EngineEvent (Kind)

inductive Phase
  | idle | fresh | asked | open
  deriving DecidableEq, Repr

namespace Phase

def next (phase : Phase) : Mark → Option Phase
  | .applied _ _ | .acceptQueued _ => some phase
  | .opened _ _ _ | .refused _ => if phase = .idle ∨ phase = .fresh then some .fresh else none
  | .emitted event =>
    match event.kind with
    | .connectionRequest => if phase = .fresh then some .asked else none
    | .connected => if phase = .fresh ∨ phase = .asked then some .open else none
    | .message => if phase = .open then some .open else none
    | .disconnected => if phase = .idle then none else some .idle
    | .peerDiscovered | .peerLost | .adapterChanged => some phase

def after (phase : Phase) (ms : List Mark) : Option Phase := ms.foldlM next phase

@[simp] lemma after_nil (phase : Phase) : phase.after [] = some phase := rfl

@[simp] lemma after_cons (phase : Phase) (m : Mark) (ms : List Mark) :
    phase.after (m :: ms) = (phase.next m).bind (·.after ms) := rfl

lemma after_append (phase : Phase) (ms ns : List Mark) :
    phase.after (ms ++ ns) = (phase.after ms).bind (·.after ns) := by
  simp [after, List.foldlM_append]

end Phase

def SessionView.Stands (s : SessionView) (phase : Phase) : Prop :=
  if s.reported then phase = .idle
  else if s.announced = false then phase = .fresh
  else match s.state with
    | .connecting => phase = .fresh ∨ s.initiator = false ∧ phase = .asked
    | .awaitingDecision => phase = .asked
    | .connected | .closing => phase = .open

def Stands (o : Option SessionView) (phase : Phase) : Prop :=
  match o with
  | none => phase = .idle ∨ phase = .fresh
  | some s => s.Stands phase

variable {Γ : Rules} {v w : View} {id : PeerId} {s s' : SessionView} {ms : List Mark} {o o' : Option SessionView}
  {phase : Phase}

def SessionView.rest (s : SessionView) : Phase := if s.reported || s.announced then .idle else .fresh

lemma after_farewell (hs : s.Stands phase) (id : PeerId) (reason : DisconnectReason) :
    phase.after (s.farewell id reason) = some s.rest := by
  by_cases hf : s.announced = true ∧ s.reported = false
  · have hp : phase ≠ .idle := by
      rintro rfl
      cases hst : s.state <;> simp [SessionView.Stands, hf, hst] at hs
    simp [SessionView.farewell, SessionView.rest, SessionView.disconnected, Phase.next, hf, hp]
  · have hp : phase = s.rest := by
      rw [SessionView.Stands] at hs
      rw [SessionView.rest]
      grind
    rw [SessionView.farewell_of_settled (by simpa using hf), hp, Phase.after_nil]

lemma stands_rest (hr : s'.reported = (s.reported || s.announced)) (ha : s'.announced = s.announced) :
    s'.Stands s.rest := by
  rw [SessionView.Stands, SessionView.rest, hr, ha]
  cases s.reported <;> cases s.announced <;> simp

lemma SessionView.Stands.congr (h : s.Stands phase) (hr : s'.reported = s.reported)
    (ha : s'.announced = s.announced) (hs : s'.state = s.state)
    (hi : s'.initiator = s.initiator) : s'.Stands phase := by
  rwa [SessionView.Stands, hr, ha, hs, hi]

lemma stands_connected (h : s.Tidy) (hs : s.Stands phase) (hc : s.state = .connecting) (he : s.ended = false)
    (id : PeerId) (info : PeerInfo) :
    ∃ phase', phase.after [connectedMark id info] = some phase' ∧ s.connected.Stands phase' := by
  have hr : s.reported = false := by
    by_contra hr
    have ht := h.told (by simpa using hr)
    have hcs := h.closes
    grind
  have hp : phase = .fresh ∨ phase = .asked := by
    rw [SessionView.Stands] at hs
    grind
  refine ⟨.open, ?_, ?_⟩
  · simp [connectedMark, Phase.next, hp]
  · simp [SessionView.Stands, SessionView.connected, hr]

lemma SessionMove.stands (h : s.Tidy) (hs : s.Stands phase) (hm : SessionMove id s s' ms) :
    ∃ phase', phase.after ms = some phase' ∧ s'.Stands phase' := by
  cases hm with
  | drain hst =>
    refine ⟨phase, rfl, ?_⟩
    rw [SessionView.Stands] at hs ⊢
    simpa [hst] using hs
  | tell reason => exact ⟨_, after_farewell hs id reason, stands_rest rfl rfl⟩
  | decline m reason => exact ⟨_, after_farewell hs id reason, stands_rest rfl rfl⟩
  | goodbye m reason => exact ⟨_, after_farewell hs id reason, stands_rest rfl rfl⟩
  | finish reason => exact ⟨_, after_farewell hs id reason, stands_rest rfl rfl⟩
  | letGo => exact ⟨phase, rfl, hs.congr rfl rfl rfl rfl⟩
  | accepted info ha he => exact stands_connected h hs ha.1 he id info
  | settled info hc hi ha he => exact stands_connected h hs hc he id info
  | message event hk hp he hr ht =>
    have hopen : phase = .open := by
      have ha := h.opens ht
      rw [SessionView.Stands] at hs
      grind [SessionView.transfersData]
    exact ⟨phase, by simp [Phase.next, hk, hopen], hs⟩
  | link | peek => exact ⟨phase, rfl, hs.congr rfl rfl rfl rfl⟩

lemma SessionView.rest_cases (s : SessionView) : s.rest = .idle ∨ s.rest = .fresh := by
  rw [rest]
  split
  · exact .inl rfl
  · exact .inr rfl

lemma stands_asks (hs : s.Stands phase) (hq : s.Asks) : phase = .idle ∨ phase = .fresh := by
  obtain ⟨hst, hi⟩ := hq
  rw [SessionView.Stands] at hs
  grind

lemma stands_lingers (h : ∀ s, o = some s → s.Tidy ∧ s.Lingers) (hs : Stands o phase) :
    phase = .idle ∨ phase = .fresh := by
  cases o with
  | none => exact hs
  | some s =>
    obtain ⟨ht, hst, hc⟩ := h s rfl
    have hsent := ht.sent hc
    rw [Stands, SessionView.Stands] at hs
    grind

lemma PeerMove.stands (h : ∀ s, o = some s → s.Tidy) (hs : Stands o phase) (hm : PeerMove Γ v id o o' ms) :
    ∃ phase', phase.after ms = some phase' ∧ Stands o' phase' := by
  cases hm with
  | quiet | applied | late | ignored => exact ⟨phase, rfl, hs⟩
  | session s s' ms hm => exact hm.stands (h s rfl) hs
  | relinked => exact ⟨phase, rfl, SessionView.Stands.congr hs rfl rfl rfl rfl⟩
  | overtaken s info hc hn ha he => exact stands_connected (h s rfl) hs hc he id info
  | answered c s m hc hst =>
    refine ⟨phase, rfl, ?_⟩
    obtain ⟨ha, hi⟩ := (h s rfl).waits hst
    have hs : s.Stands phase := hs
    change (s.accepted m).Stands phase
    rw [SessionView.Stands] at hs ⊢
    grind [SessionView.accepted]
  | refused o reason hl =>
    have hp := stands_lingers (fun s ho => ⟨h s ho, hl s ho⟩) hs
    exact ⟨.idle, by simp [Phase.next, hp, SessionView.disconnected], .inl rfl⟩
  | opened o address l control hl =>
    have hp := stands_lingers (fun s ho => ⟨h s ho, hl s ho⟩) hs
    exact ⟨.fresh, by simp [Phase.next, hp], by simp [Stands, SessionView.Stands]⟩
  | asked address l x info =>
    have hp : phase = .idle ∨ phase = .fresh := hs
    exact ⟨.asked, by simp [Phase.next, hp, requestMark], by simp [Stands, SessionView.Stands]⟩
  | welcomed address l x m =>
    have hp : phase = .idle ∨ phase = .fresh := hs
    exact ⟨.fresh, by simp [Phase.next, hp], by simp [Stands, SessionView.Stands, SessionView.accepted]⟩
  | crossed s address l x m hq =>
    have hp := stands_asks hs hq
    exact ⟨.fresh, by simp [Phase.next, hp], by simp [Stands, SessionView.Stands, SessionView.accepted]⟩
  | lostCrossing s hq => exact ⟨phase, rfl, stands_asks hs hq⟩
  | dropTold s reason => exact ⟨_, after_farewell hs id reason, s.rest_cases⟩
  | dropEnded s he =>
    refine ⟨phase, rfl, ?_⟩
    have hover := (h s rfl).ends he
    have hs : s.Stands phase := hs
    rw [SessionView.Stands] at hs
    rw [Stands]
    grind

def View.Told (v : View) : Prop := ∀ id, ∃ phase, Phase.idle.after (v.about id) = some phase ∧
    Stands (v.sessions id) phase

lemma Move.told (ht : v.Tidy) (h : v.Told) (hm : Move Γ v w) : w.Told := by
  intro id
  obtain ⟨ms, habout, hp⟩ := hm.shown id
  obtain ⟨phase, hphase, hs⟩ := h id
  obtain ⟨phase', hafter, hs'⟩ := hp.stands (ht id) hs
  refine ⟨phase', ?_, hs'⟩
  rw [habout, Phase.after_append, hphase, Option.bind_some, hafter]

structure Block where
  request : Bool := false
  messages : Option ℕ := none

namespace Block

def opening (b : Block) : List Kind :=
  (if b.request then [.connectionRequest] else []) ++
    match b.messages with
    | none => []
    | some n => .connected :: List.replicate n .message

def whole (b : Block) : List Kind := b.opening ++ [.disconnected]

def At (b : Block) : Phase → Prop
  | .idle | .fresh => b = {}
  | .asked => b = { request := true }
  | .open => b.messages.isSome

end Block

def InBlocks (kinds : List Kind) (last : Block) : Prop :=
  ∃ done : List Block, kinds = done.flatMap Block.whole ++ last.opening

def kindsOf (ms : List Mark) : List Kind := (Observed.eventsOf ms).map (·.kind)

lemma kindsOf_append (ms ns : List Mark) : kindsOf (ms ++ ns) = kindsOf ms ++ kindsOf ns := by
  simp [kindsOf, Observed.eventsOf]

section Blocks

variable {kinds ks : List Kind} {b b' : Block} {phase' : Phase} {m : Mark} {event : EngineEvent}

lemma InBlocks.extend (h : InBlocks kinds b) (ho : b'.opening = b.opening ++ ks) : InBlocks (kinds ++ ks) b' := by
  obtain ⟨done, rfl⟩ := h
  exact ⟨done, by rw [ho, List.append_assoc]⟩

lemma InBlocks.close (h : InBlocks kinds b) : InBlocks (kinds ++ [.disconnected]) {} := by
  obtain ⟨done, rfl⟩ := h
  exact ⟨done ++ [b], by simp [Block.whole, Block.opening]⟩

lemma Block.At.request (hb : b.At .fresh) :
    ({ request := true } : Block).opening = b.opening ++ [.connectionRequest] := by
  rw [show b = {} from hb]
  rfl

lemma Block.At.connected (hb : b.At phase) (hp : phase = .fresh ∨ phase = .asked) :
    ({ b with messages := some 0 } : Block).opening = b.opening ++ [.connected] := by
  have hm : b.messages = none := by
    rcases hp with rfl | rfl <;> rw [hb]
  simp [Block.opening, hm]

lemma Block.opening_message {n : ℕ} (hm : b.messages = some n) :
    ({ b with messages := some (n + 1) } : Block).opening = b.opening ++ [.message] := by
  simp [Block.opening, hm, List.replicate_succ']

lemma inBlocks_event (h : InBlocks kinds b) (hb : b.At phase) (hc : ofSession event.kind = true)
    (hn : phase.next (.emitted event) = some phase') :
    ∃ b', InBlocks (kinds ++ [event.kind]) b' ∧ b'.At phase' := by
  cases hk : event.kind with
  | peerDiscovered | peerLost | adapterChanged => simp [ofSession, hk] at hc
  | connectionRequest =>
    obtain ⟨rfl, rfl⟩ : phase = .fresh ∧ phase' = .asked := by
      simp only [Phase.next, hk] at hn
      grind
    exact ⟨_, h.extend hb.request, rfl⟩
  | connected =>
    obtain ⟨hp, rfl⟩ : (phase = .fresh ∨ phase = .asked) ∧ phase' = .open := by
      simp only [Phase.next, hk] at hn
      grind
    exact ⟨_, h.extend (hb.connected hp), rfl⟩
  | message =>
    obtain ⟨rfl, rfl⟩ : phase = .open ∧ phase' = .open := by
      simp only [Phase.next, hk] at hn
      grind
    obtain ⟨n, hm⟩ := Option.isSome_iff_exists.mp hb
    exact ⟨_, h.extend (Block.opening_message hm), rfl⟩
  | disconnected =>
    obtain rfl : phase' = .idle := by
      simp only [Phase.next, hk] at hn
      grind
    exact ⟨_, h.close, rfl⟩

lemma inBlocks_next (h : InBlocks kinds b) (hb : b.At phase) (hc : m.concerns id = true)
    (hn : phase.next m = some phase') : ∃ b', InBlocks (kinds ++ kindsOf [m]) b' ∧ b'.At phase' := by
  cases m with
  | applied | acceptQueued =>
    cases hn
    exact ⟨b, h.extend (List.append_nil _).symm, hb⟩
  | opened | refused =>
    obtain ⟨hp, rfl⟩ : (phase = .idle ∨ phase = .fresh) ∧ phase' = .fresh := by
      simp only [Phase.next] at hn
      grind
    refine ⟨b, h.extend (List.append_nil _).symm, ?_⟩
    rcases hp with rfl | rfl <;> exact hb
  | emitted event =>
    apply inBlocks_event h hb ?_ hn
    simp only [Mark.concerns, Bool.and_eq_true] at hc
    exact hc.2

lemma inBlocks_after (hc : ∀ m ∈ ms, m.concerns id = true) (ha : Phase.idle.after ms = some phase) :
    ∃ b, InBlocks (kindsOf ms) b ∧ b.At phase := by
  induction ms using List.reverseRecOn generalizing phase with
  | nil =>
    cases ha
    exact ⟨{}, ⟨[], rfl⟩, rfl⟩
  | append_singleton ms m ih =>
    rw [Phase.after_append] at ha
    obtain ⟨before, hbefore, hm⟩ := Option.bind_eq_some_iff.mp ha
    obtain ⟨b, hb, hat⟩ := ih (fun m hm => hc m (List.mem_append_left _ hm)) hbefore
    rw [kindsOf_append]
    refine inBlocks_next hb hat (hc m (by simp)) ?_
    simpa using hm

def Mark.starts (id : PeerId) : Mark → Bool
  | .opened peer _ _ | .refused peer => peer == id
  | _ => false

lemma after_idle (hc : ∀ m ∈ ms, m.concerns id = true) (hs : ∀ m ∈ ms, m.starts id = false)
    (ha : Phase.idle.after ms = some phase) : phase = .idle := by
  induction ms with
  | nil => simpa using ha.symm
  | cons m ms ih =>
    obtain ⟨next, hm, hms⟩ := Option.bind_eq_some_iff.mp ha
    have hidle : next = .idle := by
      have hcm := hc m (by simp)
      have hsm := hs m (by simp)
      cases m with
      | applied | acceptQueued => simpa [Phase.next] using hm.symm
      | opened peer | refused peer => simp_all [Mark.concerns, Mark.starts]
      | emitted event =>
        simp only [Phase.next] at hm
        grind
    subst hidle
    exact ih (fun m hm => hc m (List.mem_cons_of_mem _ hm)) (fun m hm => hs m (List.mem_cons_of_mem _ hm)) hms

lemma next_disconnected (hk : event.kind = .disconnected) (hn : phase.next (.emitted event) = some phase') :
    phase' = .idle := by
  simp only [Phase.next, hk] at hn
  grind

lemma next_idle (hc : ofSession event.kind = true) : Phase.idle.next (.emitted event) = none := by
  cases hk : event.kind <;> simp_all [Phase.next, ofSession]

lemma starts_between {pre mid post : List Mark} {ended other : EngineEvent} {o : Observed} (h : o.engine.view.Told)
    (hh : o.engine.history = pre ++ .emitted ended :: (mid ++ .emitted other :: post))
    (he : ended.peer = id ∧ ended.kind = .disconnected) (ho : other.peer = id ∧ ofSession other.kind = true) :
    ∃ m ∈ mid, m.starts id = true := by
  obtain ⟨phase, ha, -⟩ := h id
  have habout : o.engine.view.about id = pre.filter (Mark.concerns id) ++ .emitted ended ::
      (mid.filter (Mark.concerns id) ++ .emitted other :: post.filter (Mark.concerns id)) := by
    have hce : (Mark.emitted ended).concerns id = true := by simp [Mark.concerns, he, ofSession]
    have hco : (Mark.emitted other).concerns id = true := by simp [Mark.concerns, ho]
    rw [View.about, view, hh]
    simp only [List.filter_append, List.filter_cons_of_pos hce, List.filter_cons_of_pos hco]
  rw [habout, Phase.after_append] at ha
  obtain ⟨before, -, ha⟩ := Option.bind_eq_some_iff.mp ha
  rw [Phase.after_cons] at ha
  obtain ⟨rest, hn, ha⟩ := Option.bind_eq_some_iff.mp ha
  rw [next_disconnected he.2 hn, Phase.after_append] at ha
  obtain ⟨waiting, hmid, ha⟩ := Option.bind_eq_some_iff.mp ha
  by_contra hnone
  push Not at hnone
  have hidle : waiting = .idle := by
    refine after_idle (fun m hm => (List.mem_filter.mp hm).2) (fun m hm => ?_) hmid
    simpa using hnone m (List.mem_filter.mp hm).1
  rw [hidle, Phase.after_cons, next_idle ho.2] at ha
  cases ha

end Blocks

def sessionEvents (id : PeerId) (events : List EngineEvent) : List EngineEvent :=
  events.filter fun event => event.peer == id && ofSession event.kind

lemma eventsOf_filter (id : PeerId) (ms : List Mark) :
    Observed.eventsOf (ms.filter (Mark.concerns id)) = sessionEvents id (Observed.eventsOf ms) := by
  induction ms with
  | nil => rfl
  | cons m ms ih =>
    rw [sessionEvents, Observed.eventsOf, Observed.eventsOf] at *
    cases m with
    | emitted event => by_cases h : event.peer = id ∧ ofSession event.kind = true <;>
        grind [Mark.concerns, Mark.event]
    | _ => grind [Mark.event]

namespace Observed

variable {o : Observed}

lemma told (hr : (system anything).Reachable o) : o.engine.view.Told := by
  refine (invariant (P := fun v => v.Tidy ∧ v.Told) (Γ := .any) (fun e world now _ =>
    lawful_any e world now) ?_ ?_ ?_
    hr).2.2
  · intro config drawn
    exact ⟨fun id s h => by simp [view, NetworkEngine.new, find] at h, fun id => ⟨.idle, rfl, .inl rfl⟩⟩
  · rintro v w - ⟨ht, h⟩ hm
    exact ⟨hm.tidy ht, hm.told ht h⟩
  · exact fun v h => h

theorem events_in_blocks (hr : (system anything).Reachable o) (id : PeerId) :
    (∃ last, InBlocks ((sessionEvents id o.delivered).map (·.kind)) last) ∧
      o.delivered = eventsOf o.engine.history ∧
      ∀ pre mid post ended other,
        o.engine.history = pre ++ .emitted ended :: (mid ++ .emitted other :: post) →
        ended.peer = id ∧ ended.kind = .disconnected → other.peer = id ∧ ofSession other.kind = true →
        ∃ m ∈ mid, m.starts id = true := by
  have hd := delivered_eq (Γ := .any) (fun e world now _ => lawful_any e world now) hr
  refine ⟨?_, hd, fun pre mid post ended other => starts_between (told hr)⟩
  obtain ⟨phase, ha, -⟩ := told hr id
  obtain ⟨last, hb, -⟩ := inBlocks_after (fun m hm => (List.mem_filter.mp hm).2) ha
  refine ⟨last, ?_⟩
  rw [hd, ← eventsOf_filter]
  exact hb

def declined : Observed :=
  (({ engine := .new { autoAccept := false, instanceId := 1 } 0 } : Observed).step
    { Sample.bound with channel := [.datagram Sample.there (Sample.firstPacket 2 1 9).bytes] } 0).step
    (Sample.calling [.post .decline 2]) 1

theorem events_in_blocks_declined :
    (sessionEvents 2 declined.delivered).map (·.kind) = [.connectionRequest, .disconnected] ∧
      ∃ last, InBlocks ((sessionEvents 2 declined.delivered).map (·.kind)) last :=
  ⟨by decide +kernel, (events_in_blocks (reachable_step (reachable_step (reachable_new _ _) trivial) trivial) 2).1⟩

end Observed

end NetLink.NetworkEngine
