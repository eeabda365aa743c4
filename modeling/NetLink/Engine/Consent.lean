import NetLink.Engine.Outcomes

/-! No session without consent: what the application said before a session it was asked for opens. -/

namespace NetLink.NetworkEngine

open Channel (TimePoint)

/-- What the marks about a peer say of its record: whether a `connect` waits for its outcome, whether a Hello made
the record and a `connect` was waiting then, whether the application was asked, and whether it agreed since. -/
structure Standing where
  waiting : Bool := false
  byHello : Bool := false
  invited : Bool := false
  asked : Bool := false
  agreed : Bool := false

namespace Standing

def note (c : Standing) : Mark → Standing
  | .applied .connect _ => { c with waiting := true, agreed := c.agreed || c.asked }
  | .applied .accept _ => { c with agreed := c.agreed || c.asked }
  | .opened _ _ byHello => { waiting := c.waiting, byHello := byHello, invited := c.waiting }
  | .emitted event =>
    match event.kind with
    | .connectionRequest => { c with asked := true }
    | .connected | .disconnected => { c with waiting := false }
    | _ => c
  | _ => c

def allowed (c : Standing) : Bool := !c.byHello || c.invited || c.agreed

end Standing

def Mark.settles (id : PeerId) : Mark → Bool
  | .acceptQueued peer => peer == id
  | .emitted event => event.peer == id && event.kind == .connected
  | _ => false

def Mark.opens (id : PeerId) : Mark → Bool
  | .opened peer _ _ => peer == id
  | _ => false

abbrev Respects (id : PeerId) (c : Standing) (ms : List Mark) : Prop :=
  Lib.Along (fun c m => m.settles id = true → c.allowed = true) Standing.note c ms

structure SessionView.Fits (s : SessionView) (c : Standing) : Prop where
  asks : s.Asks → s.ended = false → c.waiting = true
  accepts : s.acceptSent = true → c.allowed = true
  initiates : s.initiator = true → c.byHello = false
  decides : s.state = .awaitingDecision → c.asked = true

variable {Γ : Rules} {v w : View} {id : PeerId} {s s' : SessionView} {ms : List Mark} {o o' : Option SessionView}
  {c : Standing}

lemma SessionView.Fits.quit (h : s.Fits c) {waiting : Bool} (ha : s'.Asks → s'.ended = true)
    (hs : s'.state ≠ .awaitingDecision ∨ s'.state = s.state)
    (hk : s'.acceptSent = s.acceptSent ∧ s'.initiator = s.initiator) : s'.Fits { c with waiting := waiting } where
  asks hasks he := by simp [ha hasks] at he
  accepts := by rw [hk.1]; exact h.accepts
  initiates := by rw [hk.2]; exact h.initiates
  decides hd := h.decides (by rcases hs with hs | hs; exacts [absurd hd hs, hs ▸ hd])

lemma note_farewell (s : SessionView) (id : PeerId) (reason : DisconnectReason) (c : Standing) :
    Respects id c (s.farewell id reason) ∧
      ∃ waiting, (s.farewell id reason).foldl Standing.note c = { c with waiting := waiting } := by
  rw [SessionView.farewell]
  split
  · exact ⟨⟨by simp [SessionView.disconnected, Mark.settles], trivial⟩, false, rfl⟩
  · exact ⟨trivial, c.waiting, rfl⟩

lemma fits_farewell (h : s.Fits c) (reason : DisconnectReason) (ha : s'.Asks → s'.ended = true)
    (hs : s'.state ≠ .awaitingDecision ∨ s'.state = s.state)
    (hk : s'.acceptSent = s.acceptSent ∧ s'.initiator = s.initiator) :
    Respects id c (s.farewell id reason) ∧ s'.Fits ((s.farewell id reason).foldl Standing.note c) := by
  obtain ⟨hr, waiting, hn⟩ := note_farewell s id reason c
  rw [hn]
  exact ⟨hr, h.quit ha hs hk⟩

lemma fits_connected (h : s.Fits c) (hc : c.allowed = true) (info : PeerInfo) :
    Respects id c [connectedMark id info] ∧ s.connected.Fits ([connectedMark id info].foldl Standing.note c) := by
  refine ⟨⟨fun _ => hc, trivial⟩, h.quit ?_ (.inl ?_) ⟨rfl, rfl⟩⟩
  · rintro ⟨hs, -⟩
    cases hs
  · simp [SessionView.connected]

lemma SessionMove.fits (ht : s.Tidy) (h : s.Fits c) (hm : SessionMove id s s' ms) :
    Respects id c ms ∧ s'.Fits (ms.foldl Standing.note c) := by
  cases hm with
  | drain hs =>
    refine ⟨trivial, h.quit (fun ha => ?_) (.inl ?_) ⟨rfl, rfl⟩⟩
    · cases ha.1
    · simp
  | tell reason hc =>
    refine fits_farewell h reason (fun ha => ?_) (.inr rfl) ⟨rfl, rfl⟩
    have hs := (ht.closes hc).symm.trans ha.1
    cases hs
  | decline m reason | goodbye m reason =>
    refine fits_farewell h reason (fun ha => ?_) (.inl ?_) ⟨rfl, rfl⟩
    · cases ha.1
    · simp [SessionView.closing]
  | finish reason => exact fits_farewell h reason (fun _ => rfl) (.inr rfl) ⟨rfl, rfl⟩
  | letGo => exact ⟨trivial, h.quit (fun _ => rfl) (.inr rfl) ⟨rfl, rfl⟩⟩
  | accepted info ha => exact fits_connected h (by simp [Standing.allowed, h.initiates ha.2]) info
  | settled info hs hi ha => exact fits_connected h (h.accepts ha) info
  | message event hk =>
    refine ⟨⟨by simp [Mark.settles, hk], trivial⟩, ?_⟩
    simpa [Standing.note, hk] using h
  | link | peek => exact ⟨trivial, ⟨h.asks, h.accepts, h.initiates, h.decides⟩⟩

def Fits (o : Option SessionView) (c : Standing) : Prop := ∀ s, o = some s → s.Fits c

lemma fits_none (c : Standing) : Fits none c := fun _ hs => by cases hs

lemma fits_some (h : s.Fits c) : Fits (some s) c := by
  rintro _ ⟨⟩
  exact h

lemma Fits.applied (h : Fits o c) (command : Channel.Mailbox.Command) (id : PeerId) :
    Fits o (c.note (.applied command id)) := by
  intro s hs
  obtain ⟨h₁, h₂, h₃, h₄⟩ := h s hs
  rw [Standing.allowed] at h₂
  cases command <;> constructor <;> grind [Standing.note, Standing.allowed]

lemma PeerMove.fits (hv : v.autoAccept = false) (hΓ : ¬Γ.crossesEnded) (ht : ∀ s, o = some s → s.Tidy)
    (h : Fits o c) (hm : PeerMove Γ v id o o' ms) : Respects id c ms ∧ Fits o' (ms.foldl Standing.note c) := by
  cases hm with
  | quiet => exact ⟨trivial, h⟩
  | applied command => exact ⟨⟨by simp [Mark.settles], trivial⟩, h.applied command id⟩
  | late | ignored => exact ⟨⟨by simp [Mark.settles], trivial⟩, h.applied .connect id⟩
  | answered command s m hc hs =>
    have hallowed : (c.note (.applied command id)).allowed = true := by
      have hasked := (h s rfl).decides hs
      rcases hc with rfl | rfl <;> simp [Standing.note, Standing.allowed, hasked]
    have hinitiator := ((ht s rfl).waits hs).2
    refine ⟨⟨by simp [Mark.settles], fun _ => hallowed, trivial⟩, fits_some ⟨?_, fun _ => hallowed, ?_, ?_⟩⟩ <;>
      simp [SessionView.accepted, SessionView.Asks, hinitiator]
  | refused o reason =>
    exact ⟨⟨by simp [Mark.settles], by simp [Mark.settles], by
      simp [Mark.settles, SessionView.disconnected], trivial⟩,
      fits_none _⟩
  | opened o address l control =>
    refine ⟨⟨by simp [Mark.settles], by simp [Mark.settles], trivial⟩, fits_some ?_⟩
    constructor <;> simp [Standing.note]
  | session s s' ms hm =>
    obtain ⟨hr, hf⟩ := hm.fits (ht s rfl) (h s rfl)
    exact ⟨hr, fits_some hf⟩
  | relinked s l control =>
    obtain ⟨h₁, h₂, h₃, h₄⟩ := h s rfl
    exact ⟨trivial, fits_some ⟨h₁, h₂, h₃, h₄⟩⟩
  | overtaken s info hs hn ha =>
    obtain ⟨hr, hf⟩ := fits_connected (h s rfl) ((h s rfl).accepts ha) info
    exact ⟨hr, fits_some hf⟩
  | asked address l x info =>
    refine ⟨⟨by simp [Mark.settles], by simp [Mark.settles, requestMark], trivial⟩, fits_some ?_⟩
    constructor <;> simp [SessionView.Asks, Standing.note, requestMark]
  | welcomed address l x m ha => simp [hv] at ha
  | crossed s address l x m hs hd =>
    have hw : c.waiting = true := by
      refine (h s rfl).asks hs ?_
      by_contra he
      exact hΓ (hd (by simpa using he))
    refine ⟨⟨by simp [Mark.settles], fun _ => by simp [Standing.allowed, Standing.note, hw], trivial⟩,
      fits_some ?_⟩
    constructor <;> simp [SessionView.accepted, SessionView.Asks, Standing.note, Standing.allowed, hw]
  | lostCrossing | dropEnded => exact ⟨trivial, fits_none _⟩
  | dropTold s reason => exact ⟨(note_farewell s id reason c).1, fits_none _⟩

def View.Consented (v : View) : Prop :=
  v.autoAccept = false → ∀ id, Respects id {} (v.about id) ∧
    Fits (v.sessions id) ((v.about id).foldl Standing.note {})

lemma Move.consented (hΓ : ¬Γ.crossesEnded) (ht : v.Tidy) (h : v.Consented) (hm : Move Γ v w) : w.Consented := by
  intro hw id
  have hv : v.autoAccept = false := by rw [← hm.settings.2.1, hw]
  obtain ⟨ms, habout, hp⟩ := hm.shown id
  obtain ⟨hr, hf⟩ := h hv id
  obtain ⟨hr', hf'⟩ := hp.fits hv hΓ (ht id) hf
  rw [habout, List.foldl_append]
  exact ⟨Lib.along_append.mpr ⟨hr, hr'⟩, hf'⟩

def Agreed (id : PeerId) (ms : List Mark) : Prop :=
  ∃ pre request post, ms = pre ++ .emitted request :: post ∧ request.kind = .connectionRequest ∧
    request.peer = id ∧
    (.applied .accept id ∈ post ∨ .applied .connect id ∈ post)

lemma Agreed.concat (h : Agreed id ms) (m : Mark) : Agreed id (ms ++ [m]) := by
  obtain ⟨pre, request, post, rfl, hk, hp, hyes⟩ := h
  refine ⟨pre, request, post ++ [m], by simp, hk, hp, ?_⟩
  exact hyes.imp (List.mem_append_left _) (List.mem_append_left _)

def Asked (id : PeerId) (ms : List Mark) : Prop :=
  ∃ request, .emitted request ∈ ms ∧ request.kind = .connectionRequest ∧ request.peer = id

lemma Asked.concat (h : Asked id ms) (m : Mark) : Asked id (ms ++ [m]) := by
  obtain ⟨request, hmem, hr⟩ := h
  exact ⟨request, List.mem_append_left _ hmem, hr⟩

lemma Asked.answered (h : Asked id ms) {command : Channel.Mailbox.Command}
    (hc : command = .accept ∨ command = .connect) :
    Agreed id (ms ++ [.applied command id]) := by
  obtain ⟨request, hmem, hk, hp⟩ := h
  obtain ⟨pre, post, rfl⟩ := List.append_of_mem hmem
  refine ⟨pre, request, post ++ [.applied command id], by simp, hk, hp, ?_⟩
  rcases hc with rfl | rfl
  · exact .inl (by simp)
  · exact .inr (by simp)

structure Since (id : PeerId) (c after : Standing) (ms : List Mark) : Prop where
  byHello : after.byHello = c.byHello
  invited : after.invited = c.invited
  asked : after.asked = true → Asked id ms
  agreed : after.agreed = true → Agreed id ms

lemma Since.concat {after : Standing} (h : Since id c after ms) {m : Mark} (hc : m.concerns id = true)
    (hm : m.opens id = false) : Since id c (after.note m) (ms ++ [m]) := by
  have hsame : Since id c after (ms ++ [m]) :=
    ⟨h.byHello, h.invited, fun ha => (h.asked ha).concat m, fun ha => (h.agreed ha).concat m⟩
  cases m with
  | refused | acceptQueued => exact hsame
  | opened peer x byHello =>
    simp_all [Mark.concerns, Mark.opens]
  | applied command peer =>
    obtain rfl : peer = id := by simpa [Mark.concerns] using hc
    have hsays : (command = .accept ∨ command = .connect) → (after.agreed || after.asked) = true →
        Agreed peer (ms ++ [.applied command peer]) := by
      intro hcommand ha
      rcases Bool.or_eq_true_iff.mp ha with ha | ha
      · exact (h.agreed ha).concat _
      · exact (h.asked ha).answered hcommand
    cases command with
    | connect => exact ⟨h.byHello, h.invited, hsame.asked, hsays (.inr rfl)⟩
    | accept => exact ⟨h.byHello, h.invited, hsame.asked, hsays (.inl rfl)⟩
    | _ => exact hsame
  | emitted event =>
    rw [Standing.note]
    simp only [Mark.concerns, Bool.and_eq_true, beq_iff_eq] at hc
    split
    · next hk => exact ⟨h.byHello, h.invited, fun _ => ⟨event, by simp, hk, hc.1⟩, hsame.agreed⟩
    · exact ⟨h.byHello, h.invited, hsame.asked, hsame.agreed⟩
    · exact ⟨h.byHello, h.invited, hsame.asked, hsame.agreed⟩
    · exact hsame

lemma since_opened (hc : c.asked = false) (ha : c.agreed = false) (ms : List Mark)
    (hms : ∀ m ∈ ms, m.opens id = false) :
    Since id c ((ms.filter (Mark.concerns id)).foldl Standing.note c) ms := by
  induction ms using List.reverseRecOn with
  | nil => exact ⟨rfl, rfl, by simp [hc], by simp [ha]⟩
  | append_singleton ms m ih =>
    have ih := ih fun m hmem => hms m (List.mem_append_left _ hmem)
    rw [List.filter_append, List.foldl_append]
    by_cases hm : m.concerns id = true
    · rw [List.filter_cons_of_pos hm]
      exact ih.concat hm (hms m (by simp))
    · rw [List.filter_cons_of_neg hm]
      exact ⟨ih.byHello, ih.invited, fun h => (ih.asked h).concat m, fun h => (ih.agreed h).concat m⟩

lemma waiting_note (ms : List Mark) (c : Standing) :
    (ms.foldl Standing.note c).waiting = ms.foldl awaits c.waiting := by
  induction ms generalizing c with
  | nil => rfl
  | cons m ms ih =>
    have hm : (c.note m).waiting = awaits c.waiting m := by
      cases m with
      | applied command => cases command <;> rfl
      | emitted event => cases hk : event.kind <;> simp [Standing.note, awaits, EngineEvent.answers, hk]
      | _ => rfl
    rw [List.foldl_cons, List.foldl_cons, ih, hm]

def CrossesAlive (e : NetworkEngine) (world : World) (now : TimePoint) : Prop :=
  Lib.Along (fun e d => ¬e.CrossesEnded d) (handleDatagram now) (e.beforeReceiving world now)
    (e.arriving world now)

instance (e : NetworkEngine) (world : World) (now : TimePoint) : Decidable (CrossesAlive e world now) :=
  inferInstanceAs (Decidable (Lib.Along ..))

def Rules.crossesAlive : Rules where
  incoming _ _ := True
  swallows := True
  refusesCrossing := True
  crossesEnded := False

lemma CrossesAlive.lawful {e : NetworkEngine} {world : World} {now : TimePoint} (h : CrossesAlive e world now) :
    Lawful .crossesAlive e world now where
  commands := Lib.along_of_forall (fun _ _ _ => trivial) _ _
  datagrams := h.mono fun _ _ hd => ⟨fun _ _ _ => trivial, hd, fun _ => trivial⟩

namespace Observed

variable {o : Observed}

lemma consented (hr : (system CrossesAlive).Reachable o) : o.engine.view.Consented := by
  refine (invariant (P := fun v => v.Tidy ∧ v.Consented) (Γ := .crossesAlive) (fun _ _ _ h => h.lawful)
    ?_ ?_ ?_ hr).2.2
  · intro config drawn
    exact ⟨fun id s h => by simp [view, NetworkEngine.new, find] at h,
      fun _ id => ⟨trivial, fun s h => by simp [view, NetworkEngine.new, find] at h⟩⟩
  · rintro v w - ⟨ht, h⟩ hm
    exact ⟨hm.tidy ht, hm.consented id ht h⟩
  · exact fun v h => h

theorem no_session_without_consent (hr : (system CrossesAlive).Reachable o)
    (hauto : o.engine.mConfig.autoAccept = false) {id : PeerId} {a b post : List Mark} {x : UInt32} {m : Mark}
    (hh : o.engine.history = a ++ .opened id x true :: (b ++ m :: post)) (hb : ∀ m ∈ b, m.opens id = false)
    (hm : m.settles id = true) : Agreed id b ∨ Outstanding id a := by
  have hconcerns : m.concerns id = true := by
    cases m <;> simp_all [Mark.settles, Mark.concerns, ofSession]
  have habout : o.engine.view.about id = a.filter (Mark.concerns id) ++ .opened id x true ::
      (b.filter (Mark.concerns id) ++ m :: post.filter (Mark.concerns id)) := by
    have hopened : (Mark.opened id x true).concerns id = true := by simp [Mark.concerns]
    rw [View.about, view, hh]
    simp only [List.filter_append, List.filter_cons_of_pos hopened, List.filter_cons_of_pos hconcerns]
  have hrespects := (consented hr hauto id).1
  rw [habout] at hrespects
  obtain ⟨-, -, hrespects⟩ := Lib.along_append.mp hrespects
  obtain ⟨-, hallowed, -⟩ := Lib.along_append.mp hrespects
  have hallowed := hallowed hm
  have hsince := since_opened (c := ((a.filter (Mark.concerns id)).foldl Standing.note {}).note
    (.opened id x true))
    rfl rfl b hb
  rw [Standing.allowed, hsince.byHello, hsince.invited] at hallowed
  rcases Bool.or_eq_true_iff.mp hallowed with hinvited | hagreed
  · right
    rw [outstanding_iff, ← waiting_note _ {}]
    exact hinvited
  · exact .inl (hsince.agreed hagreed)

def acceptedHello : Observed :=
  (({ engine := .new { autoAccept := false, instanceId := 1 } 0 } : Observed).step
    { Sample.bound with channel := [.datagram Sample.there (Sample.firstPacket 2 1 9).bytes] } 0).step
    (Sample.calling [.post .accept 2]) 1

theorem no_session_without_consent_acceptedHello :
    ∃ a b, acceptedHello.engine.history = a ++ .opened 2 1 true :: (b ++ [.acceptQueued 2]) ∧
      (Agreed 2 b ∨ Outstanding 2 a) := by
  have hh : acceptedHello.engine.history = acceptedHello.engine.history.take 1 ++ .opened 2 1 true ::
      ((acceptedHello.engine.history.drop 2).take 2 ++ [.acceptQueued 2]) := by decide +kernel
  refine ⟨_, _, hh, no_session_without_consent ?_ (by decide +kernel) hh (by decide +kernel) (by decide +kernel)⟩
  refine reachable_step (reachable_step (reachable_new _ _) ?_) ?_ <;> decide +kernel

def withdrawn : Observed :=
  (({ engine := .new { autoAccept := false, instanceId := 1 } 0 } : Observed).step
    { Sample.bound with channel := [.datagram Sample.there (Sample.beaconOf 2)] } 0).step
    { Sample.calling [.post .connect 2, .post .disconnect 2] with
      channel := [.datagram Sample.there (Sample.firstPacket 2 1 9).bytes] } 1

theorem accepted_without_consent : (system anything).Reachable withdrawn ∧
    withdrawn.engine.mConfig.autoAccept = false ∧
    ∃ a, withdrawn.engine.history = a ++ .opened 2 1 true :: ([] ++ [.acceptQueued 2]) ∧
      ¬(Agreed 2 [] ∨ Outstanding 2 a) := by
  refine ⟨reachable_step (reachable_step (reachable_new _ _) trivial) trivial, by decide +kernel,
    withdrawn.engine.history.take 6, by decide +kernel, ?_⟩
  rintro (⟨pre, request, post, hnil, -⟩ | hout)
  · simp at hnil
  · rw [outstanding_iff] at hout
    revert hout
    decide +kernel

end Observed

end NetLink.NetworkEngine
