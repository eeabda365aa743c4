import NetLink.Engine.Observed

/-! What the loops of a step do to the containers they walk. -/

namespace NetLink.NetworkEngine

open Net (SocketAddress)
open Channel (TimePoint ReliableLink Packet DeliveredMessage Mailbox)
open Session (ControlType)

structure Kept (e e' : NetworkEngine) : Prop where
  peers : ∀ id, (e'.find id).isSome = (e.find id).isSome
  work : e'.mWork = e.mWork

structure Still (e e' : NetworkEngine) : Prop extends Kept e e' where
  touched : e'.mTouched = e.mTouched

variable (e : NetworkEngine) {e' e'' : NetworkEngine} (id : PeerId) {p : Peer}

namespace Kept

lemma trans (h : Kept e e') (h' : Kept e' e'') : Kept e e'' where
  peers id := (h'.peers id).trans (h.peers id)
  work := h'.work.trans h.work

lemma touch (h : Kept e e') : Kept e (e'.touch id) := ⟨h.peers, h.work⟩

end Kept

namespace Still

lemma of_fields (hf : e'.mPeers = e.mPeers) (hw : e'.mWork = e.mWork) (ht : e'.mTouched = e.mTouched) :
    Still e e' where
  peers id := by rw [find, find, hf]
  work := hw
  touched := ht

lemma refl : Still e e := of_fields e rfl rfl rfl

variable {e}

lemma trans (h : Still e e') (h' : Still e' e'') : Still e e'' :=
  { Kept.trans e h.toKept h'.toKept with touched := h'.touched.trans h.touched }

lemma ite {c : Prop} [Decidable c] (h : Still e e') (h' : Still e e'') : Still e (if c then e' else e'') := by
  split
  · exact h
  · exact h'

lemma foldl {α : Type*} {f : NetworkEngine → α → NetworkEngine} (h : ∀ e a, Still e (f e a)) (as : List α)
    (e : NetworkEngine) : Still e (as.foldl f e) := by
  induction as generalizing e with
  | nil => exact refl e
  | cons a as ih => exact (h e a).trans (ih (f e a))

end Still

lemma still_modifyPeer (f : Peer → Peer) : Still e (e.modifyPeer id f) where
  peers j := by
    rw [find_modifyPeer]
    split
    · next hj => rw [Option.isSome_map, hj]
    · rfl
  work := rfl
  touched := rfl

lemma still_withMailbox (f : Mailbox → Mailbox) : Still e (e.withMailbox f) := .of_fields e rfl rfl rfl

lemma still_settle : Still e (e.settle id).2 := .of_fields e rfl rfl rfl

lemma still_emit (event : EngineEvent) : Still e (e.emit event) := .of_fields e rfl rfl rfl

lemma still_putLink (link : ReliableLink) : Still e (e.putLink id link) :=
  (still_modifyPeer e id _).trans (.of_fields _ rfl rfl rfl)

lemma still_onLink (f : ReliableLink → ReliableLink) : Still e (e.onLink id f) := by
  rw [onLink]
  split
  · exact .refl e
  · exact still_putLink e id _

lemma still_report (reason : DisconnectReason) : Still e (e.report id reason) := by
  rw [report]
  split
  · exact .refl e
  · exact .ite (.refl e) ((still_modifyPeer e id _).trans (still_emit _ _))

lemma still_endPeer : Still e (e.endPeer id) := by
  rw [endPeer]
  split
  · exact .refl e
  · exact .ite (.refl e) ((still_modifyPeer e id _).trans (.of_fields _ rfl rfl rfl))

lemma still_setConnected : Still e (e.setConnected id) := by
  rw [setConnected]
  split
  · exact .refl e
  · exact (still_modifyPeer e id _).trans (.of_fields _ rfl rfl rfl)

lemma still_onControl (message : DeliveredMessage) : Still e (e.onControl id message) := by
  have hends : ∀ reason, Still e ((e.report id reason).endPeer id) :=
    fun reason => (still_report e id reason).trans (still_endPeer _ id)
  rw [onControl]
  split
  · exact .refl e
  apply Still.ite (.refl e)
  split
  · exact .refl e
  · exact .refl e
  · exact .ite ((Still.ite (.refl e) (still_modifyPeer e id _)).trans (still_setConnected _ id)) (.refl e)
  · exact .ite (hends _) (.refl e)
  · exact hends _

lemma still_pushMedia (message : DeliveredMessage) : Still e (e.pushMedia id message) :=
  (still_modifyPeer e id _).trans (.of_fields _ rfl rfl rfl)

lemma still_deliver (message : DeliveredMessage) : Still e (e.deliver id message) := by
  rw [deliver]
  apply Still.ite (still_onControl e id message)
  apply Still.ite (.refl e)
  exact .ite ((still_pushMedia e id message).trans (still_emit _ _)) (still_emit e _)

lemma still_transmit (address : SocketAddress) (packet : Packet) : Still e (e.transmit address packet).2 := by
  obtain ⟨world, posts, blocked, failed, he, -⟩ := transmit_eq e address packet
  rw [he]
  exact .of_fields e rfl rfl rfl

lemma still_sendAcks : Still e (e.sendAcks id) :=
  sendAcks_keeps e .refl .trans (fun e => still_onLink e id _) (fun e p ack _ _ => still_transmit e p.address ack)
    (fun e => still_onLink e id _) (fun e => .of_fields e rfl rfl rfl) fun e => .of_fields e rfl rfl rfl

lemma still_nextMessage (lane : Channel.Lane) : Still e (nextMessage id e lane).2 := by
  rw [nextMessage]
  split
  · exact .refl e
  split
  · exact still_modifyPeer e id _
  split
  · exact .refl e
  · exact .of_fields e rfl rfl rfl

lemma still_peek (lane : Channel.Lane) : Still e (e.peek id lane).2 := by
  apply peek_keeps
  · exact .refl e
  · exact still_nextMessage e id lane
  · exact fun e' link h => h.trans (still_putLink e' id link)

lemma still_scheduleLane (lane : Channel.Lane) : Still e (scheduleLane id e lane) := by
  have hpeek := still_peek e id lane
  refine scheduleLane_keeps e (.refl e) hpeek ((hpeek.trans ?_).trans (still_modifyPeer _ id _))
  exact .of_fields _ rfl rfl rfl

lemma still_schedule : Still e (e.schedule id) := .foldl (fun e lane => still_scheduleLane e id lane) _ _

lemma still_settlePeer : Still e (e.settlePeer id) :=
  settlePeer_keeps e .refl .trans (fun e => still_modifyPeer e id _)
    (fun e _ => (still_settle e id).trans (still_modifyPeer _ id _)) (fun e => still_modifyPeer e id _)
    fun e _ => still_withMailbox e _

def Touched (e : NetworkEngine) (id : PeerId) (e' : NetworkEngine) : Prop :=
  ∃ still, Still e still ∧ e' = still.touch id

lemma Touched.kept (h : Touched e id e') : Kept e e' := by
  obtain ⟨still, hs, rfl⟩ := h
  exact hs.toKept.touch e id

lemma touched_sendDecline (now : TimePoint) : Touched e id (e.sendDecline id now) := by
  refine ⟨_, ?_, rfl⟩
  exact (((still_modifyPeer e id _).trans (still_report _ id _)).trans (still_modifyPeer _ id _)).trans
    (still_withMailbox _ _)

lemma sendClose_cases (now : TimePoint) :
    if (e.find id).all (·.link.mRemoteStreamID.isNone) then Still e (e.sendClose id now)
    else Touched e id (e.sendClose id now) := by
  have hsame : (e.withMailbox (·.close id)).find id = e.find id := rfl
  rw [sendClose]
  rw [hsame]
  split
  · exact (still_withMailbox e _).trans (still_endPeer _ id)
  · refine ⟨_, ?_, rfl⟩
    exact (still_withMailbox e _).trans (still_modifyPeer _ id _)

lemma kept_sendClose (now : TimePoint) : Kept e (e.sendClose id now) := by
  have hcases := sendClose_cases e id now
  split at hcases
  · exact hcases.toKept
  · exact hcases.kept

lemma kept_shutdownPeer (now : TimePoint) : Kept e (shutdownPeer now e id) := by
  have hreported := (still_report e id .shutdown).toKept
  rw [shutdownPeer]
  split
  · exact hreported
  split
  · exact hreported.trans _ (touched_sendDecline _ id now).kept
  split
  · exact hreported.trans _ (kept_sendClose _ id now)
  · exact hreported

lemma still_endInPassing (reason : DisconnectReason) : Still e (endInPassing reason e id) :=
  (still_report e id reason).trans (still_withMailbox _ _)

lemma kept_pausePeer : Kept e (e.pausePeer id) := (still_onLink e id _).toKept.touch e id

lemma kept_serviceTimer (now : TimePoint) : Kept e (serviceTimer now e id) := by
  have hkept : Kept e e := (Still.refl e).toKept
  rw [serviceTimer]
  split
  · exact hkept
  dsimp only
  have htimed : ∀ c : Prop, [Decidable c] → Kept e (if c then (e.onLink id (·.onTimer now)).touch id else e) := by
    intro c _
    split
    · exact (still_onLink e id _).toKept.touch e id
    · exact hkept
  split
  · exact (htimed _).touch e id
  · exact htimed _

lemma work_erase : (e.erase id).mWork = e.mWork := by
  rw [erase]
  split <;> rfl

lemma work_openSession (now : TimePoint) : (e.openSession id now).mWork = e.mWork := by
  rw [openSession]
  split
  · rfl
  split <;> rfl

lemma work_startSession (now : TimePoint) : (e.startSession id now).mWork = e.mWork := by
  rw [startSession]
  split
  · rfl
  split
  · exact work_openSession e id now
  split
  · rfl
  split
  · rfl
  · rw [work_openSession, work_erase]

lemma work_endSession (now : TimePoint) : (e.endSession id now).mWork = e.mWork := by
  rw [endSession]
  split
  · rfl
  split
  · rfl
  · exact (touched_sendDecline e id now).kept.work
  · exact ((kept_sendClose _ id now).work).trans (still_report e id .localEnd).work
  · rfl

lemma work_beginShutdown (now : TimePoint) : (e.beginShutdown now).mWork = e.mWork := by
  have hpeers : ∀ (ids : List PeerId) (e : NetworkEngine), (ids.foldl (shutdownPeer now) e).mWork = e.mWork := by
    intro ids
    induction ids with
    | nil => exact fun _ => rfl
    | cons id ids ih => exact fun e => (ih _).trans (kept_shutdownPeer e id now).work
  rw [beginShutdown]
  split
  · rfl
  · exact hpeers _ _

lemma work_apply (now : TimePoint) (c : Mailbox.PostedCommand) : (apply now e c).mWork = e.mWork := by
  rw [apply]
  split
  · exact work_startSession _ _ now
  · split <;> rfl
  · split
    · exact (touched_sendDecline _ _ now).kept.work
    · rfl
  · exact work_endSession _ _ now
  · rfl
  · rfl
  · rfl
  · rfl
  · exact work_beginShutdown _ now

def isClose (message : DeliveredMessage) : Bool :=
  message.lane == .control && ControlType.ofTag message.tag == some .close

def saysGoodbye (e : NetworkEngine) (id : PeerId) (peer : Peer) (now : TimePoint) : Bool :=
  let expired := peer.stateDeadline.any (· ≤ now)
  match peer.state with
  | .connecting | .connected => false
  | .awaitingDecision => expired
  | .closing =>
    !peer.closeSent && peer.link.mRemoteStreamID.isSome &&
      (expired || !peer.link.hasPending .reliable && !peer.link.hasPending .bulk && (e.settle id).1)

/-- The peer is alive, its remote did not close the session, and its state asks for a goodbye. -/
def touches (e : NetworkEngine) (id : PeerId) (now : TimePoint) : Bool :=
  (e.find id).any fun peer =>
    !peer.ended && !peer.link.mFailed && !peer.link.mDelivered.any isClose && e.saysGoodbye id peer now

variable {id} {message : DeliveredMessage}

lemma touched_of_still (h : Still e e') {c : Bool} (hc : c = false) :
    e'.mTouched = e.mTouched ++ if c then [id] else [] := by
  rw [h.touched, hc]
  exact (List.append_nil _).symm

lemma touched_of_touched (h : Touched e id e') {c : Bool} (hc : c = true) :
    e'.mTouched = e.mTouched ++ if c then [id] else [] := by
  obtain ⟨still, hs, rfl⟩ := h
  rw [touch, hs.touched, hc]
  rfl

lemma touched_goodbye (h : e.find id = some p) (hs : Still e e') (he : e'.find id = e.find id) (now : TimePoint) :
    ((e'.report id .localEnd).sendClose id now).mTouched =
      e.mTouched ++ if p.link.mRemoteStreamID.isSome then [id] else [] := by
  have hcases := sendClose_cases (e'.report id .localEnd) id now
  have hreport := hs.trans (still_report e' id .localEnd)
  have hlink : ((e'.report id .localEnd).find id).all (·.link.mRemoteStreamID.isNone) =
    p.link.mRemoteStreamID.isNone := by
    rw [find_report e' (he.trans h)]
    rfl
  rw [hlink] at hcases
  split at hcases
  · next hr => exact touched_of_still e (hreport.trans hcases) (by simpa using hr)
  · next hr =>
    obtain ⟨still, hs, heq⟩ := hcases
    exact touched_of_touched e ⟨still, hreport.trans hs, heq⟩ (by simpa [← Option.isSome_iff_ne_none] using hr)

lemma touched_finishClosing (h : e.find id = some p) (now : TimePoint) (expired : Bool) :
    (e.finishClosing id p now expired).mTouched = e.mTouched ++
      if p.link.mRemoteStreamID.isSome &&
        (expired || !p.link.hasPending .reliable && !p.link.hasPending .bulk && (e.settle id).1)
          then [id] else [] := by
  rw [finishClosing]
  cases expired with
  | true =>
    have hgoodbye := touched_goodbye e h (.refl e) rfl now
    simpa using hgoodbye
  | false =>
    have hgoodbye := touched_goodbye e h (still_settle e id) rfl now
    by_cases hp : (p.link.hasPending .reliable || p.link.hasPending .bulk) = true
    · simp only [hp, if_true, Bool.false_eq_true, if_false]
      refine touched_of_still e (.refl e) ?_
      rcases Bool.or_eq_true_iff.mp hp with hp | hp <;> simp [hp]
    · have hnone : p.link.hasPending .reliable = false ∧ p.link.hasPending .bulk = false := by simpa using hp
      simp only [if_false, Bool.false_eq_true, hnone, Bool.not_false, Bool.true_and, Bool.false_or]
      cases hset : (e.settle id).1 with
      | true => simpa [hset] using hgoodbye
      | false => simpa [hset] using (still_settle e id).touched

lemma touched_advanceState (h : e.find id = some p) (now : TimePoint) :
    (e.advanceState id now).mTouched =
      e.mTouched ++ if !p.ended && e.saysGoodbye id p now then [id] else [] := by
  simp only [advanceState, h]
  split
  · next he => exact touched_of_still e (.refl e) (by simp [he])
  next he =>
  rw [saysGoodbye]
  split
  · next hst =>
    rw [hst]
    split
    · exact touched_of_still e (still_setConnected e id) (by simp)
    · exact touched_of_still e (.refl e) (by simp)
  · next hst =>
    rw [hst]
    split
    · next hx => exact touched_of_touched e (touched_sendDecline e id now) (by simp [he, hx])
    · next hx => exact touched_of_still e (.refl e) (by simp [hx])
  · next hst =>
    rw [hst]
    exact touched_of_still e (.refl e) (by simp)
  · next hst =>
    rw [hst]
    split
    · next hc =>
      have hstill : Still e (if (p.control.isEmpty && !p.link.hasPending .control ||
          p.stateDeadline.any (· ≤ now)) = true then e.endPeer id else e) := .ite (still_endPeer e id) (.refl e)
      exact touched_of_still e hstill (by simp [hc])
    · next hc =>
      rw [touched_finishClosing e h]
      simp [he, hc]

lemma deliver_ended (h : e.find id = some p) (he : p.ended = true) (message : DeliveredMessage) :
    e.deliver id message = e := by
  simp [deliver, onControl, h, he]

lemma find_endPeer (h : e.find id = some p) : (e.endPeer id).find id = some { p with ended := true } := by
  simp only [endPeer, h]
  split
  · next he =>
    cases p
    simp_all
  · have hm := find_modifyPeer_self e id fun peer => { peer with ended := true }
    rw [h, Option.map_some] at hm
    exact hm

lemma find_finish (h : e.find id = some p) (reason : DisconnectReason) :
    ((e.report id reason).endPeer id).find id = some { p.told with ended := true } :=
  find_endPeer _ (find_report e h reason)

lemma deliver_close (h : e.find id = some p) (hc : isClose message = true) :
    ∃ p', (e.deliver id message).find id = some p' ∧ p'.ended = true := by
  by_cases he : p.ended = true
  · exact ⟨p, by rw [deliver_ended e h he, h], he⟩
  have hc : message.lane = .control ∧ ControlType.ofTag message.tag = some .close := by simpa [isClose] using hc
  refine ⟨{ p.told with ended := true }, ?_, rfl⟩
  simp only [deliver, onControl, hc, h, he]
  exact find_finish e h _

lemma find_pushMedia (h : e.find id = some p) (message : DeliveredMessage) :
    ∃ media, (e.pushMedia id message).find id = some { p with media := media } := by
  obtain ⟨f, hf⟩ : ∃ f : Peer → Option (List Message), (e.pushMedia id message).find id =
      (e.modifyPeer id fun peer => { peer with media := f peer }).find id := ⟨_, rfl⟩
  rw [hf, find_modifyPeer_self, h]
  exact ⟨f p, rfl⟩

lemma deliver_quiet (h : e.find id = some p) (hs : p.state ≠ .connecting) (hc : isClose message = false) :
    ∃ media, (e.deliver id message).find id = some { p with media := media } ∧
      (e.deliver id message).mMailbox = e.mMailbox ∧ (e.deliver id message).world.calls = e.world.calls := by
  have hsame : ∃ media, e.find id = some { p with media := media } ∧ e.mMailbox = e.mMailbox ∧
      e.world.calls = e.world.calls := ⟨p.media, h, rfl, rfl⟩
  rw [deliver]
  split
  · next hl =>
    have hc : ControlType.ofTag message.tag ≠ some .close := by simpa [isClose, hl] using hc
    simp only [onControl, h, hs, false_and, if_false]
    split
    · exact hsame
    · split
      · exact hsame
      · exact hsame
      · exact hsame
      · exact hsame
      · next ht => exact absurd ht hc
  split
  · exact hsame
  split
  · obtain ⟨media, hm⟩ := find_pushMedia e h message
    exact ⟨media, hm, rfl, rfl⟩
  · exact hsame

lemma state_setConnected (h : (e.find id).isSome) :
    ∃ p, (e.setConnected id).find id = some p ∧ p.state = .connected := by
  obtain ⟨p, h⟩ := Option.isSome_iff_exists.mp h
  exact ⟨_, find_setConnected e h, rfl⟩

lemma deliver_opening (h : e.find id = some p) (hs : p.state = .connecting ∨ p.state = .connected)
    (message : DeliveredMessage) : ∃ p', (e.deliver id message).find id = some p' ∧
    (p'.state = .connecting ∨ p'.state = .connected) := by
  have hsame : ∃ p', e.find id = some p' ∧ (p'.state = .connecting ∨ p'.state = .connected) := ⟨p, h, hs⟩
  have hends : ∀ reason, ∃ p', ((e.report id reason).endPeer id).find id = some p' ∧
      (p'.state = .connecting ∨ p'.state = .connected) := fun reason => ⟨_, find_finish e h reason, hs⟩
  have hopens : ∀ (c : Bool) (f : Peer → Peer), ∃ p',
    ((if c then e else e.modifyPeer id f).setConnected id).find id =
      some p' ∧ (p'.state = .connecting ∨ p'.state = .connected) := by
    intro c f
    have hstill : Still e (if c then e else e.modifyPeer id f) := .ite (.refl e) (still_modifyPeer e id f)
    have hsome : ((if c then e else e.modifyPeer id f).find id).isSome := (hstill.peers id).trans (by rw [h]; rfl)
    obtain ⟨p', hp, hs⟩ := state_setConnected _ hsome
    exact ⟨p', hp, .inr hs⟩
  rw [deliver]
  split
  · simp only [onControl, h]
    split
    · exact hsame
    split
    · exact hsame
    · exact hsame
    · split
      · exact hopens _ _
      · exact hsame
    · split
      · exact hends _
      · exact hsame
    · exact hends _
  split
  · exact hsame
  split
  · obtain ⟨media, hm⟩ := find_pushMedia e h message
    exact ⟨_, hm, hs⟩
  · exact hsame

def delivered (e : NetworkEngine) (id : PeerId) (messages : List DeliveredMessage) : NetworkEngine :=
  messages.foldl (fun e message => e.deliver id message) e

variable (messages : List DeliveredMessage)

lemma delivered_ended (h : e.find id = some p) (he : p.ended = true) : e.delivered id messages = e := by
  induction messages with
  | nil => rfl
  | cons m messages ih => rw [delivered, List.foldl_cons, deliver_ended e h he, ← delivered, ih]

lemma delivered_quiet (h : e.find id = some p) (hs : p.state ≠ .connecting) (hm : messages.any isClose = false) :
    ∃ media, (e.delivered id messages).find id = some { p with media := media } ∧
      (e.delivered id messages).mMailbox = e.mMailbox ∧ (e.delivered id messages).world.calls = e.world.calls := by
  induction messages generalizing e p with
  | nil => exact ⟨p.media, h, rfl, rfl⟩
  | cons m messages ih =>
    rw [List.any_cons, Bool.or_eq_false_iff] at hm
    obtain ⟨media, hfind, hmail, hcalls⟩ := deliver_quiet e h hs hm.1
    obtain ⟨media', hfind', hmail', hcalls'⟩ := ih _ hfind hs hm.2
    exact ⟨media', hfind', hmail'.trans hmail, hcalls'.trans hcalls⟩

lemma delivered_close (h : e.find id = some p) (hs : p.state ≠ .connecting) (hm : messages.any isClose = true) :
    ∃ p', (e.delivered id messages).find id = some p' ∧ p'.ended = true := by
  induction messages generalizing e p with
  | nil => cases hm
  | cons m messages ih =>
    rw [delivered, List.foldl_cons, ← delivered]
    cases hc : isClose m with
    | true =>
      obtain ⟨p', hfind, he⟩ := deliver_close e h hc
      rw [delivered_ended _ messages hfind he]
      exact ⟨p', hfind, he⟩
    | false =>
      obtain ⟨media, hfind, -⟩ := deliver_quiet e h hs hc
      rw [List.any_cons, hc, Bool.false_or] at hm
      exact ih _ hfind hs hm

lemma delivered_opening (h : e.find id = some p) (hs : p.state = .connecting ∨ p.state = .connected) :
    ∃ p', (e.delivered id messages).find id = some p' ∧ (p'.state = .connecting ∨ p'.state = .connected) := by
  induction messages generalizing e p with
  | nil => exact ⟨p, h, hs⟩
  | cons m messages ih =>
    obtain ⟨p', hfind, hs'⟩ := deliver_opening e h hs m
    exact ih _ hfind hs'

lemma saysGoodbye_opening (hs : p.state = .connecting ∨ p.state = .connected) (now : TimePoint) :
    e.saysGoodbye id p now = false := by
  rcases hs with hs | hs <;> simp [saysGoodbye, hs]

lemma delivered_goodbye (h : e.find id = some p) (he : p.ended = false) (now : TimePoint) :
    ∃ p', (e.delivered id messages).find id = some p' ∧
      (!p'.ended && (e.delivered id messages).saysGoodbye id p' now) =
        (!messages.any isClose && e.saysGoodbye id p now) := by
  by_cases hs : p.state = .connecting ∨ p.state = .connected
  · obtain ⟨p', hfind, hs'⟩ := delivered_opening e messages h hs
    exact ⟨p', hfind, by rw [saysGoodbye_opening _ hs', saysGoodbye_opening _ hs, Bool.and_false, Bool.and_false]⟩
  push Not at hs
  cases hm : messages.any isClose with
  | true =>
    obtain ⟨p', hfind, he'⟩ := delivered_close e messages h hs.1 hm
    exact ⟨p', hfind, by rw [he']; rfl⟩
  | false =>
    obtain ⟨media, hfind, hmail, hcalls⟩ := delivered_quiet e messages h hs.1 hm
    have hsettle : ((e.delivered id messages).settle id).1 = (e.settle id).1 := by
      rw [settle, settle, lock, lock, hmail, hcalls]
    refine ⟨_, hfind, ?_⟩
    rw [saysGoodbye, saysGoodbye, hsettle, he]

lemma touched_advance (now : TimePoint) :
    (e.advance id now).mTouched = e.mTouched ++ if e.touches id now then [id] else [] := by
  rw [advance, touches]
  cases h : e.find id with
  | none => exact touched_of_still e (.refl e) rfl
  | some p =>
    rw [Option.any_some]
    dsimp only
    split
    · next he => exact touched_of_still e (.refl e) (by simp [he])
    next he =>
    split
    · next hf =>
      exact touched_of_still e ((still_report e id .lost).trans (still_endPeer _ id)) (by simp [hf])
    next hf =>
    have he : p.ended = false := by simpa using he
    have hlink : (e.putLink id (e.lend p).takeDelivered.2).find id =
        some { p with link := (e.lend p).takeDelivered.2 } := by rw [find_putLink, h]; rfl
    obtain ⟨p', hfind, hgoodbye⟩ := delivered_goodbye _ p.link.mDelivered hlink he now
    have hstill : Still e ((e.putLink id (e.lend p).takeDelivered.2).delivered id p.link.mDelivered) :=
      (still_putLink e id _).trans (.foldl (fun e m => still_deliver e id m) _ _)
    have hadvance := touched_advanceState _ hfind now
    rw [hgoodbye, hstill.touched] at hadvance
    refine hadvance.trans ?_
    simp only [he, hf, Bool.not_false, Bool.true_and]
    rfl

lemma touched_serve (now : TimePoint) :
    (serve now e id).mTouched = e.mTouched ++ if e.touches id now then [id] else [] := by
  rw [serve]
  split
  · next hn =>
    refine touched_of_still e (.refl e) ?_
    rw [touches, Option.isNone_iff_eq_none.mp hn]
    rfl
  · have hsent := still_sendAcks (e.advance id now) id
    have hdone : Still (e.advance id now) (if (((e.advance id now).sendAcks id).find id).any (!·.ended) then
        ((e.advance id now).sendAcks id).schedule id else (e.advance id now).sendAcks id) :=
      .ite (hsent.trans (still_schedule _ id)) hsent
    exact hdone.touched.trans (touched_advance e now)

lemma Kept.keys (h : Kept e e') : e'.mPeers.keys = e.mPeers.keys := by
  have hsorted := fun e : NetworkEngine => (Std.TreeMap.ordered_keys (t := e.mPeers)).imp Std.compare_eq_lt.mp
  refine List.Pairwise.eq_of_mem_iff (hsorted e') (hsorted e) fun id => ?_
  rw [Std.TreeMap.mem_keys, Std.TreeMap.mem_keys, ← Std.TreeMap.isSome_getElem?_iff_mem,
    ← Std.TreeMap.isSome_getElem?_iff_mem]
  exact Bool.eq_iff_iff.mp (h.peers id)

theorem loops_keep_containers (now : TimePoint) :
    ((serve now e id).mTouched = e.mTouched ↔ e.touches id now = false) ∧
      (e.settlePeer id).mTouched = e.mTouched ∧
      (shutdownPeer now e id).mPeers.keys = e.mPeers.keys ∧
      (e.pausePeer id).mPeers.keys = e.mPeers.keys ∧
      (serviceTimer now e id).mPeers.keys = e.mPeers.keys ∧
      (∀ reason, (endInPassing reason e id).mPeers.keys = e.mPeers.keys) ∧
      ∀ c, (apply now e c).mWork.commands = e.mWork.commands := by
  refine ⟨?_, (still_settlePeer e id).touched, (kept_shutdownPeer e id now).keys e, (kept_pausePeer e id).keys e,
    (kept_serviceTimer e id now).keys e, fun reason => (still_endInPassing e id reason).toKept.keys e, fun c => ?_⟩
  · rw [touched_serve]
    cases e.touches id now <;> simp
  · rw [work_apply]

namespace Observed

def unanswered : Observed :=
  [0, 4000, 8000, 12000, 16000, 20000, 24000, 28000].foldl (fun o millis => o.step
    { Sample.bound with channel := [.datagram Sample.there (Sample.firstPacket 2 1 9).bytes] }
      (Channel.fromMillis millis))
    { engine := .new { autoAccept := false, instanceId := 1 } 0 }

/-- When the time to answer is over, the loop over the touched peers appends to what it walks. -/
theorem advance_appends : (system anything).Reachable unanswered ∧
    (unanswered.engine.collect (Sample.calling []) DecisionTimeout).mTouched = [2] ∧
    (serve DecisionTimeout (unanswered.engine.collect (Sample.calling []) DecisionTimeout) 2).mTouched = [2, 2] :=
  ⟨reachable_foldl (reachable_new _ _) _ _ _, by decide +kernel, by decide +kernel⟩

end Observed

end NetLink.NetworkEngine
