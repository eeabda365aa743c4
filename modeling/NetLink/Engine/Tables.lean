import NetLink.Engine.Alive

/-! The tables of an engine agree with each other and with the mailbox. -/

namespace NetLink.Channel.Mailbox

lemma Entry.Mails.isSome {x y : Entry} (h : x.Mails y) : y.peer.isSome = x.peer.isSome ∧
    ((x.peer.isSome → x.session.isSome) → y.session.isSome = x.session.isSome) := by
  induction h with
  | refl => exact ⟨rfl, fun _ => rfl⟩
  | tail _ ho ih =>
    obtain ⟨hp, hs⟩ := ih
    cases ho with
    | enqueue p s lane mail ho hl => exact ⟨hp, hs⟩
    | shut p s =>
      have hp : true = _ := hp
      exact ⟨hp, fun hx => (hx hp.symm).symm⟩
    | stats p s stats => exact ⟨hp, hs⟩

lemma isSome_take (m : Mailbox) (id : PeerId) (lane : Lane) :
    ((m.take id lane).2.entry id).peer.isSome = (m.entry id).peer.isSome ∧
      ((m.take id lane).2.entry id).session = (m.entry id).session := by
  rw [take]
  split
  · exact ⟨rfl, rfl⟩
  next p hp =>
  split
  · exact ⟨rfl, rfl⟩
  · simp [entry, hp]

lemma isSome_settle (m : Mailbox) (id : PeerId) :
    ((m.settle id).2.entry id).peer.isSome = (m.entry id).peer.isSome ∧
      ((m.settle id).2.entry id).session = (m.entry id).session := by
  rw [settle]
  split
  · exact ⟨rfl, rfl⟩
  next p hp =>
  split
  · exact ⟨rfl, rfl⟩
  · simp [entry, hp]

end NetLink.Channel.Mailbox

namespace NetLink.NetworkEngine

open Channel (TimePoint ReliableLink Mailbox)
open Channel.Mailbox (Entry)

variable {T : Terms} {k : Stage} {e e' : NetworkEngine} {j : PeerId} {p p' : Peer} {x y : Entry}

def Peer.lingers (p : Peer) : Bool := p.state == .closing && p.closeSent

structure Peer.Published (p : Peer) (x : Entry) : Prop where
  closing : p.closeSent = true → p.state = .closing
  peer : p.ended = false → x.peer.isSome = p.transfersData
  session : p.ended = false → x.session.isSome = !p.lingers

structure Matched (j : PeerId) (e : NetworkEngine) : Prop where
  absent : e.find j = none → e.mMailbox.entry j = ⟨none, none⟩
  present : ∀ p, e.find j = some p → p.Published (e.mMailbox.entry j)

lemma Matched.of_some (hf : e.find j = some p) (hp : p.Published (e.mMailbox.entry j)) : Matched j e where
  absent hn := by simp [hn] at hf
  present q hq := by
    obtain rfl := Option.some.inj (hf.symm.trans hq)
    exact hp

lemma Matched.of_gone (h : e.Gone j) : Matched j e where
  absent _ := h.entry
  present p hp := by simp [h.find] at hp

lemma Matched.touch (h : Matched j e) (id : PeerId) : Matched j (e.touch id) := ⟨h.absent, h.present⟩

lemma Peer.Published.mails (h : p.Published x) (hm : x.Mails y) : p.Published y where
  closing := h.closing
  peer he := hm.isSome.1.trans (h.peer he)
  session he := by
    refine (hm.isSome.2 fun hp => ?_).trans (h.session he)
    have ht : p.transfersData = true := (h.peer he).symm.trans hp
    rw [h.session he]
    simp only [Peer.transfersData, Peer.lingers] at ht ⊢
    cases hs : p.state <;> cases hc : p.closeSent <;> simp_all

lemma Peer.Published.congr {x : Entry} (h : p.Published x) (hs : p'.state = p.state)
    (hc : p'.closeSent = p.closeSent) (he : p'.ended = p.ended) : p'.Published x where
  closing := by rw [hs, hc]; exact h.closing
  peer := by rw [Peer.transfersData, hs, hc, he]; exact h.peer
  session := by rw [Peer.lingers, hs, hc, he]; exact h.session

lemma Peer.Published.same (h : p.Published x) (hp : y.peer.isSome = x.peer.isSome)
    (hs : y.session = x.session) : p.Published y :=
  ⟨h.closing, fun he => hp.trans (h.peer he), fun he => hs ▸ h.session he⟩

lemma Peer.Published.finished (h : p.Published x) : ({ p with ended := true } : Peer).Published y :=
  ⟨h.closing, by simp, by simp⟩

lemma published_dismissed (message : Channel.OutboundMessage) (now : TimePoint) :
    (p.dismissed message now).Published ⟨none, none⟩ :=
  ⟨fun _ => rfl, fun _ => rfl, fun _ => rfl⟩

lemma published_connected {x : Entry} (h : p.Published x) (hs : p.state = .connecting) (m : Mailbox.Peer)
    (s : Mailbox.Session) :
    ({ p with state := .connected, announced := true, stateDeadline := none } : Peer).Published
      ⟨some m, some s⟩ where
  closing hc := absurd (h.closing hc) (by simp [hs])
  peer _ := rfl
  session _ := rfl

lemma Peer.Fresh.published {now : TimePoint} (h : p.Fresh e now) (s : Mailbox.Session) :
    p.Published ⟨none, some s⟩ where
  closing hc := by simp [h.closeSent] at hc
  peer _ := by rcases h.state with hs | hs <;> simp [Peer.transfersData, hs]
  session _ := by rcases h.state with hs | hs <;> simp [Peer.lingers, hs]

lemma Act.published (h : Act T k (some j) e e') (hf : e.find j = some p) (hp : p.Published (e.mMailbox.entry j)) :
    Matched j e' := by
  have hlink : ∀ f, Matched j (e.onLink j f) := fun f =>
    .of_some (find_onLink e hf f) (by rw [mailbox_onLink]; exact hp.congr rfl rfl rfl)
  have hpeek : ∀ lane, p.Published ((e.peek j lane).2.mMailbox.entry j) := by
    intro lane
    rcases mailbox_peek e j lane with hm | hm
    · rwa [hm]
    · rw [hm]
      have ht := Mailbox.isSome_take e.lock.mMailbox j lane
      exact (hp.mails (mails_lock e)).same ht.1 ht.2
  cases h with
  | report _ _ reason =>
    exact .of_some (find_report e hf reason) (by rw [mailbox_report]; exact hp.congr rfl rfl rfl)
  | note _ _ f hn =>
    have hv := hn.view p
    refine .of_some (find_modified e hf f) (hp.congr ?_ ?_ ?_)
    · exact congrArg SessionView.state hv
    · exact congrArg SessionView.closeSent hv
    · exact congrArg SessionView.ended hv
  | sendDecline _ _ q now =>
    refine .of_some (find_sendDecline e hf now) ?_
    have he : (e.sendDecline j now).mMailbox.entry j = ⟨none, none⟩ := entry_withMailbox_close _
    rw [he]
    exact published_dismissed _ now
  | sendClose _ _ q now =>
    refine .of_some (find_sendClose e hf now) ?_
    split
    · exact hp.finished
    · next hr =>
      rw [entry_sendClose e j now]
      exact published_dismissed _ now
  | erase => exact .of_gone (gone_erase e hf)
  | sendAccept _ _ q h hs =>
    obtain rfl := Option.some.inj (hf.symm.trans h)
    have hentry : p.ended = false → (e.sendAccept j).mMailbox.entry j = ⟨none, some .pending⟩ := by
      intro he
      have hn : (e.mMailbox.entry j).peer.isSome = false := by simp [hp.peer he, Peer.transfersData, hs]
      exact entry_publishSession (e.modifyPeer j _) (Option.isSome_eq_false_iff.mp hn |>
        Option.isNone_iff_eq_none.mp) .pending
    refine .of_some (find_sendAccept e hf) ⟨fun hc => absurd (hp.closing hc) (by simp [hs]), fun he =>
      ?_, fun he => ?_⟩
    · rw [hentry he]
      rfl
    · rw [hentry he]
      rfl
  | drain _ _ q now h hs =>
    obtain rfl := Option.some.inj (hf.symm.trans h)
    have hc : p.closeSent = false := by
      cases hc : p.closeSent with
      | false => rfl
      | true => simp [hp.closing hc] at hs
    refine .of_some (find_modified e hf _) ⟨fun _ => rfl, fun he => ?_, fun he => ?_⟩
    · refine (hp.peer he).trans ?_
      simp [Peer.transfersData, hs, hc]
    · refine (hp.session he).trans ?_
      simp [Peer.lingers, hs, hc]
  | openSession _ _ now h => simp [h] at hf
  | admitPeer _ origin hello crossing now h => simp [h] at hf
  | pause => exact (hlink _).touch j
  | timer => exact (hlink _).touch j
  | packet => exact (hlink _).touch j
  | overtaken _ _ q packet now h he hs =>
    obtain rfl := Option.some.inj (hf.symm.trans h)
    obtain ⟨epoch, hc⟩ := entry_setConnected e hf
    refine .of_some (find_onLink _ (find_setConnected e hf) _) ?_
    have hm : (((e.setConnected j).onLink j (·.onPacket packet now)).touch j).mMailbox.entry j = _ :=
      (congrArg (Mailbox.entry · j) (mailbox_onLink _ _)).trans hc
    rw [hm]
    exact (published_connected hp hs _ _).congr rfl rfl rfl
  | ready =>
    exact .of_some (find_modified e hf _) (hp.congr rfl rfl rfl)
  | endPeer => exact .of_some (find_endPeer e hf) hp.finished
  | call _ _ f => exact hlink f
  | setConnected _ _ q h he hs =>
    obtain rfl := Option.some.inj (hf.symm.trans h)
    obtain ⟨epoch, hc⟩ := entry_setConnected e hf
    refine .of_some (find_setConnected e hf) ?_
    rw [hc]
    exact published_connected hp hs _ _
  | settle =>
    have hs := Mailbox.isSome_settle e.lock.mMailbox j
    exact .of_some hf ((hp.mails (mails_lock e)).same hs.1 hs.2)
  | peek _ _ lane => exact .of_some (find_peek e hf lane) ((hpeek lane).congr rfl rfl rfl)
  | schedule _ _ lane =>
    have hadded : find { e with mScheduler := e.mScheduler.add lane j } j = some p := hf
    exact .of_some (find_setScheduled _ hadded lane true) (hp.congr rfl rfl rfl)
  | sendOne _ now lane =>
    refine .of_some (find_sendOne e hf now lane) ?_
    rw [mailbox_sendOne e hf]
    split <;> exact (hpeek lane).congr rfl rfl rfl

lemma Acts.matched (h : Acts T k e e') (hm : ∀ j, Matched j e) : ∀ j, Matched j e' := by
  refine h.keeps (fun e e' j he hm => ?_) (fun e j hg => .of_gone hg) (fun e e' j ha hm => ?_) hm
  · refine ⟨fun hn => ?_, fun p hp => ?_⟩
    · have hgone : e.Gone j := ⟨he.find ▸ hn, hm.absent (he.find ▸ hn)⟩
      exact (he.gone hgone).entry
    · exact (hm.present p (he.find ▸ hp)).mails he.mail
  · cases hf : e.find j with
    | none =>
      rcases ha.of_none hf with hn | ⟨-, now, -, ⟨p, hp, hfresh, -⟩, hentry, -⟩
      · exact .of_gone ⟨hn.find, by rw [hn.mailbox, hm.absent hf]⟩
      · obtain ⟨s, hs⟩ := hentry (congrArg Entry.peer (hm.absent hf))
        refine .of_some hp ?_
        rw [hs]
        exact hfresh.published s
    | some p => exact ha.published hf (hm.present p hf)

lemma entry_drain (m : Mailbox) : (m.drain.2.entry j).peer.isSome = (m.entry j).peer.isSome ∧
    (m.drain.2.entry j).session = (m.entry j).session := by
  have hfold : ∀ (ids : List PeerId) (peers : Std.TreeMap PeerId Mailbox.Peer),
      (ids.foldl (fun peers id => peers.modify id fun p => { p with listed := false }) peers)[j]?.isSome =
        peers[j]?.isSome := by
    intro ids
    induction ids with
    | nil => exact fun _ => rfl
    | cons id ids ih =>
      intro peers
      rw [List.foldl_cons, ih, Std.TreeMap.getElem?_modify]
      split
      · next hid =>
        have hid : id = j := by simpa using hid
        rw [hid, Option.isSome_map]
      · rfl
  exact ⟨hfold m.mReady m.mPeers, rfl⟩

structure Consistent (e : NetworkEngine) : Prop where
  alive : e.Alive
  matched : ∀ j, Matched j e
  running : ∀ j p, e.find j = some p → p.ended = false

lemma entry_beginStep (e : NetworkEngine) (world : World) (j : PeerId) : ∃ y, (e.mMailbox.entry j).Mails y ∧
    ((e.beginStep world).mMailbox.entry j).peer.isSome = y.peer.isSome ∧
    ((e.beginStep world).mMailbox.entry j).session = y.session := by
  let opened : NetworkEngine := { e with
    world := world
    mSocketFailed := e.mSocketFailed || world.waitFailed
    mTouched := e.mAcksHeldBack
    mAcksHeldBack := [] }
  obtain ⟨hp, hs⟩ := entry_drain (j := j) opened.lock.mMailbox
  exact ⟨opened.lock.mMailbox.entry j, mails_lock opened, hp, hs⟩

lemma Consistent.beginStep (h : Consistent e) (world : World) :
    (∀ j, Matched j (e.beginStep world)) ∧ ∀ j, Listed j (e.beginStep world) := by
  refine ⟨fun j => ?_, fun j p hp he => ?_⟩
  · obtain ⟨y, hm, hp, hs⟩ := entry_beginStep e world j
    refine ⟨fun hn => ?_, fun p hf => (((h.matched j).present p hf).mails hm).same hp hs⟩
    have hn : e.find j = none := hn
    rw [(h.matched j).absent hn] at hm
    obtain rfl := Entry.mails_none hm
    cases hx : (e.beginStep world).mMailbox.entry j with
    | mk peer session =>
      rw [hx] at hp hs
      have hp : peer = none := by simpa using hp
      have hs : session = none := hs
      rw [hp, hs]
  · have hp : e.find j = some p := hp
    simp [h.running j p hp] at he

lemma find_eraseEnded (id : PeerId) (j : PeerId) : (e.eraseEnded id).find j = e.find j ∨
    (e.eraseEnded id).find j = none := by
  rw [eraseEnded]
  split
  · by_cases hj : id = j
    · rw [hj]
      exact .inr (find_erase e)
    · exact .inl (elsewhere_erase e hj).find
  · exact .inl rfl

lemma running_eraseEnded (ids : List PeerId) (hl : ∀ j p, e.find j = some p → p.ended = true → j ∈ ids) :
    ∀ j p, (ids.foldl eraseEnded e).find j = some p → p.ended = false := by
  induction ids generalizing e with
  | nil =>
    intro j p hp
    cases he : p.ended with
    | false => rfl
    | true => exact absurd (hl j p hp he) (by simp)
  | cons id ids ih =>
    refine ih fun j p hp he => ?_
    rcases find_eraseEnded (e := e) id j with hf | hf
    · rw [hf] at hp
      rcases List.mem_cons.mp (hl j p hp he) with rfl | hm
      · rw [eraseEnded, if_pos (by simp [hp, he]), find_erase, hp] at hf
        cases hf
      · exact hm
    · simp [hf] at hp

lemma find_finishStep (now : TimePoint) (j : PeerId) : (e.finishStep now).find j = e.find j := by
  rw [finishStep, find]
  dsimp only
  split <;> rfl

lemma Consistent.round (h : Consistent e) (hs : Sound e.view) (world : World) (now : TimePoint) :
    Consistent (e.round world now) := by
  obtain ⟨hmatched, hlisted⟩ := h.beginStep world
  have hcollect : Acts .all .collect (e.beginStep world) (e.collect world now) :=
    acts_collect e world now hs
  have hserved : Acts .all .serve (e.collect world now) (e.served world now) := acts_served e world now hs h.alive
  have hmatched := hserved.matched (hcollect.matched hmatched)
  have hlisted := hserved.listed (hcollect.listed hlisted)
  refine ⟨alive_round e world now hs h.alive, ?_, fun j p hp => ?_⟩
  · have hmatched : ∀ j, Matched j { e.served world now with mEnded := [] } :=
      fun j => ⟨(hmatched j).absent, (hmatched j).present⟩
    exact ((acts_swept (T := .all) _).trans (acts_finishStep _ now)).matched hmatched
  · rw [round_eq, find_finishStep] at hp
    exact running_eraseEnded (e := { e.served world now with mEnded := [] }) _ hlisted j p hp

lemma Consistent.takeBatch (h : Consistent e) : Consistent e.takeBatch.2 :=
  ⟨h.alive, fun j => ⟨(h.matched j).absent, (h.matched j).present⟩, h.running⟩

namespace Observed

variable {o : Observed}

lemma sound (hr : (system anything).Reachable o) : Sound o.engine.view :=
  (invariant (Γ := .any) (P := fun _ => True) (fun e world now _ => lawful_any e world now) (fun _ _ => trivial)
    (fun _ _ _ _ _ => trivial) (fun _ _ => trivial) hr).1

lemma consistent (hr : (system anything).Reachable o) : Consistent o.engine := by
  refine hr.invariant (P := fun o => Consistent o.engine) ?_ ?_
  · rintro o ⟨config, drawn, rfl⟩
    have hnone : ∀ j, (NetworkEngine.new config drawn).find j = none := fun j => by simp [NetworkEngine.new, find]
    refine ⟨fun j p hp => ?_, fun j => .of_gone ⟨hnone j, ?_⟩, fun j p hp => ?_⟩
    · simp [hnone] at hp
    · simp [NetworkEngine.new, Mailbox.entry]
    · simp [hnone] at hp
  · rintro o o' hr hc ⟨world, now, -, rfl⟩
    exact (hc.round (sound hr) world now).takeBatch

def Holds (o : Observed) (id : PeerId) (P : Peer → Prop) : Prop :=
  ∃ p, o.engine.mPeers[id]? = some p ∧ p.ended = false ∧ P p

lemma holds_iff (hr : (system anything).Reachable o) {id : PeerId} {b : Bool} {f : Peer → Bool}
    (hn : o.engine.find id = none → b = false) (hs : ∀ p, o.engine.find id = some p → b = f p) :
    b = true ↔ o.Holds id fun p => f p = true := by
  constructor
  · intro hb
    cases hf : o.engine.find id with
    | none => simp [hn hf] at hb
    | some p => exact ⟨p, hf, (consistent hr).running id p hf, (hs p hf).symm.trans hb⟩
  · rintro ⟨p, hf, -, hp⟩
    exact (hs p hf).trans hp

theorem tables_agree (hr : (system anything).Reachable o) (calls : List Mailbox.Call) :
    (∀ x id, o.engine.mByStream[x]? = some id ↔
      ∃ p : Peer, o.engine.mPeers[id]? = some p ∧ p.link.mLocalStreamID = x) ∧
    (∀ id, id ∈ (calls.foldl Mailbox.call o.engine.mMailbox).mPeers ↔ o.Holds id fun p => p.transfersData = true) ∧
    (∀ id, id ∈ (calls.foldl Mailbox.call o.engine.mMailbox).mSessions ↔
      o.Holds id fun p => ¬(p.state = .closing ∧ p.closeSent = true)) ∧
    (o.engine.mIoSocket = none → ∀ id, id ∉ o.engine.mPeers) := by
  have hsound := sound hr
  have hmatched : ∀ id, (o.engine.find id = none →
        (calls.foldl Mailbox.call o.engine.mMailbox).entry id = ⟨none, none⟩) ∧
      ∀ p, o.engine.find id = some p → p.Published ((calls.foldl Mailbox.call o.engine.mMailbox).entry id) := by
    intro id
    have hm := (consistent hr).matched id
    have hcalls := Mailbox.mails_calls o.engine.mMailbox id calls
    refine ⟨fun hn => ?_, fun p hp => (hm.present p hp).mails hcalls⟩
    rw [hm.absent hn] at hcalls
    exact Entry.mails_none hcalls
  refine ⟨fun x id => ⟨fun hx => ?_, ?_⟩, fun id => ?_, fun id => ?_, fun hb id hid => ?_⟩
  · obtain ⟨s, hs, hl⟩ := hsound.routed x id hx
    obtain ⟨p, hp, rfl⟩ := Option.map_eq_some_iff.mp hs
    exact ⟨p, hp, hl⟩
  · rintro ⟨p, hp, rfl⟩
    exact hsound.routes id p.view (sessions_view _ hp)
  · rw [← Std.TreeMap.isSome_getElem?_iff_mem]
    refine holds_iff hr (fun hn => ?_) fun p hp => ?_
    · exact congrArg (·.peer.isSome) ((hmatched id).1 hn)
    · exact ((hmatched id).2 p hp).peer ((consistent hr).running id p hp)
  · rw [← Std.TreeMap.isSome_getElem?_iff_mem]
    have hlingers : ∀ p : Peer, (!p.lingers) = true ↔ ¬(p.state = .closing ∧ p.closeSent = true) := by
      simp [Peer.lingers, imp_iff_not_or]
    simp only [← hlingers]
    refine holds_iff hr (fun hn => ?_) fun p hp => ?_
    · exact congrArg (·.session.isSome) ((hmatched id).1 hn)
    · exact ((hmatched id).2 p hp).session ((consistent hr).running id p hp)
  · have hn : o.engine.mPeers[id]? = none := Option.map_eq_none_iff.mp (hsound.bound hb id)
    rw [← Std.TreeMap.isSome_getElem?_iff_mem, hn] at hid
    cases hid

def greeted : Observed :=
  (({ engine := .new {} 1 } : Observed).step Sample.bound 0).step
    { localInterface := some {}, channel := [.datagram Sample.there (Sample.firstPacket 2 1 7).bytes] } 1

theorem tables_agree_greeted : greeted.engine.mMailbox.mSessions.contains 2 = true ∧
    greeted.Holds 2 fun p => ¬(p.state = .closing ∧ p.closeSent = true) := by
  have hr : (system anything).Reachable greeted :=
    reachable_step (reachable_step (reachable_new {} 1) trivial) trivial
  have hs : greeted.engine.mMailbox.mSessions.contains 2 = true := by decide +kernel
  exact ⟨hs, ((tables_agree hr []).2.2.1 2).mp hs⟩

end Observed

end NetLink.NetworkEngine
