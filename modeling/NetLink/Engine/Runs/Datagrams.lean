import NetLink.Engine.Runs.Interface

/-! Datagrams, as runs of moves. -/

namespace NetLink.NetworkEngine

open Net (SocketAddress)
open Channel (TimePoint ReliableLink Packet decodePacket)

variable {Γ : Rules} (e : NetworkEngine) {id : PeerId} {p : Peer} {origin : SocketAddress} {packet : Packet}
  {hello : Session.Hello} {d : SocketAddress × List UInt8}

lemma Routes_congr {v w : View} {s t : SessionView} (h : v.Routes id s packet) (hr : w.route = v.route)
    (hs : t.link.mRemoteStreamID = s.link.mRemoteStreamID) : w.Routes id t packet := by
  rw [View.Routes, hr, hs]
  exact h

lemma reaches_onPacket (h : e.find id = some p) (hi : Γ.incoming p.address packet)
    (hr : e.view.Routes id p.view packet) (now : TimePoint) :
    Reaches Γ e (e.onLink id (·.onPacket packet now)) := by
  intro _
  rw [view_onLink e h]
  refine (run_lend (sessions_view e h) e.mAssemblyBudget).tail ?_
  have hm := Move.packet (Γ := Γ) id (p.view.withLink (e.lend p)) packet now (View.sessions_set e.view id _) hi
    (Routes_congr hr rfl rfl)
  rwa [View.set_set] at hm

lemma find_hear (h : e.find id = some p) (packet : Packet) :
    (e.hear id packet).find id = some { p with heard := p.heard ++ [packet] } := by
  rw [hear, find_modifyPeer_self, h, Option.map_some]

lemma view_hear (id : PeerId) (packet : Packet) : (e.hear id packet).view = e.view :=
  view_modifyPeer_same e id _ fun _ => rfl

lemma reaches_receive (h : e.find id = some p) (hi : Γ.incoming origin packet)
    (hr : e.view.Routes id p.view packet) (now : TimePoint) : Reaches Γ e (e.receive id origin packet now) := by
  have hheard : Reaches Γ e (e.hear id packet) := .of_view (view_hear e id packet)
  have hfind := find_hear e h packet
  have hsession : (e.hear id packet).view.sessions id = some p.view := by rw [view_hear, sessions_view e h]
  have hr : (e.hear id packet).view.Routes id p.view packet := by rwa [view_hear]
  simp only [receive, h]
  split
  · exact .refl e
  next hp =>
  have hp : p.ended = false ∧ p.address = origin := by simpa using hp
  obtain ⟨he, rfl⟩ := hp
  split
  · next hl =>
    split
    · exact .refl e
    next ha =>
    simp only [not_or, not_not, Bool.not_eq_true', Bool.not_eq_false, Bool.not_eq_true] at ha
    obtain ⟨hs, hn, ha⟩ := ha
    have hconnected : Reaches Γ (e.hear id packet) ((e.hear id packet).setConnected id) := by
      apply Reaches.of_move
      rw [view_setConnected _ hfind]
      exact .overtaken id p.view packet p.info hsession hi hr hl.1 hs hn ha he
    refine ((hheard.trans hconnected).trans (reaches_onPacket _ (find_setConnected _ hfind) hi ?_ now)).then_view
      rfl
    rw [view_setConnected _ hfind]
    exact Routes_congr hr rfl rfl
  · exact (hheard.trans (reaches_onPacket _ hfind hi hr now)).then_view rfl

lemma lane_of_isFirstPacket (h : isFirstPacket packet = true) : packet.header.flags.lane = .control := by
  simp only [isFirstPacket, Bool.and_eq_true, beq_iff_eq] at h
  exact h.1.1.1.2

lemma view_receive_first (h : e.find id = some p) (he : p.ended = false) (ha : p.address = origin)
    (hf : isFirstPacket packet = true) (now : TimePoint) :
    (e.receive id origin packet now).view = e.view.set id (p.view.withLink ((e.lend p).onPacket packet now)) := by
  have hl := lane_of_isFirstPacket hf
  simp only [receive, h, he, ha, bne_self_eq_false, Bool.or_false, Bool.false_eq_true, if_false, hl, ne_eq,
    not_true_eq_false, false_and]
  refine (view_onLink _ (find_hear e h packet) _).trans ?_
  rw [view_hear]
  rfl

lemma view_receive_admitted {opened : NetworkEngine} {s : SessionView} {l : ReliableLink} {ms : List Mark}
    (hv : opened.view = (e.view.openSession id s).log ms) (h : opened.find id = some p) (hp : p.view = s)
    (he : p.ended = false) (ha : p.address = origin) (hf : isFirstPacket packet = true) (hl : opened.lend p = l)
    (now : TimePoint) : (opened.receive id origin packet now).view =
      (e.view.openSession id (s.withLink (l.onPacket packet now))).log ms := by
  rw [view_receive_first _ h he ha hf, hv, View.set_log, hl, hp, View.set_openSession]
  subst hl hp
  exact ReliableLink.local_onPacket packet now

def admitted (e : NetworkEngine) (origin : SocketAddress) (hello : Session.Hello) (now : TimePoint) : Peer :=
  { info := helloInfo origin hello, address := origin, link := e.newLink now }

lemma find_admitted (hello : Session.Hello) (now : TimePoint) :
    (e.addPeer (helloInfo origin hello) origin true now).find hello.fromInstance =
      some (e.admitted origin hello now) :=
  find_addPeer e (helloInfo origin hello) origin true now

variable (origin) in
lemma find_admitting (hello : Session.Hello) (now : TimePoint) (f : Peer → Peer) :
    ((e.addPeer (helloInfo origin hello) origin true now).modifyPeer hello.fromInstance f).find
      hello.fromInstance =
      some (f (e.admitted origin hello now)) := by
  rw [find_modifyPeer_self, find_admitted, Option.map_some]

variable (origin) in
lemma view_admitting (hello : Session.Hello) (now : TimePoint) (f : Peer → Peer) (hf : ∀ p, (f p).link = p.link) :
    ((e.addPeer (helloInfo origin hello) origin true now).modifyPeer hello.fromInstance f).view =
      (e.view.openSession hello.fromInstance (f (e.admitted origin hello now)).view).log
      [.opened hello.fromInstance (e.newLink now).mLocalStreamID true] := by
  rw [view_modifyPeer _ (find_admitted e hello now), view_addPeer, View.set_log]
  congr 1
  apply View.set_openSession
  exact congrArg ReliableLink.mLocalStreamID (hf _)

variable (origin) in
lemma view_admit_accepted (hello : Session.Hello) (crossing : Bool)
    (hc : (crossing || e.mConfig.autoAccept) = true) (hf : isFirstPacket packet = true)
    (now : TimePoint) : ∃ l m, Newborn l ∧
      l.mLocalStreamID = e.drawStreamID.1 ∧ Follows m ∧
      ((e.admitPeer origin hello crossing now).receive hello.fromInstance origin packet now).view =
        (e.view.openSession hello.fromInstance
          ({ newcomer origin l packet now with announced := crossing }.accepted m)).log
          [.opened hello.fromInstance l.mLocalStreamID true, .acceptQueued hello.fromInstance] := by
  have hc : (crossing || (e.addPeer (helloInfo origin hello) origin true now).mConfig.autoAccept) = true := hc
  rw [admitPeer]
  dsimp only
  rw [if_pos hc]
  have hfind := find_admitting e origin hello now fun peer => { peer with announced := crossing }
  have hview := view_admitting e origin hello now (fun peer => { peer with announced := crossing })
    fun _ => rfl
  rw [← view_withMailbox _ (·.publishSession hello.fromInstance .pending)] at hview
  rw [← find_withMailbox _ (·.publishSession hello.fromInstance .pending)] at hfind
  refine ⟨_, _, newborn_newLink e now _, (newLink_eq e now).1, follows_accept _,
    view_receive_admitted e ?_ (find_sendAccept _ hfind) rfl rfl rfl hf rfl now⟩
  rw [view_sendAccept _ hfind, hview, View.set_log, View.log_log, View.set_openSession]
  · rfl
  · rfl

variable (origin) in
lemma view_admit_asked (hello : Session.Hello) (hc : e.mConfig.autoAccept = false)
    (hf : isFirstPacket packet = true) (now : TimePoint) : ∃ l info, Newborn l ∧
      l.mLocalStreamID = e.drawStreamID.1 ∧
      ((e.admitPeer origin hello false now).receive hello.fromInstance origin packet now).view =
        (e.view.openSession hello.fromInstance
          { newcomer origin l packet now with state := .awaitingDecision, announced := true }).log
          [.opened hello.fromInstance l.mLocalStreamID true, requestMark hello.fromInstance info] := by
  have hauto : (e.addPeer (helloInfo origin hello) origin true now).mConfig.autoAccept = false := hc
  have hfind := find_admitting e origin hello now fun peer =>
    { peer with state := .awaitingDecision, stateDeadline := some (now + DecisionTimeout), announced := true }
  have hview := view_admitting e origin hello now (fun peer =>
    { peer with state := .awaitingDecision, stateDeadline := some (now + DecisionTimeout), announced := true })
    fun _ => rfl
  rw [admitPeer]
  dsimp only
  rw [hauto, if_neg (by decide)]
  rw [← find_withMailbox _ (·.publishSession hello.fromInstance .requested), ← find_emit] at hfind
  generalize hopened :
    (((e.addPeer (helloInfo origin hello) origin true now).modifyPeer hello.fromInstance fun peer =>
    { peer with
      state := .awaitingDecision, stateDeadline := some (now + DecisionTimeout), announced := true }).withMailbox
      (·.publishSession hello.fromInstance .requested)).emit
      { kind := .connectionRequest, peer := hello.fromInstance, info := helloInfo origin hello } = opened
  rw [hopened] at hfind
  refine ⟨{ e.newLink now with mBudget := some opened.mAssemblyBudget }, helloInfo origin hello,
    newborn_newLink e now _, (newLink_eq e now).1, view_receive_admitted e ?_ hfind rfl rfl rfl hf rfl now⟩
  rw [← hopened, view_emit, view_withMailbox, hview, View.log_log]
  rfl

def knowsLink (e : NetworkEngine) (origin : SocketAddress) (packet : Packet) : Bool :=
  e.mPeers.toList.any fun entry =>
    entry.2.address == origin && entry.2.link.mRemoteStreamID == some packet.header.srcStreamID

def newHello (e : NetworkEngine) (origin : SocketAddress) (packet : Packet) : Option Session.Hello :=
  if packet.header.dstStreamID = 0 ∧ isFirstPacket packet = true ∧ e.knowsLink origin packet = false then
    (Session.decodeHello packet.body).filter fun hello => !e.rejectsHello origin hello
  else none

def meetHello (e : NetworkEngine) (origin : SocketAddress) (now : TimePoint) (hello : Session.Hello) :
    Option PeerId × NetworkEngine :=
  match e.makeWay hello.fromInstance with
  | none => (none, e)
  | some (crossing, e) =>
    if e.isFull then (none, e) else (some hello.fromInstance, e.admitPeer origin hello crossing now)

def answerHello (e : NetworkEngine) (origin : SocketAddress) (packet : Packet) (now : TimePoint)
    (hello : Session.Hello) : NetworkEngine :=
  match e.makeWay hello.fromInstance with
  | none => e
  | some (crossing, e) =>
    if e.isFull then e else (e.admitPeer origin hello crossing now).receive hello.fromInstance origin packet now

lemma find_of_mem_toList {entry : PeerId × Peer} (h : entry ∈ e.mPeers.toList) : e.find entry.1 = some entry.2 :=
  Std.TreeMap.mem_toList_iff_getElem?_eq_some.mp h

lemma onHello_cases (origin : SocketAddress) (packet : Packet) (now : TimePoint) :
    e.newHello origin packet = none ∧ (e.onHello origin packet now = (none, e) ∨
      ∃ id p, e.find id = some p ∧ p.link.mRemoteStreamID = some packet.header.srcStreamID ∧
        e.onHello origin packet now = (some id, e)) ∨
    (packet.header.dstStreamID = 0 → isFirstPacket packet = true →
      ∃ hello, e.newHello origin packet = some hello ∧
        e.onHello origin packet now = e.meetHello origin now hello) := by
  rw [onHello, newHello, knowsLink]
  dsimp only
  cases hk : e.mPeers.toList.find? fun entry =>
    entry.2.address == origin && entry.2.link.mRemoteStreamID == some packet.header.srcStreamID with
  | some entry =>
    have hknown := List.find?_some hk
    refine .inl ⟨if_neg fun h => ?_, .inr ⟨entry.1, entry.2, ?_, ?_, rfl⟩⟩
    · exact List.any_eq_false.mp h.2.2 entry (List.mem_of_find?_eq_some hk) hknown
    · exact find_of_mem_toList e (List.mem_of_find?_eq_some hk)
    · simp only [Bool.and_eq_true, beq_iff_eq] at hknown
      exact hknown.2
  | none =>
    cases hello : Session.decodeHello packet.body with
    | none => exact .inl ⟨by split <;> rfl, .inl rfl⟩
    | some hello' =>
      dsimp only
      by_cases hr : e.rejectsHello origin hello' = true
      · rw [if_pos hr]
        exact .inl ⟨by split <;> simp [hr], .inl rfl⟩
      · refine .inr fun hd hf => ⟨hello', ?_, ?_⟩
        · rw [if_pos ⟨hd, hf, List.any_eq_false.mpr (List.find?_eq_none.mp hk)⟩]
          simp [hr]
        · rw [if_neg hr]
          rfl

lemma onHello_of_newHello (h : e.newHello origin packet = some hello) (now : TimePoint) :
    e.onHello origin packet now = e.meetHello origin now hello := by
  have hfirst : packet.header.dstStreamID = 0 ∧ isFirstPacket packet = true := by
    rw [newHello] at h
    split at h
    next hc => exact ⟨hc.1, hc.2.1⟩
    next => cases h
  rcases onHello_cases e origin packet now with ⟨hn, -⟩ | hnew
  · rw [h] at hn
    cases hn
  · obtain ⟨hello', hn, he⟩ := hnew hfirst.1 hfirst.2
    rw [he, Option.some.inj (h.symm.trans hn)]

lemma handleHello_cases (hd : packet.header.dstStreamID = 0) (hf : isFirstPacket packet = true) (now : TimePoint) :
    e.handlePacket origin packet now = e ∨
    (∃ id p, e.find id = some p ∧ e.view.Routes id p.view packet ∧
      e.handlePacket origin packet now = e.receive id origin packet now) ∨
    ∃ hello, e.newHello origin packet = some hello ∧
      e.handlePacket origin packet now = e.answerHello origin packet now hello := by
  rw [handlePacket, route, if_pos hd, if_pos hf]
  rcases onHello_cases e origin packet now with ⟨-, he | ⟨id, p, hp, hremote, he⟩⟩ | hnew
  · rw [he]
    exact .inl rfl
  · refine .inr (.inl ⟨id, p, hp, ?_, by rw [he]⟩)
    rw [View.Routes, if_pos hd]
    exact ⟨hf, hremote⟩
  · obtain ⟨hello, hn, he⟩ := hnew hd hf
    refine .inr (.inr ⟨hello, hn, ?_⟩)
    rw [he, meetHello, answerHello]
    cases e.makeWay hello.fromInstance with
    | none => rfl
    | some way => by_cases hfull : way.2.isFull = true <;> simp only [hfull, if_true, if_false, Bool.false_eq_true]

lemma handlePacket_cases (origin : SocketAddress) (packet : Packet) (now : TimePoint) :
    e.handlePacket origin packet now = e ∨
    (∃ id p, e.find id = some p ∧ e.view.Routes id p.view packet ∧
      e.handlePacket origin packet now = e.receive id origin packet now) ∨
    ∃ hello, e.newHello origin packet = some hello ∧
      e.handlePacket origin packet now = e.answerHello origin packet now hello := by
  by_cases hd : packet.header.dstStreamID = 0
  · by_cases hf : isFirstPacket packet = true
    · exact handleHello_cases e hd hf now
    · left
      rw [handlePacket, route, if_pos hd, if_neg hf]
  · cases hid : e.mByStream[packet.header.dstStreamID]? with
    | none =>
      left
      rw [handlePacket, route, if_neg hd, hid]
    | some id =>
      have hpacket : e.handlePacket origin packet now = e.receive id origin packet now := by
        rw [handlePacket, route, if_neg hd, hid]
      cases h : e.find id with
      | none =>
        left
        rw [hpacket, receive, h]
      | some p =>
        refine .inr (.inl ⟨id, p, h, ?_, hpacket⟩)
        rw [View.Routes, if_neg hd]
        exact hid

lemma hails_of_newHello (h : e.newHello origin packet = some hello)
    (hb : e.mIoSocket.isSome) :
    e.view.Hails origin hello.fromInstance packet := by
  rw [newHello] at h
  split at h
  swap
  · simp at h
  next hc =>
  obtain ⟨hd, hf, hk⟩ := hc
  rw [Option.filter_eq_some_iff, Bool.not_eq_true'] at h
  obtain ⟨hello', hr⟩ := h
  simp only [rejectsHello, Bool.or_eq_false_iff, bne_eq_false_iff_eq] at hr
  refine ⟨hr.1.1.1.1.1.1.1, hb, hd, hf, ⟨hello, hello', rfl, hr.1.1.1.1.1.1.2⟩, ?_⟩
  intro j s hs ha hx
  obtain ⟨p, hp, rfl⟩ := Option.map_eq_some_iff.mp hs
  rw [knowsLink, List.any_eq_false] at hk
  refine hk (j, p) (Std.TreeMap.mem_toList_iff_getElem?_eq_some.mpr hp) ?_
  simp only [Bool.and_eq_true, beq_iff_eq]
  exact ⟨ha, hx⟩

lemma View.Hails.drop {v : View} (h : v.Hails origin id packet) (j : PeerId) (ms : List Mark) :
    ((v.drop j).log ms).Hails origin id packet := by
  have hsub : ∀ k s, (v.drop j).sessions k = some s → v.sessions k = some s := by
    intro k s hs
    by_cases hk : k = j
    · simp [hk] at hs
    · rwa [View.sessions_drop_of_ne v j hk] at hs
  have heq := v.drop_eq j
  refine ⟨?_, ?_, h.dst, h.first, ?_, fun k s hs => h.unknown k s (hsub k s hs)⟩
  · rw [View.log, heq]
    exact h.running
  · rw [View.log, heq]
    exact h.bound
  · rw [View.log, heq]
    exact h.hello

lemma size_lt_of_not_isFull (h : e.isFull = false) : e.mPeers.size < MaxPeers := by
  simp only [isFull, Bool.or_eq_false_iff, decide_eq_false_iff_not] at h
  exact Nat.lt_of_not_le h.1

lemma reaches_admitPeer (hh : e.view.Hails origin hello.fromInstance packet)
    (hn : e.view.sessions hello.fromInstance = none) (hi : Γ.incoming origin packet) (hf : e.isFull = false)
    (now : TimePoint) :
    Reaches Γ e ((e.admitPeer origin hello false now).receive hello.fromInstance origin packet now) := by
  intro hs
  have hx : e.view.route e.drawStreamID.1 = none := drawStreamID_free e hs (size_lt_of_not_isFull e hf)
  refine Relation.ReflTransGen.single ?_
  cases ha : e.mConfig.autoAccept with
  | true =>
    obtain ⟨l, m, hl, hd, hm, hv⟩ := view_admit_accepted e origin hello false (by simp [ha])
      hh.first now
    rw [hv]
    exact .welcomed origin _ packet l now m hm hi hh hl hn ha (by rwa [hd])
  | false =>
    obtain ⟨l, info, hl, hd, hv⟩ := view_admit_asked e origin hello ha hh.first now
    rw [hv]
    exact .asked origin _ packet l now info hi hh hl hn ha (by rwa [hd])

lemma reaches_crossed (hh : e.view.Hails origin hello.fromInstance packet)
    (h : e.find hello.fromInstance = some p) (hs : p.view.Asks) (hi : Γ.incoming origin packet)
    (hd : p.ended = true → Γ.crossesEnded) (hf : (e.erase hello.fromInstance).isFull = false) (now : TimePoint) :
    Reaches Γ e
      (((e.erase hello.fromInstance).admitPeer origin hello true now).receive hello.fromInstance origin
        packet now) := by
  intro hsound
  have hdropped : Sound (e.erase hello.fromInstance).view := by
    rw [view_erase]
    exact hsound.drop _
  have hx : (e.erase hello.fromInstance).view.route (e.erase hello.fromInstance).drawStreamID.1 = none :=
    drawStreamID_free _ hdropped (size_lt_of_not_isFull _ hf)
  refine Relation.ReflTransGen.single ?_
  obtain ⟨l, m, hl, hl', hm, hv⟩ := view_admit_accepted (e.erase hello.fromInstance) origin hello
    true (Bool.true_or _) hh.first now
  rw [← hl', view_erase] at hx
  rw [hv, view_erase]
  exact .crossed origin _ p.view packet l now m hm hi hh hl (sessions_view e h) hs hd hx

def Permits (Γ : Rules) (e : NetworkEngine) (id : PeerId) : Prop :=
  ∀ p, e.find id = some p → p.view.Asks → ¬e.mId > id →
    (p.ended = true → Γ.crossesEnded) ∧ ((e.erase id).isFull = true → Γ.refusesCrossing)

lemma view_replaced (h : e.find id = some p) (reason : DisconnectReason) :
    ((e.report id reason).erase id).view = (e.view.drop id).log (p.view.farewell id reason) := by
  rw [view_erase, view_report e h, View.drop_log, View.drop_set _ _ _ _ (sessions_view e h) (by rfl)]

lemma reaches_answerHello (h : e.newHello origin packet = some hello)
    (hb : e.mIoSocket.isSome) (hi : Γ.incoming origin packet) (hx : Permits Γ e hello.fromInstance)
    (now : TimePoint) : Reaches Γ e (e.answerHello origin packet now hello) := by
  have hh := hails_of_newHello e h hb
  rw [answerHello, makeWay]
  cases hp : e.find hello.fromInstance with
  | none =>
    dsimp only
    split
    · exact .refl e
    · next hf => exact reaches_admitPeer e hh (sessions_view_none e hp) hi (by simpa using hf) now
  | some p =>
    dsimp only
    by_cases hs : p.state = .connecting ∧ p.initiator = true
    · rw [if_pos hs]
      by_cases hlt : e.mId > hello.fromInstance
      · rw [if_pos hlt]
        exact .refl e
      · obtain ⟨hd, hq⟩ := hx p hp hs hlt
        rw [if_neg hlt]
        dsimp only
        split
        · next hfull =>
          apply Reaches.of_move
          rw [view_erase]
          exact .lostCrossing _ p.view (sessions_view e hp) hs (hq hfull)
        · next hf => exact reaches_crossed e hh hp hs hi hd (by simpa using hf) now
    · rw [if_neg hs]
      have hview := view_replaced e hp .lost
      have hgone : Reaches Γ e ((e.report hello.fromInstance .lost).erase hello.fromInstance) := by
        apply Reaches.of_move
        rw [hview]
        exact .dropTold _ p.view .lost (sessions_view e hp)
      dsimp only
      split
      · exact hgone
      next hf =>
      refine hgone.trans (reaches_admitPeer _ ?_ ?_ hi (by simpa using hf) now)
      · rw [hview]
        exact hh.drop _ _
      · rw [hview, View.sessions_log, View.sessions_drop_self]

def crossedBy (e : NetworkEngine) (d : SocketAddress × List UInt8) : Option PeerId :=
  if Discovery.isBeacon d.2 then none
  else
    (((decodePacket d.2).bind (e.newHello d.1)).map (·.fromInstance)).filter fun id =>
      (e.find id).any (fun peer => peer.state == .connecting && peer.initiator) && !decide (e.mId > id)

def CrossesEnded (e : NetworkEngine) (d : SocketAddress × List UInt8) : Prop :=
  (e.crossedBy d).any fun id => (e.find id).any (·.ended)

def RefusesCrossing (e : NetworkEngine) (d : SocketAddress × List UInt8) : Prop :=
  (e.crossedBy d).any fun id => (e.erase id).isFull

instance (e : NetworkEngine) (d : SocketAddress × List UInt8) : Decidable (e.CrossesEnded d) :=
  inferInstanceAs (Decidable (_ = true))

instance (e : NetworkEngine) (d : SocketAddress × List UInt8) : Decidable (e.RefusesCrossing d) :=
  inferInstanceAs (Decidable (_ = true))

def Carries (incoming : SocketAddress → Packet → Prop) (d : SocketAddress × List UInt8) : Prop :=
  Discovery.isBeacon d.2 = false → ∀ packet, decodePacket d.2 = some packet → incoming d.1 packet

lemma permits_of_datagram (hn : Discovery.isBeacon d.2 = false)
    (hd : decodePacket d.2 = some packet)
    (h : e.newHello d.1 packet = some hello) (hc : e.CrossesEnded d → Γ.crossesEnded)
    (hq : e.RefusesCrossing d → Γ.refusesCrossing) : Permits Γ e hello.fromInstance := by
  intro p hp hs hlt
  have hcrossed : e.crossedBy d = some hello.fromInstance := by
    have hs : p.state = .connecting ∧ p.initiator = true := hs
    rw [crossedBy, hn, hd, Option.bind_some, h]
    simp [hp, hs, hlt]
  refine ⟨fun he => hc ?_, fun hfull => hq ?_⟩
  · simp [CrossesEnded, hcrossed, hp, he]
  · simp [RefusesCrossing, hcrossed, hfull]

lemma reaches_handleDatagram (hb : e.mIoSocket.isSome) (hi : Carries Γ.incoming d)
    (hc : e.CrossesEnded d → Γ.crossesEnded) (hq : e.RefusesCrossing d → Γ.refusesCrossing) (now : TimePoint) :
    Reaches Γ e (handleDatagram now e d) := by
  rw [handleDatagram]
  split
  · exact reaches_onBeacon e _ _ now
  next hn =>
  have hn : Discovery.isBeacon d.2 = false := by simpa using hn
  split
  · exact .refl e
  next packet hd =>
  have hi := hi hn packet hd
  rcases handlePacket_cases e d.1 packet now with he | ⟨id, p, h, hr, he⟩ | ⟨hello, h, he⟩
  · rw [he]
    exact .refl e
  · rw [he]
    exact reaches_receive e h hi hr now
  · rw [he]
    exact reaches_answerHello e h hb hi (permits_of_datagram e hn hd h hc hq) now

lemma socket_report (id : PeerId) (reason : DisconnectReason) : (e.report id reason).mIoSocket = e.mIoSocket := by
  rw [report]
  split
  · rfl
  · split <;> rfl

lemma socket_erase (id : PeerId) : (e.erase id).mIoSocket = e.mIoSocket := by
  rw [erase]
  split <;> rfl

lemma socket_onLink (id : PeerId) (f : ReliableLink → ReliableLink) : (e.onLink id f).mIoSocket = e.mIoSocket := by
  rw [onLink]
  split <;> rfl

lemma socket_setConnected (id : PeerId) : (e.setConnected id).mIoSocket = e.mIoSocket := by
  rw [setConnected]
  split <;> rfl

lemma socket_receive (id : PeerId) (origin : SocketAddress) (packet : Packet) (now : TimePoint) :
    (e.receive id origin packet now).mIoSocket = e.mIoSocket := by
  rw [receive]
  split
  · rfl
  split
  · rfl
  split
  · split
    · rfl
    · exact (socket_onLink _ _ _).trans (socket_setConnected _ id)
  · exact socket_onLink _ _ _

lemma socket_addPeer (info : PeerInfo) (address : SocketAddress) (byHello : Bool) (now : TimePoint) :
    (e.addPeer info address byHello now).mIoSocket = e.mIoSocket := rfl

lemma socket_sendAccept (id : PeerId) : (e.sendAccept id).mIoSocket = e.mIoSocket := rfl

lemma socket_admitPeer (origin : SocketAddress) (hello : Session.Hello) (crossing : Bool) (now : TimePoint) :
    (e.admitPeer origin hello crossing now).mIoSocket = e.mIoSocket := by
  have hadded := socket_addPeer e (helloInfo origin hello) origin true now
  rw [admitPeer]
  dsimp only
  rw [apply_ite NetworkEngine.mIoSocket, socket_sendAccept]
  generalize e.addPeer (helloInfo origin hello) origin true now = added at hadded ⊢
  rw [← hadded]
  exact ite_self _

lemma socket_makeWay {way : Bool × NetworkEngine} (h : e.makeWay id = some way) :
    way.2.mIoSocket = e.mIoSocket := by
  rw [makeWay] at h
  split at h
  · obtain rfl := Option.some.inj h
    rfl
  split at h
  · split at h
    · simp at h
    · obtain rfl := Option.some.inj h
      exact socket_erase e id
  · obtain rfl := Option.some.inj h
    exact (socket_erase _ id).trans (socket_report e id _)

lemma socket_answerHello (origin : SocketAddress) (packet : Packet) (now : TimePoint) (hello : Session.Hello) :
    (e.answerHello origin packet now hello).mIoSocket = e.mIoSocket := by
  rw [answerHello]
  split
  · rfl
  next crossing way hw =>
  split
  · exact socket_makeWay e hw
  · rw [socket_receive, socket_admitPeer]
    exact socket_makeWay e hw

lemma socket_sendBeacon (destination : SocketAddress) (reply : Bool) :
    (e.sendBeacon destination reply).mIoSocket = e.mIoSocket := by
  rw [sendBeacon]
  split
  · rfl
  dsimp only
  split <;> rfl

lemma socket_onBeacon (origin : SocketAddress) (bytes : List UInt8) (now : TimePoint) :
    (e.onBeacon origin bytes now).mIoSocket = e.mIoSocket := by
  rw [onBeacon]
  split
  · rfl
  generalize e.mDiscovery.onBeacon origin bytes now = answer
  obtain ⟨seen, discovery⟩ := answer
  dsimp only
  split
  · rfl
  split
  · rw [socket_sendBeacon]
    split <;> rfl
  · split <;> rfl

lemma socket_handleDatagram (now : TimePoint) (d : SocketAddress × List UInt8) :
    (handleDatagram now e d).mIoSocket = e.mIoSocket := by
  rw [handleDatagram]
  split
  · exact socket_onBeacon e _ _ now
  split
  · rfl
  next packet hd =>
  rcases handlePacket_cases e d.1 packet now with he | ⟨id, p, h, hr, he⟩ | ⟨hello, h, he⟩
  · rw [he]
  · rw [he, socket_receive]
  · rw [he, socket_answerHello]

structure Obeys (Γ : Rules) (e : NetworkEngine) (d : SocketAddress × List UInt8) : Prop where
  carries : Carries Γ.incoming d
  ended : e.CrossesEnded d → Γ.crossesEnded
  refused : e.RefusesCrossing d → Γ.refusesCrossing

lemma reaches_handleDatagrams (now : TimePoint) (ds : List (SocketAddress × List UInt8)) (hb : e.mIoSocket.isSome)
    (hd : Lib.Along (Obeys Γ) (handleDatagram now) e ds) : Reaches Γ e (ds.foldl (handleDatagram now) e) := by
  induction ds generalizing e with
  | nil => exact .refl e
  | cons d ds ih =>
    obtain ⟨⟨hi, hc, hq⟩, hd⟩ := hd
    refine (reaches_handleDatagram e hb hi hc hq now).trans (ih _ ?_ hd)
    rwa [socket_handleDatagram]

def incoming : List (SocketAddress × List UInt8) :=
  if e.mIoSocket.isNone then [] else drained MaxDatagramsPerPass e.world.channel

lemma reaches_receivePending (now : TimePoint) (hd : Lib.Along (Obeys Γ) (handleDatagram now) e e.incoming) :
    Reaches Γ e (e.receivePending now) := by
  rw [receivePending]
  split
  · exact .refl e
  next hb =>
  rw [incoming, if_neg hb] at hd
  have hb : e.mIoSocket.isSome := Option.isSome_iff_ne_none.mpr (by simpa using hb)
  have hdatagrams := reaches_handleDatagrams e now _ hb hd
  generalize (drained MaxDatagramsPerPass e.world.channel).foldl (handleDatagram now) e = received at hdatagrams ⊢
  have hbeacon : ∀ (e : NetworkEngine) (d : SocketAddress × List UInt8), Reaches Γ e (e.onBeacon d.1 d.2 now) :=
    fun e d => reaches_onBeacon e d.1 d.2 now
  exact .ite (hdatagrams.trans (.foldl hbeacon _ _)) hdatagrams

end NetLink.NetworkEngine
