import NetLink.Channel.PacketFormat
import NetLink.Engine.Carried
import NetLink.Engine.Tidy

/-! The Acks of a peer cover what its application was told of, unless building one of them takes up a message that
was refused, or a message comes behind the end of its session. -/

namespace NetLink.NetworkEngine

open Channel (TimePoint ReliableLink Packet DeliveredMessage StreamLanes Host MessageAssembler decodePacket)

/-- One of the Acks of the peer takes up a message when the peer's turn has handed over what was complete. -/
def takesUpRefused (now : TimePoint) (e : NetworkEngine) (id : PeerId) : Bool :=
  ((e.advance id now).find id).any fun p => StreamLanes.any ((e.advance id now).lend p).retries

def isData (m : DeliveredMessage) : Bool := m.lane == .reliable || m.lane == .bulk

def InTime (id : PeerId) : NetworkEngine → List DeliveredMessage → Prop :=
  Lib.Along (fun e m => isData m = true → (e.find id).any (·.ended) = false) fun e m => e.deliver id m

/-- At its turn every Reliable and Bulk message is reached before its session ends. -/
def InSession (e : NetworkEngine) (id : PeerId) : Prop :=
  ∀ p ∈ e.find id, InTime id (e.putLink id (e.lend p).takeDelivered.2) p.link.mDelivered

instance (e : NetworkEngine) (id : PeerId) : Decidable (InSession e id) :=
  inferInstanceAs (Decidable (∀ p ∈ e.find id, Lib.Along _ _ _ _))

def Prompt (e : NetworkEngine) (world : World) (now : TimePoint) : Prop :=
  Lib.Along (fun e id => takesUpRefused now e id = false ∧ InSession e id) (serve now) (e.collect world now)
    (e.collect world now).mTouched

instance (e : NetworkEngine) (world : World) (now : TimePoint) : Decidable (Prompt e world now) :=
  inferInstanceAs (Decidable (Lib.Along _ _ _ _))

def messageEvent (id : PeerId) (m : DeliveredMessage) : EngineEvent where
  kind := .message
  peer := id
  lane := publicLane m.lane
  message := { type := m.tag, data := m.body }

def told (id : PeerId) (ms : List DeliveredMessage) : List Mark :=
  (ms.filter isData).map fun m => .emitted (messageEvent id m)

variable {e e' : NetworkEngine} {j id : PeerId} {p q : Peer} {m : DeliveredMessage} {now : TimePoint} {x : UInt32}
  {ms : List DeliveredMessage} {marks : List Mark} {Γ : Rules} {v w : View}

lemma told_append (id : PeerId) (ms ns : List DeliveredMessage) :
    told id (ms ++ ns) = told id ms ++ told id ns := by
  simp [told]

lemma told_eq_nil (h : ∀ m ∈ ms, isData m = false) : told id ms = [] := by
  simpa [told] using h

lemma Run.history (hr : Run Γ v w) : v.history <+: w.history := by
  induction hr with
  | refl => exact List.prefix_rfl
  | tail _ hm ih =>
    obtain ⟨ms, hs⟩ := hm.said
    exact ih.trans ⟨ms, (congrArg Prod.fst hs).symm⟩

lemma Reaches.history (h : Reaches .any e e') (hs : Sound e.view) : e.history <+: e'.history := Run.history (h hs)

def View.Registered (v : View) : Prop :=
  ∀ id s, v.sessions id = some s → ∃ byHello, Mark.opened id s.link.mLocalStreamID byHello ∈ v.history

namespace View.Registered

variable {s t : SessionView}

lemma log (h : v.Registered) (ms : List Mark) : (v.log ms).Registered := fun id s hs =>
  (h id s hs).imp fun _ ho => List.mem_append_left _ ho

lemma set (h : v.Registered) (hs : v.sessions id = some s) (hl : t.link.mLocalStreamID = s.link.mLocalStreamID) :
    (v.set id t).Registered := by
  intro j r hr
  by_cases hj : j = id
  · subst hj
    obtain rfl := Option.some.inj ((View.sessions_set v j t).symm.trans hr)
    exact hl ▸ h j s hs
  · rw [View.sessions_set_of_ne v id t hj] at hr
    exact h j r hr

lemma drop (h : v.Registered) (id : PeerId) : (v.drop id).Registered := by
  intro j t ht
  have hj : j ≠ id := by
    rintro rfl
    simp at ht
  rw [View.sessions_drop_of_ne v id hj] at ht
  exact (View.history_drop v id).symm ▸ h j t ht

lemma openSession (h : v.Registered) (ms : List Mark) (byHello : Bool)
    (hm : Mark.opened id s.link.mLocalStreamID byHello ∈ ms) : ((v.openSession id s).log ms).Registered := by
  intro j t ht
  by_cases hj : j = id
  · subst hj
    obtain rfl := Option.some.inj ((View.sessions_openSession v j s).symm.trans ht)
    exact ⟨byHello, List.mem_append_right _ hm⟩
  · rw [View.sessions_log, View.sessions_openSession_of_ne v id s hj] at ht
    exact (h j t ht).imp fun _ ho => List.mem_append_left _ ho

lemma move (h : v.Registered) (hm : Move Γ v w) : w.Registered := by
  have hkept : ∀ {w : View}, w.sessions = v.sessions → w.history = v.history → w.Registered := fun hs hh id s hf =>
    hh ▸ h id s (hs ▸ hf)
  cases hm with
  | applied | late | ignored | notice => exact h.log _
  | answered c id s m hm hc hs => exact (h.set (t := s.accepted m) hs rfl).log _
  | refused id | dropTold id => exact (h.drop id).log _
  | opened id => exact (h.drop id).openSession _ false (by simp)
  | session id s s' ms hs hm => exact (h.set hs (congrArg Prod.fst hm.streams)).log ms
  | packet id s p now hs => exact h.set hs (ReliableLink.local_onPacket p now)
  | overtaken id s p info hs => exact (h.set (t := s.connected) hs rfl).log _
  | asked origin id p l now info =>
    exact h.openSession _ true (by simp [newcomer, ReliableLink.local_onPacket])
  | welcomed origin id p l now m =>
    exact h.openSession _ true (by simp [newcomer, SessionView.accepted, ReliableLink.local_onPacket])
  | crossed origin id s p l now m =>
    exact (h.drop id).openSession _ true
      (by simp [newcomer, SessionView.accepted, ReliableLink.local_onPacket])
  | lostCrossing id | dropEnded id => exact h.drop id
  | transmit id s lane next now p posts hs =>
    exact h.set hs (congrArg Prod.fst (streams_committed s lane next now))
  | transmitAck | beacon | rebind | shutDown => exact hkept rfl rfl

end View.Registered

def Spoken (marks : List Mark) (j : PeerId) (x : UInt32) (ms : List DeliveredMessage) : Prop :=
  told j ms = [] ∨ ∃ old byHello since, marks = old ++ .opened j x byHello :: since ∧ (told j ms).Sublist since

lemma Spoken.append (h : Spoken marks j x ms) (more : List Mark) : Spoken (marks ++ more) j x ms := by
  refine h.imp_right ?_
  rintro ⟨old, byHello, since, rfl, ht⟩
  exact ⟨old, byHello, since ++ more, by simp, ht.trans (List.sublist_append_left _ _)⟩

lemma Spoken.opened {byHello : Bool} (h : Spoken marks j x ms) (ho : Mark.opened j x byHello ∈ marks) :
    ∃ old byHello since, marks = old ++ .opened j x byHello :: since ∧ (told j ms).Sublist since := by
  rcases h with h | h
  · obtain ⟨old, since, hh⟩ := List.append_of_mem ho
    exact ⟨old, byHello, since, hh, h ▸ List.nil_sublist _⟩
  · exact h

def CarriedAt (e : NetworkEngine) (j : PeerId) : Prop :=
  ∀ p, e.find j = some p → ∃ taken, p.Served taken ∧ Spoken e.history j p.link.mLocalStreamID taken

lemma CarriedAt.continues (h : e.CarriedAt j) (hc : Continues j e e') (hh : e.history <+: e'.history) :
    e'.CarriedAt j := by
  intro q hq
  rcases hc q hq with hnew | ⟨p, hp, hpq⟩
  · exact ⟨[], hnew, .inl rfl⟩
  · obtain ⟨taken, ht, hs⟩ := h p hp
    obtain ⟨more, hmore⟩ := hh
    exact ⟨taken, hpq.served ht, hmore ▸ hpq.streamID ▸ hs.append more⟩

structure Peer.Open (p : Peer) : Prop where
  data : p.transfersData = true
  unreported : p.reported = false
  stays : p.ended = false

lemma Peer.Open.state (h : p.Open) : p.state = .connected ∨ p.state = .closing ∧ p.closeSent = false := by
  simpa [Peer.transfersData] using h.data

lemma Peer.open_of_tidy (ht : p.view.Tidy) (hd : p.transfersData = true) (he : p.ended = false) : p.Open := by
  refine ⟨hd, Bool.eq_false_iff.mpr fun hr => ?_, he⟩
  have hc : p.closeSent = true := (ht.told hr).resolve_right (by simp [Peer.view, he])
  have hs : p.state = .closing := ht.closes hc
  simp [Peer.transfersData, hs, hc] at hd

lemma onControl_open (hf : e.find id = some p) (ho : p.Open) :
    e.onControl id m = e ∨ e.onControl id m = (e.report id .remoteEnd).endPeer id := by
  have hs : p.state ≠ .connecting := by rcases ho.state with h | h <;> simp [h]
  simp only [onControl, hf, ho.stays, Bool.false_eq_true, if_false]
  split
  · exact .inl rfl
  · exact .inl rfl
  · exact .inl (if_neg fun h => hs h.1)
  · exact .inl (if_neg fun h => hs h.1)
  · exact .inr rfl

lemma deliver_open (hf : e.find id = some p) (ho : p.Open) (m : DeliveredMessage) :
    ∃ q, (e.deliver id m).find id = some q ∧ (q.ended = true ∨ q.Open) := by
  have hall : (e.find id).all (fun peer => peer.ended || peer.reported || !peer.transfersData) = false := by
    simp [hf, ho.stays, ho.unreported, ho.data]
  rw [deliver]
  split
  · rcases onControl_open (m := m) hf ho with he | he
    · rw [he]
      exact ⟨p, hf, .inr ho⟩
    · rw [he]
      exact ⟨_, find_finish e hf .remoteEnd, .inl rfl⟩
  rw [hall, if_neg Bool.false_ne_true]
  split
  · obtain ⟨media, hpushed⟩ := find_pushMedia e hf m
    exact ⟨_, hpushed, .inr ⟨ho.data, ho.unreported, ho.stays⟩⟩
  · exact ⟨p, hf, .inr ho⟩

lemma ne_of_isData (h : isData m = true) : m.lane ≠ .control ∧ m.lane ≠ .media := by
  simp only [isData, Bool.or_eq_true, beq_iff_eq] at h
  rcases h with h | h <;> simp [h]

lemma deliver_data (hf : e.find id = some p) (ho : p.Open) (hm : isData m = true) :
    e.deliver id m = e.emit (messageEvent id m) := by
  have hall : (e.find id).all (fun peer => peer.ended || peer.reported || !peer.transfersData) = false := by
    simp [hf, ho.stays, ho.unreported, ho.data]
  rw [deliver, if_neg (ne_of_isData hm).1, hall, if_neg Bool.false_ne_true, if_neg (ne_of_isData hm).2]
  rfl

lemma told_delivers (hs : Sound e.view) (hh : ∀ m ∈ ms, e.Heard id m) (hf : e.find id = some p)
    (ho : p.ended = true ∨ p.Open) (hin : InTime id e ms) :
    ∃ more, (ms.foldl (fun e m => e.deliver id m) e).history = e.history ++ more ∧ (told id ms).Sublist more := by
  induction ms generalizing e p with
  | nil => exact ⟨[], (List.append_nil _).symm, .slnil⟩
  | cons m ms ih =>
    have hreach : Reaches .any e (e.deliver id m) := reaches_deliver e id m (hh m List.mem_cons_self)
    have hnext : ∃ q, (e.deliver id m).find id = some q ∧ (q.ended = true ∨ q.Open) := by
      rcases ho with he | ho
      · exact ⟨p, by rw [deliver_ended e hf he, hf], .inl he⟩
      · exact deliver_open hf ho m
    obtain ⟨q, hq, hqo⟩ := hnext
    have hfirst : ∃ more, (e.deliver id m).history = e.history ++ more ∧ (told id [m]).Sublist more := by
      cases hm : isData m with
      | false =>
        obtain ⟨more, hmore⟩ := hreach.history hs
        exact ⟨more, hmore.symm, by simp [told, hm]⟩
      | true =>
        have he : p.ended = false := by simpa [hf] using hin.1 hm
        have ho : p.Open := ho.resolve_left (by simp [he])
        exact ⟨[.emitted (messageEvent id m)], by rw [deliver_data hf ho hm]; rfl, by simp [told, hm]⟩
    obtain ⟨first, hfirst, htold⟩ := hfirst
    obtain ⟨rest, hrest, hlater⟩ := ih (hs.run (hreach hs))
      (fun n hn => by rw [Heard, linkOf_deliver]; exact hh n (List.mem_cons_of_mem m hn)) hq hqo hin.2
    refine ⟨first ++ rest, by rw [List.foldl_cons, hrest, hfirst, List.append_assoc], ?_⟩
    exact told_append id [m] ms ▸ htold.append hlater

lemma told_taken (hs : Sound e.view) (ht : e.view.Tidy) (hf : e.find id = some p) (he : p.ended = false)
    (hw : e.WaitsAt id) (hin : InSession e id) :
    ∃ more, (p.link.mDelivered.foldl (fun e m => e.deliver id m)
      (e.putLink id (e.lend p).takeDelivered.2)).history = e.history ++ more ∧
        (told id p.link.mDelivered).Sublist more := by
  have hput : (e.putLink id (e.lend p).takeDelivered.2).find id =
      some { p with link := (e.lend p).takeDelivered.2 } := by
    rw [find_putLink, hf, Option.map_some]
  have hheard := heard_takeDelivered e hs hf
  have hsound : Sound (e.putLink id (e.lend p).takeDelivered.2).view :=
    hs.run (reaches_takeDelivered (Γ := .any) e hf hs)
  by_cases hd : p.transfersData = true
  · have ho : p.Open := Peer.open_of_tidy (ht id p.view (sessions_view e hf)) hd he
    exact told_delivers hsound hheard hput (.inr ⟨ho.data, ho.unreported, ho.stays⟩) (hin p hf)
  · have hnone : told id p.link.mDelivered = [] := told_eq_nil fun m hm =>
      Bool.eq_false_iff.mpr fun hdata => hd (hw p hf he m hm (ne_of_isData hdata).1)
    obtain ⟨more, hmore⟩ := (reaches_delivers _ id _ hheard).history hsound
    exact ⟨more, hmore.symm, hnone ▸ List.nil_sublist _⟩

lemma advance_cases (hf : e.find id = some p) (now : TimePoint) :
    p.ended = true ∧ e.advance id now = e ∨
    p.link.mFailed = true ∧ e.advance id now = (e.report id .lost).endPeer id ∨
    p.ended = false ∧ p.link.mFailed = false ∧ e.advance id now =
      (p.link.mDelivered.foldl (fun e m => e.deliver id m)
        (e.putLink id (e.lend p).takeDelivered.2)).advanceState id now := by
  simp only [advance, hf]
  split
  · next he => exact .inl ⟨he, rfl⟩
  next he =>
  split
  · next hl => exact .inr (.inl ⟨hl, rfl⟩)
  · next hl => exact .inr (.inr ⟨by simpa using he, by simpa using hl, rfl⟩)

lemma stands_advanced (hf : e.find id = some p) (link : ReliableLink) (hl : link.mFailed = false) (now : TimePoint)
    (ms : List DeliveredMessage)
    (hq : ((ms.foldl (fun e m => e.deliver id m) (e.putLink id link)).advanceState id now).find id = some q) :
    Peer.Stands { p with link := link } q := by
  have hacts : Acts ⟨False, False, False⟩ .serve (e.putLink id link) _ :=
    (Acts.foldl (fun e m => acts_deliver e m) ms _).trans (acts_advanceState _ now (alive_delivers e hf hl ms))
  obtain ⟨r, hr, hrq⟩ := hacts.stands (by decide) not_false q hq
  rw [find_putLink, hf, Option.map_some] at hr
  exact Option.some.inj hr ▸ hrq

lemma taken_advance (e : NetworkEngine) (id : PeerId) (now : TimePoint) : (e.advance id now).TakenAt id := by
  cases hf : e.find id with
  | none => exact .of_none (by rw [advance, hf]; exact hf)
  | some p =>
    rcases advance_cases hf now with ⟨he, ha⟩ | ⟨-, ha⟩ | ⟨-, hl, ha⟩
    · rw [ha]
      exact .of_some hf fun hn => by simp [he] at hn
    · rw [ha]
      exact .of_some (find_finish e hf .lost) fun hn => by cases hn
    · rw [ha]
      intro q hq _
      rw [(stands_advanced hf (e.lend p).takeDelivered.2 hl now _ hq).link]
      rfl

lemma carried_advance (hs : Sound e.view) (ht : e.view.Tidy) (hg : e.view.Registered) (hw : e.WaitsAt id)
    (hin : InSession e id) (h : e.CarriedAt id) (now : TimePoint) : (e.advance id now).CarriedAt id := by
  have hhistory : e.history <+: (e.advance id now).history := (reaches_advance e id now).history hs
  cases hf : e.find id with
  | none => exact h.continues (.of_none (by simp [advance, hf])) hhistory
  | some p =>
    rcases advance_cases hf now with ⟨-, ha⟩ | ⟨-, ha⟩ | ⟨he, hl, ha⟩
    · exact h.continues (.of_find (by rw [ha])) hhistory
    · rw [ha] at hhistory ⊢
      exact h.continues (.of_stands ((StandsAt.report e id .lost).trans (.endPeer _ id))) hhistory
    obtain ⟨taken, ⟨host, hr, hlink, rfl⟩, hspoken⟩ := h p hf
    intro q hq
    have hstands := stands_advanced hf (e.lend p).takeDelivered.2 hl now _ (ha ▸ hq)
    have hserved : Peer.Served { p with link := (e.lend p).takeDelivered.2 }
        (host.handed ++ p.link.mDelivered) := by
      refine ⟨_, (hr.step (.exchangeBudget host e.mAssemblyBudget)).step (.takeDelivered _), ?_, ?_⟩
      · rw [lend, ← hlink]
        rfl
      · rw [← hlink]
        rfl
    refine ⟨_, (Peer.Passes.of_stands hstands).served hserved, ?_⟩
    have hid : q.link.mLocalStreamID = p.link.mLocalStreamID := by
      rw [hstands.link]
      rfl
    obtain ⟨more, hmore, htold⟩ := told_taken hs ht hf he hw hin
    have htaken := (reaches_takeDelivered (Γ := .any) e hf).trans
      (reaches_delivers _ id _ (heard_takeDelivered e hs hf))
    have halive := alive_delivers e hf (l := (e.lend p).takeDelivered.2) hl p.link.mDelivered
    obtain ⟨rest, hrest⟩ := (reaches_advanceState _ id now halive).history (hs.run (htaken hs))
    rw [hid, ha, ← hrest, hmore]
    obtain ⟨byHello, ho⟩ := hg id p.view (sessions_view e hf)
    obtain ⟨old, byHello, since, hopened, hearlier⟩ := hspoken.opened ho
    refine .inr ⟨old, byHello, since ++ more ++ rest, by simp [hopened], ?_⟩
    rw [told_append]
    exact (hearlier.append htold).trans (List.sublist_append_left _ _)

/-! The Acks that follow take nothing up, and cover nothing but what was handed over. -/

lemma idle_of_prompt (ht : takesUpRefused now e id = false) (hf : (e.advance id now).find id = some p) :
    ∀ lane ∈ StreamLanes, ((e.advance id now).lend p).retries lane = false := by
  simpa [takesUpRefused, hf] using ht

lemma sent_sendAcks (hf : e.find id = some p) (hr : ∀ lane ∈ StreamLanes, (e.lend p).retries lane = false) :
    ∃ link posts, (e.sendAcks id).find id = some { p with link := link } ∧ p.Passes { p with link := link } ∧
      link.mDelivered = p.link.mDelivered ∧ (e.sendAcks id).outbox = e.outbox ++ posts ∧
        ∀ post ∈ posts, p.Acknowledges post.bytes := by
  rw [sendAcks, hf]
  exact sent_sendAcksLoop _ hf hr

lemma TakenAt.peeked (h : e.TakenAt id) (lane : Channel.Lane) : (e.peek id lane).2.TakenAt id := by
  cases hf : e.find id with
  | none =>
    rw [peek_of_none e hf]
    exact .of_none hf
  | some p =>
    have hd : (e.offering id p lane).link.mDelivered = p.link.mDelivered :=
      congrArg ReliableLink.Aside.delivered (aside_offering e id p lane)
    exact .of_some (find_peek e hf lane) fun he => hd.trans (h p hf he)

lemma TakenAt.scheduleLane (h : e.TakenAt id) (lane : Channel.Lane) : (scheduleLane id e lane).TakenAt id :=
  scheduleLane_keeps e (P := (·.TakenAt id)) h (h.peeked lane)
    ((h.peeked lane).stands (.modified rfl fun _ => ⟨rfl, fun _ h => h, fun h => h⟩))

lemma TakenAt.sendOne (h : e.TakenAt j) (now : TimePoint) (lane : Channel.Lane) :
    (sendOne now e lane id).2.TakenAt j := by
  by_cases hj : j = id
  swap
  · exact h.stands (.of_find ((beside_sendOne e now lane).others j hj))
  subst hj
  cases hf : e.find j with
  | none =>
    rw [sendOne_of_none e hf]
    exact .of_none hf
  | some p =>
    have hd : (e.offering j p lane).link.mDelivered = p.link.mDelivered :=
      congrArg ReliableLink.Aside.delivered (aside_offering e j p lane)
    have hc : ((e.offering j p lane).link.commit lane now).mDelivered = p.link.mDelivered := by
      obtain ⟨n, sent, resent, hn⟩ := ReliableLink.aside_commit (e.offering j p lane).link lane now
      exact (congrArg ReliableLink.Aside.delivered hn).trans hd
    refine .of_some (find_sendOne e hf now lane) ?_
    split
    · exact fun he => hd.trans (h p hf he)
    · exact fun he => hd.trans (h p hf he)
    · exact fun he => hc.trans (h p hf he)
    · exact fun he => hc.trans (h p hf he)

lemma TakenAt.sendData (h : e.TakenAt j) (now : TimePoint) : (e.sendData now).TakenAt j := by
  have hrun := Channel.SendScheduler.run_keeps (NetworkEngine.sendOne now) (P := fun e => e.TakenAt j)
    (fun e lane id h => h.sendOne now lane) (e.world.sends.length + e.mScheduler.waiting + 1) e.mScheduler e h
  exact hrun.stands (.of_find rfl)

lemma TakenAt.sendAcks (h : e.TakenAt id)
    (hr : ∀ p, e.find id = some p → ∀ lane ∈ StreamLanes, (e.lend p).retries lane = false) :
    (e.sendAcks id).TakenAt id ∧ Continues id e (e.sendAcks id) := by
  cases hf : e.find id with
  | none =>
    have he : e.sendAcks id = e := by rw [NetworkEngine.sendAcks, hf]
    rw [he]
    exact ⟨h, .of_find rfl⟩
  | some p =>
    obtain ⟨link, posts, hfind, hpasses, hdelivered, -⟩ := sent_sendAcks hf (hr p hf)
    exact ⟨.of_some hfind fun he => hdelivered.trans (h p hf he), .of_passes hf hfind hpasses⟩

lemma taken_serve (ht : takesUpRefused now e id = false) : (serve now e id).TakenAt id := by
  have hacks := ((taken_advance e id now).sendAcks fun _ hf => idle_of_prompt ht hf).1
  rw [serve]
  split
  · next hf => exact .of_none (by simpa using hf)
  · dsimp only
    split
    · exact List.foldlRecOn (motive := (TakenAt · id)) _ _ hacks fun _ h lane _ => h.scheduleLane lane
    · exact hacks

lemma continues_serve (ht : takesUpRefused now e id = false) :
    Continues id (e.advance id now) (serve now e id) := by
  have hacks := ((taken_advance e id now).sendAcks fun _ hf => idle_of_prompt ht hf).2
  rw [serve]
  split
  · next hf => exact .of_none (by simpa using hf)
  · dsimp only
    split
    · exact hacks.trans (.foldl (fun e lane => .scheduleLane e id lane) _ _)
    · exact hacks

lemma history_serve (hs : Sound e.view) (now : TimePoint) (id : PeerId) :
    (e.advance id now).history <+: (serve now e id).history := by
  have hacks := reaches_sendAcks (Γ := .any) (e.advance id now) id
  have hsound : Sound (e.advance id now).view := hs.run (reaches_advance (Γ := .any) e id now hs)
  rw [serve]
  split
  · next hf =>
    have hnone : e.find id = none := by simpa using hf
    have hsame : e.advance id now = e := by rw [advance, hnone]
    exact ⟨[], by rw [List.append_nil, hsame]⟩
  · dsimp only
    split
    · exact (hacks.trans (reaches_schedule _ id)).history hsound
    · exact hacks.history hsound

structure Turning (ids : List PeerId) (e : NetworkEngine) : Prop where
  sound : Sound e.view
  tidy : e.view.Tidy
  registered : e.view.Registered
  due : ∀ j, e.TakenAt j ∨ j ∈ ids ∧ e.WaitsAt j
  carried : ∀ j, e.CarriedAt j

namespace Turning

variable {ids : List PeerId}

lemma waits (h : Turning ids e) (j : PeerId) : e.WaitsAt j := (h.due j).elim TakenAt.waits And.right

lemma reach (hs : Sound e.view) (ht : e.view.Tidy) (hg : e.view.Registered) (hr : Reaches .any e e') :
    Sound e'.view ∧ e'.view.Tidy ∧ e'.view.Registered :=
  ⟨hs.run (hr hs), (hr hs).invariant (fun _ _ _ h hm => hm.tidy h) hs ht,
    (hr hs).invariant (fun _ _ _ h hm => h.move hm) hs hg⟩

lemma serve (h : Turning (id :: ids) e) (ht : takesUpRefused now e id = false) (hin : InSession e id) :
    Turning ids (serve now e id) := by
  have hreach : Reaches .any e (NetworkEngine.serve now e id) := reaches_serve e now id
  obtain ⟨hs, hv, hg⟩ := reach h.sound h.tidy h.registered hreach
  have hothers := (beside_serve e now id).others
  refine ⟨hs, hv, hg, fun j => ?_, fun j => ?_⟩
  · by_cases hj : j = id
    · subst hj
      exact .inl (taken_serve ht)
    · refine (h.due j).imp (fun h => h.stands (.of_find (hothers j hj))) fun h => ?_
      exact ⟨(List.mem_cons.mp h.1).resolve_left hj, fun p hp => h.2 p (hothers j hj ▸ hp)⟩
  · by_cases hj : j = id
    · subst hj
      have hadvanced := carried_advance h.sound h.tidy h.registered (h.waits j) hin (h.carried j) now
      exact hadvanced.continues (continues_serve ht) (history_serve h.sound now j)
    · exact (h.carried j).continues (.of_find (hothers j hj)) (hreach.history h.sound)

lemma turns {before after : List PeerId} (h : Turning (before ++ after) e)
    (hp : Lib.Along (fun e id => takesUpRefused now e id = false ∧ InSession e id) (NetworkEngine.serve now) e
      before) : Turning after (before.foldl (NetworkEngine.serve now) e) := by
  induction before generalizing e with
  | nil => exact h
  | cons id before ih => exact ih (h.serve hp.1.1 hp.1.2) hp.2

lemma taken (h : Turning [] e) (j : PeerId) : e.TakenAt j :=
  (h.due j).resolve_right fun hn => List.not_mem_nil hn.1

lemma keeps (h : Turning [] e) (hr : Reaches .any e e') (ht : ∀ j, e'.TakenAt j) (hc : ∀ j, Continues j e e') :
    Turning [] e' := by
  obtain ⟨hs, hv, hg⟩ := reach h.sound h.tidy h.registered hr
  exact ⟨hs, hv, hg, fun j => .inl (ht j), fun j => (h.carried j).continues (hc j) (hr.history h.sound)⟩

lemma stands (h : Turning [] e) (hr : Reaches .any e e') (hs : ∀ j, StandsAt j e e') : Turning [] e' :=
  h.keeps hr (fun j => (h.taken j).stands (hs j)) fun j => .of_stands (hs j)

lemma collect (h : Turning [] e) (world : World) (now : TimePoint) :
    Turning (e.collect world now).mTouched (e.collect world now) := by
  have hreach : Reaches .any e (e.collect world now) := reaches_collect e world now (lawful_any e world now)
  obtain ⟨hs, ht, hg⟩ := reach h.sound h.tidy h.registered hreach
  refine ⟨hs, ht, hg, fun j => due_collect (h.taken j) h.sound world now, fun j => ?_⟩
  exact (h.carried j).continues (continues_collect h.sound world now) (hreach.history h.sound)

lemma settle (h : Turning [] e) (ids : List PeerId) : Turning [] (ids.foldl settlePeer e) :=
  h.stands (.of_view (view_foldl view_settlePeer ids e)) fun _ => .settlePeers e ids

lemma sweep (h : Turning [] e) : Turning [] e.swept := by
  have hcleared : Turning [] { e with mEnded := [] } := h.stands (.of_view rfl) fun _ => .of_find rfl
  exact hcleared.stands (.foldl (fun e id => reaches_eraseEnded e id) e.mEnded _) fun _ =>
    (acts_swept (T := ⟨False, False, False⟩) e).stands (by decide) not_false

lemma finishStep (h : Turning [] e) (now : TimePoint) : Turning [] (e.finishStep now) :=
  h.stands (.of_view (view_finishStep e now)) fun _ =>
    (acts_finishStep (T := ⟨False, False, False⟩) (k := .sweep) e now).stands (by decide) not_false

lemma takeBatch (h : Turning [] e) : Turning [] e.takeBatch.2 :=
  ⟨h.sound.handedOver, h.tidy, h.registered, h.due, h.carried⟩

lemma step (h : Turning [] e) {world : World} (hp : Prompt e world now) : Turning [] (e.step world now).2 := by
  have hturns : Turning [] ((e.collect world now).mTouched.foldl (NetworkEngine.serve now)
    (e.collect world now)) :=
    turns (by simpa using h.collect world now) hp
  have hserved : Turning [] ((e.collect world now).serveTouched now) := by
    rw [serveTouched]
    split
    · exact hturns
    · exact hturns.keeps (reaches_sendData _ now) (fun j => (hturns.taken j).sendData now) fun j => .sendData _ now
  have hround : Turning [] (e.round world now) := ((hserved.settle _).sweep).finishStep now
  exact hround.takeBatch

end Turning

namespace Sample

def arriving (streamIDs : List UInt32) (packets : List Packet) : World where
  localInterface := some {}
  streamIDs := streamIDs
  sends := List.replicate 40 none
  channel := packets.map fun packet => .datagram there packet.bytes

end Sample

namespace Observed

variable {o : Observed}

def bound : Observed := Observed.step { engine := .new {} 1 } Sample.bound 0

end Observed

end NetLink.NetworkEngine
