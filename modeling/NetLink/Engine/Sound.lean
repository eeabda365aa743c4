import NetLink.Engine.Links

/-! What holds of the records of an engine between any two moves. -/

namespace NetLink.NetworkEngine

open Channel (ReliableLink OutboundMessage Packet TimePoint Host)

def SessionView.Served (s : SessionView) : Prop :=
  ∃ queued, Serves (fun _ => s.link.mRemoteStreamID.isSome = true) queued s.link s.control

lemma Newborn.streams {l : ReliableLink} (h : Newborn l) :
    l.mRemoteStreamID = none ∧ l.mFailed = false ∧ l.mLocalStreamID ≠ 0 ∧ l.mPendingAcks = [] := by
  obtain ⟨timings, id, budget, now, paused, budget', hid, rfl⟩ := h
  refine ⟨?_, ?_, ?_, ?_⟩
  all_goals cases paused <;> simp [ReliableLink.setPaused, ReliableLink.supervise, ReliableLink.new, hid]

namespace SessionView.Served

variable {s s' : SessionView}

lemma congr (h : s.Served) (hl : s'.link = s.link) (hc : s'.control = s.control) : s'.Served := by
  rw [Served, hl, hc]
  exact h

lemma queue (h : s.Served) {m : OutboundMessage} (hm : m.body.length ≤ Channel.MaxMessagePayload)
    (hl : s'.link = s.link) (hc : s'.control = s.control ++ [m]) : s'.Served := by
  obtain ⟨queued, h⟩ := h
  rw [Served, hl, hc]
  exact ⟨_, h.queue hm⟩

lemma of_streams {queued : List OutboundMessage}
    (h : Serves (fun _ => s.link.mRemoteStreamID.isSome = true) queued s'.link s'.control)
    (hs : s'.link.streams = s.link.streams) : s'.Served := by
  have hr : s'.link.mRemoteStreamID = s.link.mRemoteStreamID := congrArg Prod.snd hs
  rw [Served, hr]
  exact ⟨queued, h⟩

lemma onPacket (h : s.Served) {p : Packet} {now : TimePoint}
    (hd : p.header.dstStreamID = 0 ∨ p.header.dstStreamID = s.link.mLocalStreamID) :
    (s.withLink (s.link.onPacket p now)).Served := by
  obtain ⟨queued, h⟩ := h
  by_cases ht : s.link.Takes p
  · have he := ReliableLink.ends_onPacket now ht
    have hr : (s.link.onPacket p now).mRemoteStreamID = some p.header.srcStreamID := congrArg (·.2.1) he
    refine ⟨queued, Serves.onPacket (h.mono ?_) ?_ now⟩ <;> simp [withLink, hr]
  · cases hr : s.link.mRemoteStreamID with
    | some x =>
      obtain ⟨stats, he⟩ := ReliableLink.onPacket_of_not_takes now ht
      refine of_streams (h.onPacket (by simp [hr]) now) ?_
      simp only [he, withLink]
      rfl
    | none =>
      -- A link without a remote that does not take a packet for it has failed
      have hf : s.link.mFailed = true := by
        by_contra hf
        exact ht ⟨by simpa using hf, hd, .inl hr⟩
      refine congr ⟨queued, h⟩ ?_ rfl
      simp [withLink, ReliableLink.onPacket, hf]

end SessionView.Served

lemma served_newcomer (origin : Net.SocketAddress) {l : ReliableLink} {p : Packet} (hl : Newborn l)
    (hd : p.header.dstStreamID = 0) (now : TimePoint) : (newcomer origin l p now).Served := by
  have hv : SessionView.Served { address := origin, link := l } := ⟨[], .newborn hl (by simp)⟩
  exact hv.onPacket (.inl hd)

lemma length_helloMessage (v : View) (id : PeerId) :
    (v.helloMessage id).body.length ≤ Channel.MaxMessagePayload := by
  have hn := Channel.length_writeText_le (v.hello id).name
  simp only [View.helloMessage, controlMessage, Session.Hello.encode, List.length_append, Channel.writeUint64,
    Channel.writeUint32, Channel.writeUint16, Session.writeExt, Channel.MaxMessagePayload, List.length_cons,
    List.length_nil]
  omega

lemma SessionMove.streams {id : PeerId} {s s' : SessionView} {ms : List Mark} (h : SessionMove id s s' ms) :
    s'.link.streams = s.link.streams := by
  cases h with
  | link l hl => exact hl.streams
  | peek lane next hn => exact streams_peeked s lane next
  | _ => rfl

lemma SessionMove.served {id : PeerId} {s s' : SessionView} {ms : List Mark} (hs : s.Served)
    (h : SessionMove id s s' ms) : s'.Served := by
  cases h with
  | decline m reason hm => exact hs.queue hm.2 rfl rfl
  | goodbye m reason hm => exact hs.queue hm.2 rfl rfl
  | link l hl =>
    obtain ⟨queued, hs⟩ := hs
    exact .of_streams (hs.call hl) hl.streams
  | peek lane next hn =>
    obtain ⟨queued, hs⟩ := hs
    exact .of_streams (hs.peek hn) (streams_peeked s lane next)
  | _ => exact hs.congr rfl rfl

structure Sound (v : View) : Prop where
  routed : ∀ x id, v.route x = some id → ∃ s, v.sessions id = some s ∧ s.link.mLocalStreamID = x
  bound : v.socket = none → ∀ id, v.sessions id = none
  served : ∀ id s, v.sessions id = some s → s.Served
  routes : ∀ id s, v.sessions id = some s → v.route s.link.mLocalStreamID = some id

namespace Sound

variable {v w : View} {id : PeerId} {s s' : SessionView} {Γ : Rules}

lemma log (h : Sound v) (ms : List Mark) : Sound (v.log ms) := ⟨h.routed, h.bound, h.served, h.routes⟩

lemma set (h : Sound v) (hs : v.sessions id = some s) (hl : s'.link.mLocalStreamID = s.link.mLocalStreamID)
    (hv : s'.Served) : Sound (v.set id s') where
  routed x j hj := by
    obtain ⟨t, ht, rfl⟩ := h.routed x j hj
    by_cases hji : j = id
    · subst hji
      obtain rfl := Option.some.inj (hs.symm.trans ht)
      exact ⟨s', by simp, hl⟩
    · exact ⟨t, by simp [View.set, hji, ht], rfl⟩
  bound hb := by simp [h.bound hb] at hs
  served j t ht := by
    by_cases hji : j = id
    · subst hji
      obtain rfl := Option.some.inj ((View.sessions_set v j s').symm.trans ht)
      exact hv
    · rw [View.sessions_set_of_ne v id s' hji] at ht
      exact h.served j t ht
  routes j t ht := by
    by_cases hji : j = id
    · subst hji
      obtain rfl := Option.some.inj ((View.sessions_set v j s').symm.trans ht)
      rw [hl]
      exact h.routes j s hs
    · rw [View.sessions_set_of_ne v id s' hji] at ht
      exact h.routes j t ht

lemma drop (h : Sound v) (id : PeerId) : Sound (v.drop id) where
  routed x j hj := by
    cases hs : v.sessions id with
    | none =>
      rw [View.drop_of_none v id hs] at hj ⊢
      exact h.routed x j hj
    | some s =>
      rw [View.drop_of_some v id s hs] at hj
      have hx : x ≠ s.link.mLocalStreamID := by
        rintro rfl
        simp at hj
      simp only [Function.update_of_ne hx] at hj
      obtain ⟨t, ht, rfl⟩ := h.routed x j hj
      have hji : j ≠ id := by
        rintro rfl
        obtain rfl := Option.some.inj (hs.symm.trans ht)
        exact hx rfl
      exact ⟨t, by rw [View.sessions_drop_of_ne v id hji, ht], rfl⟩
  bound hb j := by
    rw [View.drop_eq] at hb
    by_cases hji : j = id
    · rw [hji, View.sessions_drop_self]
    · rw [View.sessions_drop_of_ne v id hji, h.bound hb]
  served j t ht := by
    have hji : j ≠ id := by
      rintro rfl
      simp at ht
    rw [View.sessions_drop_of_ne v id hji] at ht
    exact h.served j t ht
  routes j t ht := by
    have hji : j ≠ id := by
      rintro rfl
      simp at ht
    rw [View.sessions_drop_of_ne v id hji] at ht
    have hr := h.routes j t ht
    cases hs : v.sessions id with
    | none => rwa [View.drop_of_none v id hs]
    | some s =>
      have hx : t.link.mLocalStreamID ≠ s.link.mLocalStreamID := by
        intro hx
        rw [hx, h.routes id s hs] at hr
        exact hji (Option.some.inj hr).symm
      rw [View.drop_of_some v id s hs]
      simpa [hx] using hr

lemma openSession (h : Sound v) (hn : v.sessions id = none) (hb : v.socket.isSome) (hv : s.Served)
    (hx : v.route s.link.mLocalStreamID = none) : Sound (v.openSession id s) where
  routed x j hj := by
    by_cases hx : x = s.link.mLocalStreamID
    · subst hx
      obtain rfl : id = j := by simpa [View.openSession] using hj
      exact ⟨s, by simp, rfl⟩
    · obtain ⟨t, ht, rfl⟩ := h.routed x j (by simpa [View.openSession, hx] using hj)
      have hji : j ≠ id := by
        rintro rfl
        simp [hn] at ht
      exact ⟨t, by rw [View.sessions_openSession_of_ne v id s hji, ht], rfl⟩
  bound hs := by
    have hs : v.socket = none := hs
    simp [hs] at hb
  served j t ht := by
    by_cases hji : j = id
    · subst hji
      obtain rfl := Option.some.inj ((View.sessions_openSession v j s).symm.trans ht)
      exact hv
    · rw [View.sessions_openSession_of_ne v id s hji] at ht
      exact h.served j t ht
  routes j t ht := by
    by_cases hji : j = id
    · subst hji
      obtain rfl := Option.some.inj ((View.sessions_openSession v j s).symm.trans ht)
      simp [View.openSession]
    · rw [View.sessions_openSession_of_ne v id s hji] at ht
      have hr := h.routes j t ht
      have hne : t.link.mLocalStreamID ≠ s.link.mLocalStreamID := by
        intro he
        rw [he, hx] at hr
        cases hr
      simpa [View.openSession, hne] using hr

lemma post (h : Sound v) (u : List Sent) : Sound { v with outbox := v.outbox ++ u } :=
  ⟨h.routed, h.bound, h.served, h.routes⟩

lemma dst_of_routes (h : Sound v) (hs : v.sessions id = some s) {p : Packet} (hr : v.Routes id s p) :
    p.header.dstStreamID = 0 ∨ p.header.dstStreamID = s.link.mLocalStreamID := by
  rw [View.Routes] at hr
  split at hr
  · exact .inl ‹_›
  · obtain ⟨t, ht, hl⟩ := h.routed _ _ hr
    obtain rfl := Option.some.inj (hs.symm.trans ht)
    exact .inr hl.symm

lemma move (h : Sound v) (hm : Move Γ v w) : Sound w := by
  cases hm with
  | applied | late | ignored | notice => exact h.log _
  | answered c id s m hm hc hs hw =>
    refine (h.set hs ?_ ((h.served id s hs).queue hm.2 ?_ ?_)).log _ <;> rfl
  | refused id | dropTold id => exact (h.drop id).log _
  | opened id address l hn hb hl hx =>
    refine ((h.drop id).openSession (by simp) (by rwa [View.drop_eq]) ?_ hx).log _
    exact ⟨_, .newborn hl (by simpa using length_helloMessage v id)⟩
  | session id s s' ms hs hm =>
    exact (h.set hs (congrArg Prod.fst hm.streams) (hm.served (h.served id s hs))).log ms
  | packet id s p now hs hi hr =>
    exact h.set hs (ReliableLink.local_onPacket p now) ((h.served id s hs).onPacket (h.dst_of_routes hs hr))
  | overtaken id s p info hs =>
    refine (h.set hs ?_ ((h.served id s hs).congr ?_ ?_)).log _ <;> rfl
  | asked origin id p l now info hi hh hl hn ha hx =>
    have hv := served_newcomer origin hl hh.dst now
    rw [← ReliableLink.local_onPacket p now] at hx
    refine (h.openSession hn hh.bound (hv.congr ?_ ?_) hx).log _ <;> rfl
  | welcomed origin id p l now m hm hi hh hl hn ha hx =>
    have hv := served_newcomer origin hl hh.dst now
    rw [← ReliableLink.local_onPacket p now] at hx
    refine (h.openSession hn hh.bound (hv.queue hm.2 ?_ ?_) hx).log _ <;> rfl
  | crossed origin id s p l now m hm hi hh hl hs _ _ hx =>
    have hv := served_newcomer origin hl hh.dst now
    rw [← ReliableLink.local_onPacket p now] at hx
    have hb : (v.drop id).socket.isSome := by
      rw [View.drop_eq]
      exact hh.bound
    refine ((h.drop id).openSession (v.sessions_drop_self id) hb (hv.queue hm.2 ?_ ?_) hx).log _ <;> rfl
  | lostCrossing id | dropEnded id => exact h.drop id
  | transmit id s lane next now p posts hs hn hp hu =>
    obtain ⟨queued, hv⟩ := h.served id s hs
    have hst := streams_committed s lane next now
    exact (h.set hs (congrArg Prod.fst hst) (.of_streams (hv.commit hn hp now) hst)).post posts
  | transmitAck id s p posts hs hp hu => exact h.post posts
  | beacon u => exact h.post [u]
  | rebind socket hn => exact ⟨h.routed, fun _ => hn, h.served, h.routes⟩
  | shutDown => exact ⟨h.routed, h.bound, h.served, h.routes⟩

lemma run (h : Sound v) (hr : Run Γ v w) : Sound w := by
  induction hr with
  | refl => exact h
  | tail _ hm ih => exact ih.move hm

lemma handedOver (h : Sound v) : Sound { v with pending := [] } := ⟨h.routed, h.bound, h.served, h.routes⟩

end Sound

lemma Run.invariant {Γ : Rules} {v w : View} {P : View → Prop} (hmove : ∀ v w, Sound v → P v → Move Γ v w → P w)
    (hr : Run Γ v w) (hs : Sound v) (hp : P v) : P w := by
  induction hr with
  | refl => exact hp
  | tail hr hm ih => exact hmove _ _ (hs.run hr) ih hm

lemma Move.said {Γ : Rules} {v w : View} (h : Move Γ v w) : ∃ ms, w.said = (v.log ms).said := by
  have hquiet : v.said = (v.log []).said := by rw [View.log_nil]
  cases h with
  | applied | late | ignored | notice => exact ⟨_, rfl⟩
  | answered | session | overtaken | asked | welcomed => exact ⟨_, View.said_log rfl _⟩
  | refused | opened | crossed | dropTold => exact ⟨_, View.said_log (v.said_drop _) _⟩
  | packet | transmit | transmitAck | beacon | rebind | shutDown => exact ⟨[], hquiet⟩
  | lostCrossing id | dropEnded id => exact ⟨[], (v.said_drop id).trans hquiet⟩

end NetLink.NetworkEngine
