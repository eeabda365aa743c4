import NetLink.Engine.Runs.Datagrams
import NetLink.EnginePair.Ledger

/-! What a move of one engine leaves of the ledgers of both, and in which order the two open their links. -/

namespace NetLink.NetworkEngine

open Net (SocketAddress)
open Channel (ReliableLink OutboundMessage Packet TimePoint Host decodePacket)
open Session (ControlType)

variable {Γ : Rules} {v v' w : View} {id : PeerId} {s s' : SessionView} {p q : Packet} {l : ReliableLink}
  {next : Option OutboundMessage} {xs : List UInt32}

lemma Newborn.tagged (hl : Newborn l) : l.Tagged := by
  intro q hq
  rw [hl.streams.2.2.2] at hq
  cases hq

lemma backed_asking (id : PeerId) (hl : Newborn l)
    (hfresh : ∀ p, v.Wrote p → p.header.srcStreamID ≠ l.mLocalStreamID) (address : SocketAddress) : Backed v w id
      { address := address, link := l, control := [v.helloMessage id], initiator := true, announced := true } where
  nonzero := hl.streams.2.2.1
  known r hr := by simp [hl.streams.1] at hr
  sent p hp hs := absurd hs (hfresh p hp)
  asks _ r hr := by simp [hl.streams.1] at hr
  replies hi := by cases hi
  connected hc := by cases hc
  tagged := hl.tagged
  queues := by
    refine ⟨_, .newborn hl (by simpa using length_helloMessage v id), ?_, by simp⟩
    intro m hm _
    exact ⟨rfl, List.mem_singleton.mp hm⟩

lemma backed_newcomer (hl : Newborn l) (hfresh : ∀ p, v.Wrote p → p.header.srcStreamID ≠ l.mLocalStreamID)
    (origin : SocketAddress) (hp : w.Wrote p) (hw : Posted w v p) (hh : v.Hails origin id p) (now : TimePoint) :
    Backed v w id (newcomer origin l p now) := by
  have ht : l.Takes p := ⟨hl.streams.2.1, .inl hh.dst, .inl hl.streams.1⟩
  have hlocal : (newcomer origin l p now).link.mLocalStreamID = l.mLocalStreamID :=
    ReliableLink.local_onPacket p now
  have hremote : (newcomer origin l p now).link.mRemoteStreamID = some p.header.srcStreamID :=
    congrArg (·.2.1) (ReliableLink.ends_onPacket now ht)
  obtain ⟨hello, hdecode, hfrom, hto⟩ := hh.hello
  obtain ⟨hid, ho⟩ := hw.hello hh.dst hh.first hello hdecode
  refine ⟨?_, ?_, ?_, nofun, ?_, nofun, hl.tagged.onPacket p now, ?_⟩
  · rw [hlocal]
    exact hl.streams.2.2.1
  · intro r hr
    obtain rfl := Option.some.inj (hremote.symm.trans hr)
    rw [hto] at ho
    exact ⟨hp.source_ne_zero, hfrom.symm.trans hid, ho, p, hp, rfl, .inr ⟨hh.dst, hh.first⟩⟩
  · intro q hq hqs
    exact absurd (hqs.trans hlocal) (hfresh q hq)
  · refine fun _ => ⟨by rw [hremote]; rfl, fun q hq hqs => ?_⟩
    exact absurd (hqs.trans hlocal) (hfresh q hq)
  · refine ⟨[], ?_, by simp, nofun⟩
    rw [hlocal]
    exact (Serves.newborn hl (by simp)).onPacket (.inl ⟨hh.dst, hh.first⟩) now

lemma Backed.accepted {m : OutboundMessage} (h : Backed v w id s) (hm : Follows m) :
    Backed v w id (s.accepted m) :=
  h.update rfl rfl nofun h.tagged (h.queues.queue hm rfl rfl rfl)

lemma fresh_of_opening (h : Ledger v w) (id : PeerId) (x : UInt32)
    (ho : openings v'.history = openings v.history ++ [(id, x)]) (hd : v'.Distinct) :
    ∀ p, v.Wrote p → p.header.srcStreamID ≠ x := by
  rintro p hp rfl
  obtain ⟨j, hj⟩ := (h.posted p hp).opened
  rw [View.Distinct, ho, List.map_append, List.nodup_append] at hd
  exact hd.2.2 _ (List.mem_map_of_mem hj) _ (by simp) rfl

lemma View.Routes.cases (hs : Sound v) (h : v.sessions id = some s) (hr : v.Routes id s p) :
    p.header.dstStreamID = 0 ∧ isFirstPacket p = true ∧ s.link.mRemoteStreamID = some p.header.srcStreamID ∨
      p.header.dstStreamID = s.link.mLocalStreamID := by
  by_cases h0 : p.header.dstStreamID = 0
  · rw [View.Routes, if_pos h0] at hr
    exact .inl ⟨h0, hr⟩
  · exact .inr ((hs.dst_of_routes h hr).resolve_left h0)

lemma SessionMove.quiet {ms : List Mark} (h : SessionMove id s s' ms) : ∀ m ∈ ms, m.opening = none := by
  have hfarewell : ∀ reason, ∀ m ∈ s.farewell id reason, m.opening = none := by
    intro reason m hm
    rw [SessionView.farewell] at hm
    split at hm
    · rw [List.mem_singleton.mp hm]
      rfl
    · cases hm
  cases h with
  | drain | letGo | link | peek => simp
  | tell reason | decline m reason | goodbye m reason | finish reason => exact hfarewell reason
  | accepted info | settled info => simp [connectedMark, Mark.opening]
  | message event => simp [Mark.opening]

lemma streams_of_committed {lane : Channel.Lane} {now : TimePoint} :
    (s.committed lane next now).link.mLocalStreamID = s.link.mLocalStreamID ∧
      (s.committed lane next now).link.mRemoteStreamID = s.link.mRemoteStreamID :=
  ⟨congrArg Prod.fst (streams_committed s lane next now), congrArg Prod.snd (streams_committed s lane next now)⟩

lemma Backed.committed {lane : Channel.Lane} (h : Backed v w id s)
    (hn : s.Supplies lane next) (hp : (s.link.peek Host.single lane next).1 = some p) (now : TimePoint) :
    Backed v w id (s.committed lane next now) := by
  have hends : (s.committed lane next now).link.ends = s.link.ends :=
    (ReliableLink.ends_commit now).trans (ReliableLink.ends_of_aside (ReliableLink.aside_peek _ next))
  exact h.update (streams_committed s lane next now) rfl h.connected (h.tagged.congr hends)
    (h.queues.relink (fun queued hs => hs.commit hn hp now) streams_of_committed.1 rfl rfl)

lemma Ledger.move (h : Ledger v w) (hw : Ledger w v) (hs : Sound v)
    (hΓ : ∀ origin p, Γ.incoming origin p → w.Wrote p) (hd : v.Distinct) (hd' : v'.Distinct)
    (hm : Move Γ v v') : Ledger v' w := by
  have hquiet : ∀ {ms : List Mark}, (∀ m ∈ ms, m.opening = none) → Ledger (v.log ms) w := by
    intro ms hms
    refine h.rearrange (grows_log rfl rfl rfl rfl ms) (fun _ hp => hp) ?_ fun j t ht =>
      ⟨t, ht, rfl, h.backed j t ht⟩
    rw [View.history_log, openings_append, openings_quiet hms, List.append_nil]
  have hdropped : ∀ j, Ledger (v.drop j) w := by
    intro j
    have hdrop := h.drop j quiet_nil
    rwa [View.log_nil] at hdrop
  cases hm with
  | applied | late | ignored | notice => exact hquiet (by simp [Mark.opening])
  | answered c j t m hm hc ht => exact h.set (by simp [Mark.opening]) ht rfl ((h.backed j t ht).accepted hm)
  | refused j => exact h.drop j (by simp [Mark.opening, SessionView.disconnected])
  | dropTold j t reason ht =>
    have hm : SessionMove j t t.told.finished (t.farewell j reason) := .finish reason
    exact h.drop j hm.quiet
  | lostCrossing j | dropEnded j => exact hdropped j
  | session j t t' ms ht hm =>
    exact h.set hm.quiet ht (congrArg Prod.fst hm.streams) (hm.backed (h.backed j t ht) hw.posted)
  | packet j t p now ht hi hr =>
    have hk := (h.backed j t ht).onPacket hd (h.opened ht) (hΓ _ p hi) (hw.posted p (hΓ _ p hi))
      (hr.cases hs ht) now
    have hset := h.set quiet_nil ht (ReliableLink.local_onPacket p now) hk
    rwa [View.log_nil] at hset
  | overtaken j t p info ht hi hr hl hst hn ha he =>
    have hp := hΓ _ p hi
    -- A packet of another lane than Control is no first packet, so it names the link
    have hdst : p.header.dstStreamID = t.link.mLocalStreamID := by
      refine (hr.cases hs ht).resolve_left fun hfirst => hl ?_
      have hfirst := hfirst.2.1
      simp only [isFirstPacket, Bool.and_eq_true, beq_iff_eq] at hfirst
      exact hfirst.1.1.1.2
    have hk := h.backed j t ht
    have hremote := hk.source_of_reply hn hp hdst (hw.posted p hp)
    refine h.set (by simp [connectedMark, Mark.opening]) ht rfl ?_
    exact hk.update rfl rfl (fun _ => ⟨_, hremote, p, hp, rfl, hdst⟩) hk.tagged (hk.queues.congr rfl rfl rfl rfl)
  | opened j address l hn hb hl hx =>
    have ho : openings [Mark.applied .connect j, .opened j l.mLocalStreamID false] = [(j, l.mLocalStreamID)] := rfl
    have hfresh := fresh_of_opening (hdropped j) j l.mLocalStreamID
      (by rw [View.history_log, openings_append, ho]; rfl) hd'
    have hhello : (v.drop j).helloMessage j = v.helloMessage j := by
      rw [View.drop_eq]
      rfl
    have hk := backed_asking (w := w) j hl hfresh address
    rw [hhello] at hk
    exact (hdropped j).openSession ho hk
  | asked origin j p l now info hi hh hl hn ha hx =>
    have hlocal : (l.onPacket p now).mLocalStreamID = l.mLocalStreamID := ReliableLink.local_onPacket p now
    have ho : openings [Mark.opened j l.mLocalStreamID true, requestMark j info] = [(j, l.mLocalStreamID)] := rfl
    have hfresh := fresh_of_opening h j l.mLocalStreamID
      (by rw [View.history_log, openings_append, ho]; rfl) hd'
    have hk := backed_newcomer hl hfresh origin (hΓ _ p hi) (hw.posted p (hΓ _ p hi)) hh now
    refine h.openSession (by rw [ho]; simp [newcomer, hlocal]) ?_
    exact hk.update rfl rfl (fun hc => by cases hc) hk.tagged (hk.queues.congr rfl rfl rfl rfl)
  | welcomed origin j p l now m hm hi hh hl hn ha hx =>
    have hlocal : (l.onPacket p now).mLocalStreamID = l.mLocalStreamID := ReliableLink.local_onPacket p now
    have ho : openings [Mark.opened j l.mLocalStreamID true, .acceptQueued j] = [(j, l.mLocalStreamID)] := rfl
    have hfresh := fresh_of_opening h j l.mLocalStreamID
      (by rw [View.history_log, openings_append, ho]; rfl) hd'
    have hk := backed_newcomer hl hfresh origin (hΓ _ p hi) (hw.posted p (hΓ _ p hi)) hh now
    exact h.openSession (by rw [ho]; simp [newcomer, SessionView.accepted, hlocal]) (hk.accepted hm)
  | crossed origin j t p l now m hm hi hh hl ht hs' hq hx =>
    have hlocal : (l.onPacket p now).mLocalStreamID = l.mLocalStreamID := ReliableLink.local_onPacket p now
    have ho : openings [Mark.opened j l.mLocalStreamID true, .acceptQueued j] = [(j, l.mLocalStreamID)] := rfl
    have hfresh := fresh_of_opening (hdropped j) j l.mLocalStreamID
      (by rw [View.history_log, openings_append, ho]; rfl) hd'
    have hposted : Posted w (v.drop j) p := (hw.posted p (hΓ _ p hi)).grows grows_drop.toRemembers
    have hhails := hh.drop j []
    rw [View.log_nil] at hhails
    have hk := backed_newcomer hl hfresh origin (hΓ _ p hi) hposted hhails now
    have hannounced : Backed (v.drop j) w j { newcomer origin l p now with announced := true } :=
      hk.update rfl rfl (fun hc => by cases hc) hk.tagged (hk.queues.congr rfl rfl rfl rfl)
    exact (hdropped j).openSession (by rw [ho]; simp [newcomer, SessionView.accepted, hlocal])
      (hannounced.accepted hm)
  | transmit j t lane next now p posts ht hn hp hu =>
    have hk := h.backed j t ht
    obtain ⟨hsrc, hdst⟩ := ReliableLink.addressed_peek hp
    have hpost : Ledger { v with outbox := v.outbox ++ posts } w := by
      refine h.post hs ht fun u hu' q hq => ?_
      rw [(hu u hu').2] at hq
      have hsrc' := (Channel.source_of_decode hq).trans hsrc
      rw [← Channel.destination_of_decode hq] at hdst
      refine ⟨hk.posted (h.opened ht) hsrc' hdst fun hf => (hk.first hn hp hq hf).2, hsrc', hdst, fun hi => ?_⟩
      by_contra hf
      rw [(hk.first hn hp hq (by simpa using hf)).1] at hi
      cases hi
    have hset := hpost.set quiet_nil ht streams_of_committed.1 ((hpost.backed j t ht).committed hn hp now)
    rwa [View.log_nil] at hset
  | transmitAck j t p posts ht hp hu =>
    have hk := h.backed j t ht
    obtain ⟨⟨hsrc, hdst⟩, hkind⟩ := hk.tagged p hp
    refine h.post hs ht fun u hu' q hq => ?_
    rw [(hu u hu').2] at hq
    have hfirst : isFirstPacket q = false := by
      have hflags := Channel.flags_of_decode hq
      simp [isFirstPacket, hflags, hkind]
    have hsrc' := (Channel.source_of_decode hq).trans hsrc
    rw [← Channel.destination_of_decode hq] at hdst
    exact ⟨hk.posted (h.opened ht) hsrc' hdst (by simp [hfirst]), hsrc', hdst, fun _ => hfirst⟩
  | beacon u hb =>
    have hg : v.Grows (v.post u) := .of_append [u] [] rfl rfl rfl (List.append_nil _).symm
    refine h.rearrange hg ?_ rfl fun j t ht => ⟨t, ht, rfl, h.backed j t ht⟩
    rintro p ⟨u', hu', hn, hd⟩
    rcases List.mem_append.mp hu' with hu' | hu'
    · exact ⟨u', hu', hn, hd⟩
    · rw [List.mem_singleton.mp hu', hb] at hn
      cases hn
  | rebind | shutDown =>
    refine h.rearrange ?_ (fun _ hp => hp) rfl fun j t ht => ⟨t, ht, rfl, h.backed j t ht⟩
    exact .of_append [] [] rfl rfl (List.append_nil _).symm (List.append_nil _).symm

lemma before_concat {x y z : UInt32} (h : List.Sublist [x, y] (xs ++ [z])) :
    List.Sublist [x, y] xs ∨ x ∈ xs ∧ y = z := by
  obtain ⟨front, back, hsplit, hfront, hback⟩ := List.sublist_append_iff.mp h
  rcases List.sublist_singleton.mp hback with rfl | rfl
  · rw [List.append_nil] at hsplit
    exact .inl (hsplit ▸ hfront)
  · obtain ⟨rfl, rfl⟩ : [x] = front ∧ y = z := by
      simpa using List.append_inj' (show [x] ++ [y] = front ++ [z] from hsplit) rfl
    exact .inr ⟨hfront.subset (by simp), rfl⟩

lemma not_before_last {x y : UInt32} (hn : xs.Nodup) (hl : xs.getLast? = some x) :
    ¬List.Sublist [x, y] xs := by
  obtain ⟨init, rfl⟩ := List.getLast?_eq_some_iff.mp hl
  have hx : x ∉ init := by
    intro hx
    rw [List.nodup_append] at hn
    exact hn.2.2 x hx x (by simp) rfl
  intro hs
  rcases before_concat hs with hs | ⟨hs, -⟩
  · exact hx (hs.subset (by simp))
  · exact hx hs

lemma before_last {x y : UInt32} (hx : x ∈ xs) (hl : xs.getLast? = some y) (hne : x ≠ y) :
    List.Sublist [x, y] xs := by
  obtain ⟨init, rfl⟩ := List.getLast?_eq_some_iff.mp hl
  have hx : x ∈ init := (List.mem_append.mp hx).resolve_right fun h => hne (List.mem_singleton.mp h)
  exact (List.singleton_sublist.mpr hx).append (List.Sublist.refl [y])

def Uncrossed (v w : View) : Prop :=
  ∀ a' a b b', a ≠ 0 → b' ≠ 0 → List.Sublist [a', a] (v.linksTo w.id) → List.Sublist [b, b'] (w.linksTo v.id) →
    w.WritesTo b a → ¬v.WritesTo a' b'

lemma Uncrossed.symm (h : Uncrossed v w) : Uncrossed w v :=
  fun b b' a' a hb ha hbs has hv hw => h a' a b b' ha hb has hbs hw hv

lemma Move.distinct (hm : Move Γ v v') (hd : v'.Distinct) : v.Distinct := by
  obtain ⟨ms, hs⟩ := hm.said
  have hhistory : v'.history = v.history ++ ms := congrArg Prod.fst hs
  rw [View.Distinct, hhistory, openings_append, List.map_append] at hd
  exact hd.of_append_left

lemma Move.openings (hm : Move Γ v v') : openings v'.history = openings v.history ∨
    ∃ id x, openings v'.history = openings v.history ++ [(id, x)] := by
  have hquiet : ∀ {ms : List Mark}, (∀ m ∈ ms, m.opening = none) →
      NetworkEngine.openings (v.history ++ ms) = NetworkEngine.openings v.history := by
    intro ms hms
    rw [openings_append, openings_quiet hms, List.append_nil]
  cases hm with
  | applied | late | ignored | notice | answered => exact .inl (hquiet (by simp [Mark.opening]))
  | overtaken => exact .inl (hquiet (by simp [Mark.opening, connectedMark]))
  | session _ _ _ _ _ hm => exact .inl (hquiet hm.quiet)
  | refused j =>
    left
    rw [View.history_log, View.history_drop]
    exact hquiet (by simp [Mark.opening, SessionView.disconnected])
  | dropTold j t reason =>
    left
    rw [View.history_log, View.history_drop]
    have hm : SessionMove j t t.told.finished (t.farewell j reason) := .finish reason
    exact hquiet hm.quiet
  | lostCrossing | dropEnded => exact .inl (congrArg NetworkEngine.openings (v.history_drop _))
  | opened j address l =>
    refine .inr ⟨j, l.mLocalStreamID, ?_⟩
    rw [View.history_log, openings_append]
    exact congrArg (NetworkEngine.openings · ++ _) (v.history_drop j)
  | crossed origin j t p l =>
    refine .inr ⟨j, l.mLocalStreamID, ?_⟩
    rw [View.history_log, openings_append]
    exact congrArg (NetworkEngine.openings · ++ _) (v.history_drop j)
  | asked origin j p l | welcomed origin j p l => exact .inr ⟨j, l.mLocalStreamID, openings_append _ _⟩
  | packet | transmit | transmitAck | beacon | rebind | shutDown => exact .inl rfl

lemma Move.wrote (h : Ledger v w) (hm : Move Γ v v') (hp : v'.Wrote p) :
    v.Wrote p ∨ ∃ j s, v.sessions j = some s ∧ p.header.srcStreamID = s.link.mLocalStreamID := by
  have hposted : ∀ {posts : List Sent}, (∃ u ∈ v.outbox ++ posts, Discovery.isBeacon u.bytes = false ∧
      decodePacket u.bytes = some p) → v.Wrote p ∨ ∃ u ∈ posts, Discovery.isBeacon u.bytes = false ∧
      decodePacket u.bytes = some p := by
    rintro posts ⟨u, hu, hn⟩
    exact (List.mem_append.mp hu).imp (fun hu => ⟨u, hu, hn⟩) fun hu => ⟨u, hu, hn⟩
  cases hm with
  | refused j | opened j | crossed _ j | dropTold j | lostCrossing j | dropEnded j =>
    left
    have hdrop : (v.drop j).Wrote p := hp
    rwa [View.Wrote, View.drop_eq] at hdrop
  | transmit j s lane next now q posts hs hn hq hu =>
    refine (hposted hp).imp_right ?_
    rintro ⟨u, hu', -, hd⟩
    rw [(hu u hu').2] at hd
    exact ⟨j, s, hs, (Channel.source_of_decode hd).trans (ReliableLink.addressed_peek hq).1⟩
  | transmitAck j s q posts hs hq hu =>
    refine (hposted hp).imp_right ?_
    rintro ⟨u, hu', -, hd⟩
    rw [(hu u hu').2] at hd
    exact ⟨j, s, hs, (Channel.source_of_decode hd).trans ((h.backed j s hs).tagged q hq).1.1⟩
  | beacon u hb =>
    refine .inl ((hposted hp).resolve_right ?_)
    rintro ⟨u', hu', hn, -⟩
    rw [List.mem_singleton.mp hu', hb] at hn
    cases hn
  | _ => exact .inl hp

lemma Uncrossed.move (h : Uncrossed v w) (hl : Ledger v w) (hw : Ledger w v) (hd' : v'.Distinct)
    (hm : Move Γ v v') :
    Uncrossed v' w := by
  have hd := hm.distinct hd'
  rintro a' a b b' ha hb has hbs ⟨p, hp, rfl, rfl⟩ ⟨q, hq, rfl, rfl⟩
  obtain ⟨-, hopened, -⟩ := (hw.posted p hp).answer ha
  rw [hm.grows.id] at hbs
  have has : List.Sublist [q.header.srcStreamID, p.header.dstStreamID] (v.linksTo w.id) := by
    rcases hm.openings with ho | ⟨id, x, ho⟩
    · rwa [View.linksTo, ho] at has
    · have hnodup := hd'.linksTo w.id
      rw [linksTo_opened ho] at has hnodup
      split at has
      · next hid =>
        rw [if_pos hid] at hnodup
        rcases before_concat has with has | ⟨-, hx⟩
        · exact has
        · rw [List.nodup_append] at hnodup
          exact absurd rfl (hnodup.2.2 _ (mem_linksTo.mpr hopened) _ (by simp [hx]))
      · rwa [List.append_nil] at has
  rcases hm.wrote hl hq with hq | ⟨j, s, hs, hsrc⟩
  · exact h _ _ _ _ ha hb has hbs ⟨p, hp, rfl, rfl⟩ ⟨q, hq, rfl, rfl⟩
  · -- The link that writes is the last one the engine opened for the other
    have hlast := hl.latest j s hs
    rw [← hsrc] at hlast
    have hj : j = w.id := hd.eq (hsrc ▸ hl.opened hs) (mem_linksTo.mp (has.subset (by simp)))
    rw [hj] at hlast
    exact not_before_last (hd.linksTo w.id) hlast has

lemma paired {t : SessionView} (hv : Ledger v w) (hw : Ledger w v) (hu : Uncrossed v w)
    (hs : v.sessions w.id = some s) (ht : w.sessions v.id = some t) (hsc : s.state = .connected)
    (htc : t.state = .connected) : s.link.mRemoteStreamID = some t.link.mLocalStreamID ∧
      t.link.mRemoteStreamID = some s.link.mLocalStreamID := by
  have hks := hv.backed _ s hs
  have hkt := hw.backed _ t ht
  obtain ⟨r, hr, hra⟩ := hks.connected hsc
  obtain ⟨r', hr', hra'⟩ := hkt.connected htc
  have hleft : r = t.link.mLocalStreamID → r' = s.link.mLocalStreamID := by
    rintro rfl
    obtain ⟨p, hp, hps, hpd⟩ := hra
    have hsent := (hkt.sent p hp hps).resolve_left (by rw [hpd]; exact hks.nonzero)
    exact Option.some.inj (hr'.symm.trans (hsent.trans (congrArg some hpd)))
  have hright : r' = s.link.mLocalStreamID → r = t.link.mLocalStreamID := by
    rintro rfl
    obtain ⟨p, hp, hps, hpd⟩ := hra'
    have hsent := (hks.sent p hp hps).resolve_left (by rw [hpd]; exact hkt.nonzero)
    exact Option.some.inj (hr.symm.trans (hsent.trans (congrArg some hpd)))
  have hone : r = t.link.mLocalStreamID := by
    by_contra hne
    have hne' : r' ≠ s.link.mLocalStreamID := fun h => hne (hright h)
    refine hu r' s.link.mLocalStreamID r t.link.mLocalStreamID hks.nonzero hkt.nonzero ?_ ?_ hra hra'
    · exact before_last (mem_linksTo.mpr (hkt.known r' hr').2.2.1) (hv.latest _ s hs) hne'
    · exact before_last (mem_linksTo.mpr (hks.known r hr).2.2.1) (hw.latest _ t ht) hne
  rw [hr, hr', hone, hleft hone]
  exact ⟨rfl, rfl⟩

end NetLink.NetworkEngine
