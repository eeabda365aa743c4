import NetLink.Engine.Sound
import NetLink.EnginePair.Letters

/-! Two engines that hear nobody but each other. What one of them knows of a link of the other it read in a packet
the other wrote, and every record can name the packets that made it what it is. -/

namespace NetLink.NetworkEngine

open Net (SocketAddress)
open Channel (ReliableLink OutboundMessage Packet TimePoint Host decodePacket MaxMessagePayload)
open Session (ControlType)

def Mark.opening : Mark → Option (PeerId × UInt32)
  | .opened peer x _ => some (peer, x)
  | _ => none

def openings (history : List Mark) : List (PeerId × UInt32) := history.filterMap Mark.opening

namespace View

def Wrote (v : View) (p : Packet) : Prop :=
  ∃ u ∈ v.outbox, Discovery.isBeacon u.bytes = false ∧ decodePacket u.bytes = some p

def Opened (v : View) (id : PeerId) (x : UInt32) : Prop := (id, x) ∈ openings v.history

def linksTo (v : View) (id : PeerId) : List UInt32 :=
  ((openings v.history).filter (·.1 == id)).map Prod.snd

def WritesTo (v : View) (x y : UInt32) : Prop :=
  ∃ p, v.Wrote p ∧ p.header.srcStreamID = x ∧ p.header.dstStreamID = y

def Distinct (v : View) : Prop := ((openings v.history).map Prod.snd).Nodup

structure Remembers (v v' : View) : Prop where
  id : v'.id = v.id
  wrote : ∀ p, v.Wrote p → v'.Wrote p
  opened : ∀ id x, v.Opened id x → v'.Opened id x

structure Grows (v v' : View) : Prop extends Remembers v v' where
  identity : v'.identity = v.identity

end View

/-- What a packet says about the engines: the link it comes from was opened, for the engine a Hello is to; and the
link it is for was opened by the other engine, which had written to this one before. -/
structure Posted (v w : View) (p : Packet) : Prop where
  opened : ∃ id, v.Opened id p.header.srcStreamID
  hello : p.header.dstStreamID = 0 → isFirstPacket p = true → ∀ hello, Session.decodeHello p.body = some hello →
    hello.fromInstance = v.id ∧ v.Opened hello.toInstance p.header.srcStreamID
  answer : p.header.dstStreamID ≠ 0 → v.Opened w.id p.header.srcStreamID ∧ w.Opened v.id p.header.dstStreamID ∧
    ∃ q, w.Wrote q ∧ q.header.srcStreamID = p.header.dstStreamID ∧
      (q.header.dstStreamID = p.header.srcStreamID ∨ q.header.dstStreamID = 0 ∧ isFirstPacket q = true)

def Reaching (w : View) (x : UInt32) (p : Packet) : Prop :=
  p.header.dstStreamID = 0 ∧ isFirstPacket p = true ∨ w.Wrote p ∧ p.header.dstStreamID = x

def Queues (v w : View) (id : PeerId) (s : SessionView) : Prop :=
  ∃ queued, Serves (Reaching w s.link.mLocalStreamID) queued s.link s.control ∧
    (∀ m ∈ queued, m.tag = ControlType.hello.tag → s.initiator = true ∧ m = v.helloMessage id) ∧
    (s.acceptSent = true → queued ≠ [])

structure Backed (v w : View) (id : PeerId) (s : SessionView) : Prop where
  nonzero : s.link.mLocalStreamID ≠ 0
  known : ∀ r, s.link.mRemoteStreamID = some r → r ≠ 0 ∧ id = w.id ∧ w.Opened v.id r ∧
    ∃ q, w.Wrote q ∧ q.header.srcStreamID = r ∧
      (q.header.dstStreamID = s.link.mLocalStreamID ∨ q.header.dstStreamID = 0 ∧ isFirstPacket q = true)
  sent : ∀ p, v.Wrote p → p.header.srcStreamID = s.link.mLocalStreamID →
    p.header.dstStreamID = 0 ∨ s.link.mRemoteStreamID = some p.header.dstStreamID
  asks : s.initiator = true → ∀ r, s.link.mRemoteStreamID = some r → w.WritesTo r s.link.mLocalStreamID
  replies : s.initiator = false → s.link.mRemoteStreamID.isSome ∧
    ∀ p, v.Wrote p → p.header.srcStreamID = s.link.mLocalStreamID → isFirstPacket p = false
  connected : s.state = .connected →
    ∃ r, s.link.mRemoteStreamID = some r ∧ w.WritesTo r s.link.mLocalStreamID
  tagged : s.link.Tagged
  queues : Queues v w id s

structure Ledger (v w : View) : Prop where
  posted : ∀ p, v.Wrote p → Posted v w p
  backed : ∀ id s, v.sessions id = some s → Backed v w id s
  latest : ∀ id s, v.sessions id = some s → (v.linksTo id).getLast? = some s.link.mLocalStreamID

variable {Γ : Rules} {v v' w w' : View} {id : PeerId} {s s' : SessionView} {p q : Packet} {ms : List Mark}
  {x : UInt32}

lemma openings_append (history more : List Mark) :
    openings (history ++ more) = openings history ++ openings more :=
  List.filterMap_append

lemma openings_quiet (h : ∀ m ∈ ms, m.opening = none) : openings ms = [] :=
  List.filterMap_eq_nil_iff.mpr h

lemma quiet_nil : ∀ m ∈ ([] : List Mark), m.opening = none := by simp

lemma View.Wrote.source_ne_zero (h : v.Wrote p) : p.header.srcStreamID ≠ 0 := by
  obtain ⟨u, -, -, hd⟩ := h
  exact (Channel.decodePacket_spec hd).2.1.source

lemma View.Distinct.eq (h : v.Distinct) {i j : PeerId} (hi : v.Opened i x)
    (hj : v.Opened j x) : i = j :=
  congrArg Prod.fst (List.inj_on_of_nodup_map h hi hj rfl)

lemma mem_linksTo : x ∈ v.linksTo id ↔ v.Opened id x := by
  simp [View.linksTo, View.Opened]

lemma View.Distinct.linksTo (h : v.Distinct) (id : PeerId) : (v.linksTo id).Nodup :=
  h.sublist (List.filter_sublist.map Prod.snd)

lemma linksTo_opened (h : openings v'.history = openings v.history ++ [(id, x)]) (j : PeerId) :
    v'.linksTo j = v.linksTo j ++ if id = j then [x] else [] := by
  rw [View.linksTo, h, List.filter_append, List.map_append, View.linksTo]
  by_cases hj : id = j <;> simp [hj]

lemma Ledger.opened (h : Ledger v w) (hs : v.sessions id = some s) : v.Opened id s.link.mLocalStreamID :=
  mem_linksTo.mp (List.mem_of_getLast? (h.latest id s hs))

lemma Posted.grows (h : Posted v w p) (hg : w.Remembers w') : Posted v w' p where
  opened := h.opened
  hello := h.hello
  answer hd := by
    obtain ⟨ho, hw, q, hq, hqd⟩ := h.answer hd
    rw [hg.id]
    exact ⟨ho, hg.opened _ _ hw, q, hg.wrote q hq, hqd⟩

lemma View.WritesTo.grows {x y : UInt32} (h : w.WritesTo x y) (hg : w.Remembers w') : w'.WritesTo x y := by
  obtain ⟨p, hp, hd⟩ := h
  exact ⟨p, hg.wrote p hp, hd⟩

lemma Reaching.grows (h : Reaching w x p) (hg : w.Remembers w') : Reaching w' x p :=
  h.imp_right fun h => ⟨hg.wrote p h.1, h.2⟩

lemma Backed.grows (h : Backed v w id s) (hg : w.Remembers w') : Backed v w' id s where
  nonzero := h.nonzero
  known r hr := by
    obtain ⟨hne, hid, ho, q, hq, hqd⟩ := h.known r hr
    rw [hg.id]
    exact ⟨hne, hid, hg.opened _ _ ho, q, hg.wrote q hq, hqd⟩
  sent := h.sent
  asks hi r hr := (h.asks hi r hr).grows hg
  replies := h.replies
  connected hc := by
    obtain ⟨r, hr, ha⟩ := h.connected hc
    exact ⟨r, hr, ha.grows hg⟩
  tagged := h.tagged
  queues := by
    obtain ⟨queued, hs, hq⟩ := h.queues
    exact ⟨queued, hs.mono fun p hp => hp.grows hg, hq⟩

lemma Ledger.grows (h : Ledger v w) (hg : w.Remembers w') : Ledger v w' where
  posted p hp := (h.posted p hp).grows hg
  backed id s hs := (h.backed id s hs).grows hg
  latest := h.latest

lemma Backed.congr (h : Backed v w id s) (hg : v.Grows v') (ho : ∀ p, v'.Wrote p → v.Wrote p) :
    Backed v' w id s := by
  have hhello : v'.helloMessage = v.helloMessage := by
    funext j
    rw [View.helloMessage, View.helloMessage, View.hello, View.hello, hg.id, hg.identity]
  obtain ⟨hn, hk, hs, ha, hr, hc, ht, hq⟩ := h
  refine ⟨hn, ?_, fun p hp => hs p (ho p hp), ha, fun hi =>
    ⟨(hr hi).1, fun p hp => (hr hi).2 p (ho p hp)⟩, hc, ht, ?_⟩
  · rwa [hg.id]
  · rw [Queues, hhello]
    exact hq

lemma Backed.source_of_reply (h : Backed v w id s) (hi : s.initiator = false) (hp : w.Wrote p)
    (hd : p.header.dstStreamID = s.link.mLocalStreamID) (hw : Posted w v p) :
    s.link.mRemoteStreamID = some p.header.srcStreamID := by
  obtain ⟨-, -, q, hq, hqs, hqd⟩ := hw.answer (by rw [hd]; exact h.nonzero)
  rw [hd] at hqs
  rcases hqd with hqd | ⟨-, hf⟩
  · rw [← hqd]
    exact (h.sent q hq hqs).resolve_left (by rw [hqd]; exact hp.source_ne_zero)
  · rw [(h.replies hi).2 q hq hqs] at hf
    cases hf

lemma LinkCall.tagged {l l' : ReliableLink} (h : l.Tagged) (hl : LinkCall l l') : l'.Tagged := by
  cases hl with
  | budget | takeDelivered => exact h
  | onTimer now => exact h.onTimer now
  | setPaused paused => exact h.congr (ReliableLink.ends_of_aside (ReliableLink.aside_setPaused paused))
  | peekAck => exact h.peekAck
  | commitAck => exact h.commitAck

lemma Backed.update (h : Backed v w id s) (hst : s'.link.streams = s.link.streams)
    (hi : s'.initiator = s.initiator)
    (hc : s'.state = .connected → ∃ r, s.link.mRemoteStreamID = some r ∧ w.WritesTo r s.link.mLocalStreamID)
    (ht : s'.link.Tagged) (hq : Queues v w id s') : Backed v w id s' := by
  have hlocal : s'.link.mLocalStreamID = s.link.mLocalStreamID := congrArg Prod.fst hst
  have hremote : s'.link.mRemoteStreamID = s.link.mRemoteStreamID := congrArg Prod.snd hst
  obtain ⟨hn, hk, hs, ha, hr, -, -, -⟩ := h
  refine ⟨?_, ?_, ?_, ?_, ?_, ?_, ht, hq⟩
  · rwa [hlocal]
  · rwa [hremote, hlocal]
  · rwa [hremote, hlocal]
  · rwa [hi, hremote, hlocal]
  · rwa [hi, hremote, hlocal]
  · rwa [hremote, hlocal]

namespace Queues

lemma congr (h : Queues v w id s) (hl : s'.link = s.link) (hc : s'.control = s.control)
    (hi : s'.initiator = s.initiator) (ha : s'.acceptSent = s.acceptSent) : Queues v w id s' := by
  rw [Queues, hl, hc, hi, ha]
  exact h

lemma queue {m : OutboundMessage} (h : Queues v w id s) (hm : Follows m) (hl : s'.link = s.link)
    (hc : s'.control = s.control ++ [m]) (hi : s'.initiator = s.initiator) : Queues v w id s' := by
  obtain ⟨queued, hs, hq, -⟩ := h
  rw [Queues, hl, hc, hi]
  refine ⟨queued ++ [m], hs.queue hm.2, ?_, by simp⟩
  intro m' hm' htag
  rcases List.mem_append.mp hm' with hm' | hm'
  · exact hq m' hm' htag
  · rw [List.mem_singleton.mp hm'] at htag
    exact absurd htag hm.1

lemma relink (h : Queues v w id s)
    (hs : ∀ queued, Serves (Reaching w s.link.mLocalStreamID) queued s.link s.control →
      Serves (Reaching w s.link.mLocalStreamID) queued s'.link s'.control)
    (hl : s'.link.mLocalStreamID = s.link.mLocalStreamID) (hi : s'.initiator = s.initiator)
    (ha : s'.acceptSent = s.acceptSent) : Queues v w id s' := by
  obtain ⟨queued, h, hq⟩ := h
  rw [Queues, hl, hi, ha]
  exact ⟨queued, hs queued h, hq⟩

end Queues

lemma SessionMove.backed (h : Backed v w id s) (hw : ∀ p, w.Wrote p → Posted w v p)
    (hm : SessionMove id s s' ms) : Backed v w id s' := by
  cases hm with
  | drain => exact h.update rfl rfl nofun h.tagged (h.queues.congr rfl rfl rfl rfl)
  | tell | finish | letGo | message =>
    exact h.update rfl rfl h.connected h.tagged (h.queues.congr rfl rfl rfl rfl)
  | decline m reason hm | goodbye m reason hm =>
    exact h.update rfl rfl nofun h.tagged (h.queues.queue hm rfl rfl rfl)
  | accepted info hs he hr =>
    refine h.update rfl rfl (fun _ => ?_) h.tagged (h.queues.congr rfl rfl rfl rfl)
    obtain ⟨r, hr⟩ := Option.isSome_iff_exists.mp hr
    exact ⟨r, hr, h.asks hs.2 r hr⟩
  | settled info hs hi ha he hc hp hf =>
    refine h.update rfl rfl (fun _ => ?_) h.tagged (h.queues.congr rfl rfl rfl rfl)
    -- The Accept was acknowledged, by a packet for this link
    obtain ⟨queued, hserves, -, hne⟩ := h.queues
    rw [hc] at hserves
    obtain ⟨p, hp, hk⟩ := hserves.answered (hne ha) hp hf
    rcases hp with ⟨-, hfirst⟩ | ⟨hp, hd⟩
    · simp [isFirstPacket, hk] at hfirst
    · exact ⟨_, h.source_of_reply hi hp hd (hw p hp), p, hp, rfl, hd⟩
  | link l hl =>
    have hst : l.streams = s.link.streams := hl.streams
    exact h.update hst rfl h.connected (hl.tagged h.tagged)
      (h.queues.relink (fun queued hs => hs.call hl) (congrArg Prod.fst hst) rfl rfl)
  | peek lane next hn =>
    have hst := streams_peeked s lane next
    have ha : (s.peeked lane next).link.aside = s.link.aside := ReliableLink.aside_peek _ next
    exact h.update hst rfl h.connected (h.tagged.congr (ReliableLink.ends_of_aside ha))
      (h.queues.relink (fun queued hs => hs.peek hn) (congrArg Prod.fst hst) rfl rfl)

lemma Backed.onPacket (h : Backed v w id s) (hd : v.Distinct) (ho : v.Opened id s.link.mLocalStreamID)
    (hp : w.Wrote p) (hw : Posted w v p)
    (hr : p.header.dstStreamID = 0 ∧ isFirstPacket p = true ∧ s.link.mRemoteStreamID = some p.header.srcStreamID ∨
      p.header.dstStreamID = s.link.mLocalStreamID) (now : TimePoint) :
    Backed v w id (s.withLink (s.link.onPacket p now)) := by
  have hlocal := ReliableLink.local_onPacket (l := s.link) p now
  have hreaching : Reaching w s.link.mLocalStreamID p := by
    rcases hr with ⟨h0, hf, -⟩ | hr
    · exact .inl ⟨h0, hf⟩
    · exact .inr ⟨hp, hr⟩
  have hqueues : Queues v w id (s.withLink (s.link.onPacket p now)) :=
    h.queues.relink (fun queued hs => hs.onPacket hreaching now) hlocal rfl rfl
  have htagged := h.tagged.onPacket p now
  by_cases hsame : (s.link.onPacket p now).mRemoteStreamID = s.link.mRemoteStreamID
  · exact h.update (Prod.ext hlocal hsame) rfl h.connected htagged hqueues
  -- The first packet a link receives tells it whom it talks to
  have ht : s.link.Takes p := by
    by_contra ht
    obtain ⟨stats, he⟩ := ReliableLink.onPacket_of_not_takes now ht
    exact hsame (by rw [he])
  have hremote : (s.link.onPacket p now).mRemoteStreamID = some p.header.srcStreamID :=
    congrArg (·.2.1) (ReliableLink.ends_onPacket now ht)
  have hnone : s.link.mRemoteStreamID = none :=
    ht.2.2.resolve_right fun hs => hsame (hremote.trans hs.symm)
  have hdst : p.header.dstStreamID = s.link.mLocalStreamID :=
    hr.resolve_left fun hr => by simp [hnone] at hr
  obtain ⟨hfrom, hto, -⟩ := hw.answer (by rw [hdst]; exact h.nonzero)
  have hanswers : w.WritesTo p.header.srcStreamID s.link.mLocalStreamID := ⟨p, hp, rfl, hdst⟩
  refine ⟨?_, ?_, ?_, ?_, ?_, ?_, htagged, hqueues⟩
  · rw [SessionView.withLink, hlocal]
    exact h.nonzero
  · intro r hr
    obtain rfl := Option.some.inj (hremote.symm.trans hr)
    rw [hdst] at hto
    refine ⟨hp.source_ne_zero, hd.eq ho hto, hfrom, p, hp, rfl, .inl ?_⟩
    rw [hdst, SessionView.withLink, hlocal]
  · intro q hq hqs
    rw [SessionView.withLink, hlocal] at hqs
    exact .inl ((h.sent q hq hqs).resolve_right (by simp [hnone]))
  · intro _ r hr
    obtain rfl := Option.some.inj (hremote.symm.trans hr)
    rw [SessionView.withLink, hlocal]
    exact hanswers
  · intro hi
    have hsome := (h.replies hi).1
    simp [hnone] at hsome
  · intro hc
    obtain ⟨r, hr, -⟩ := h.connected hc
    simp [hnone] at hr

lemma View.Grows.of_append (posts : List Sent) (ms : List Mark) (hi : v'.id = v.id) (hd : v'.identity = v.identity)
    (ho : v'.outbox = v.outbox ++ posts) (hh : v'.history = v.history ++ ms) : v.Grows v' where
  id := hi
  identity := hd
  wrote p hp := by
    obtain ⟨u, hu, hp⟩ := hp
    exact ⟨u, by rw [ho]; exact List.mem_append_left _ hu, hp⟩
  opened id x hx := by
    rw [Opened, hh, openings_append]
    exact List.mem_append_left _ hx

lemma grows_log (hi : v'.id = v.id) (hd : v'.identity = v.identity) (ho : v'.outbox = v.outbox)
    (hh : v'.history = v.history) (ms : List Mark) : v.Grows (v'.log ms) :=
  .of_append [] ms hi hd (by rw [List.append_nil]; exact ho) (by rw [View.history_log, hh])

lemma View.Grows.trans {u : View} (h : v.Grows v') (h' : v'.Grows u) : v.Grows u where
  id := h'.id.trans h.id
  identity := h'.identity.trans h.identity
  wrote p hp := h'.wrote p (h.wrote p hp)
  opened id x hx := h'.opened id x (h.opened id x hx)

lemma grows_drop : v.Grows (v.drop id) := by
  have hdrop : v.Grows ((v.drop id).log []) := by
    refine grows_log ?_ ?_ ?_ (v.history_drop id) [] <;> rw [View.drop_eq]
  rwa [View.log_nil] at hdrop

lemma grows_set (ms : List Mark) : v.Grows ((v.set id s).log ms) := by
  apply grows_log <;> rfl

lemma grows_open (ms : List Mark) : v.Grows ((v.openSession id s).log ms) := by
  apply grows_log <;> rfl

lemma Move.grows (h : Move Γ v v') : v.Grows v' := by
  obtain ⟨ms, hs⟩ := h.said
  have hhistory : v'.history = v.history ++ ms := congrArg Prod.fst hs
  cases h with
  | refused | dropTold => exact grows_drop.trans (grows_log rfl rfl rfl rfl _)
  | opened | crossed => exact grows_drop.trans (grows_open _)
  | lostCrossing | dropEnded => exact grows_drop
  | transmit _ _ _ _ _ _ posts | transmitAck _ _ _ posts => exact .of_append posts _ rfl rfl rfl hhistory
  | beacon u => exact .of_append [u] _ rfl rfl rfl hhistory
  | _ => exact .of_append [] _ rfl rfl (List.append_nil _).symm hhistory

namespace Ledger

lemma posted_grows (h : Ledger v w) (hg : v.Remembers v') (hp : v.Wrote p) : Posted v' w p where
  opened := by
    obtain ⟨id, ho⟩ := (h.posted p hp).opened
    exact ⟨id, hg.opened _ _ ho⟩
  hello h0 hf hello hh := by
    obtain ⟨hfrom, ho⟩ := (h.posted p hp).hello h0 hf hello hh
    exact ⟨by rw [hg.id, hfrom], hg.opened _ _ ho⟩
  answer hd := by
    obtain ⟨ho, hw, hq⟩ := (h.posted p hp).answer hd
    rw [hg.id]
    exact ⟨hg.opened _ _ ho, hw, hq⟩

lemma rearrange (h : Ledger v w) (hg : v.Grows v') (ho : ∀ p, v'.Wrote p → v.Wrote p)
    (hh : openings v'.history = openings v.history)
    (hs : ∀ id s', v'.sessions id = some s' → ∃ s, v.sessions id = some s ∧
      s'.link.mLocalStreamID = s.link.mLocalStreamID ∧ Backed v w id s') : Ledger v' w where
  posted p hp := h.posted_grows hg.toRemembers (ho p hp)
  backed id s' hs' := by
    obtain ⟨s, -, -, hk⟩ := hs id s' hs'
    exact hk.congr hg ho
  latest id s' hs' := by
    obtain ⟨s, hs, hl, -⟩ := hs id s' hs'
    rw [View.linksTo, hh, hl]
    exact h.latest id s hs

lemma set (h : Ledger v w) (hms : ∀ m ∈ ms, m.opening = none) (hs : v.sessions id = some s)
    (hl : s'.link.mLocalStreamID = s.link.mLocalStreamID) (hk : Backed v w id s') :
    Ledger ((v.set id s').log ms) w := by
  refine h.rearrange (grows_set ms) (fun _ hp => hp) ?_ fun j t ht => ?_
  · rw [View.history_log, openings_append, openings_quiet hms, List.append_nil, View.history_set]
  · rw [View.sessions_log] at ht
    by_cases hj : j = id
    · subst hj
      obtain rfl := Option.some.inj ((View.sessions_set v j s').symm.trans ht)
      exact ⟨s, hs, hl, hk⟩
    · rw [View.sessions_set_of_ne v id s' hj] at ht
      exact ⟨t, ht, rfl, h.backed j t ht⟩

lemma drop (h : Ledger v w) (id : PeerId) (hms : ∀ m ∈ ms, m.opening = none) :
    Ledger ((v.drop id).log ms) w := by
  refine h.rearrange (grows_drop.trans (grows_log rfl rfl rfl rfl ms)) ?_ ?_ fun j t ht => ?_
  · intro p hp
    rwa [View.Wrote, View.drop_eq] at hp
  · rw [View.history_log, openings_append, openings_quiet hms, List.append_nil, View.history_drop]
  · rw [View.sessions_log] at ht
    have hj : j ≠ id := by
      rintro rfl
      simp at ht
    rw [View.sessions_drop_of_ne v id hj] at ht
    exact ⟨t, ht, rfl, h.backed j t ht⟩

lemma openSession (h : Ledger v w) (hms : openings ms = [(id, s.link.mLocalStreamID)])
    (hk : Backed v w id s) :
    Ledger ((v.openSession id s).log ms) w := by
  have hg : v.Grows ((v.openSession id s).log ms) := grows_open ms
  have hhistory : openings ((v.openSession id s).log ms).history =
    openings v.history ++ [(id, s.link.mLocalStreamID)] := by
    rw [View.history_log, openings_append, hms]
    rfl
  refine ⟨fun p hp => h.posted_grows hg.toRemembers hp, fun j t ht => ?_, fun j t ht => ?_⟩ <;>
    rw [View.sessions_log] at ht
  · by_cases hj : j = id
    · subst hj
      obtain rfl := Option.some.inj ((View.sessions_openSession v j s).symm.trans ht)
      exact hk.congr hg fun _ hp => hp
    · rw [View.sessions_openSession_of_ne v id s hj] at ht
      exact (h.backed j t ht).congr hg fun _ hp => hp
  · by_cases hj : j = id
    · subst hj
      obtain rfl := Option.some.inj ((View.sessions_openSession v j s).symm.trans ht)
      rw [linksTo_opened hhistory, if_pos rfl, List.getLast?_concat]
    · rw [View.sessions_openSession_of_ne v id s hj] at ht
      rw [linksTo_opened hhistory, if_neg (Ne.symm hj), List.append_nil]
      exact h.latest j t ht

lemma post (h : Ledger v w) (hv : Sound v) (hs : v.sessions id = some s) {posts : List Sent}
    (hp : ∀ u ∈ posts, ∀ q, decodePacket u.bytes = some q → Posted v w q ∧
      q.header.srcStreamID = s.link.mLocalStreamID ∧
      (q.header.dstStreamID = 0 ∨ s.link.mRemoteStreamID = some q.header.dstStreamID) ∧
      (s.initiator = false → isFirstPacket q = false)) :
    Ledger { v with outbox := v.outbox ++ posts } w := by
  have hg : v.Grows { v with outbox := v.outbox ++ posts } :=
    .of_append posts [] rfl rfl rfl (List.append_nil _).symm
  have hwrote : ∀ q, View.Wrote { v with outbox := v.outbox ++ posts } q →
      v.Wrote q ∨ ∃ u ∈ posts, decodePacket u.bytes = some q := by
    rintro q ⟨u, hu, hn, hd⟩
    rcases List.mem_append.mp hu with hu | hu
    · exact .inl ⟨u, hu, hn, hd⟩
    · exact .inr ⟨u, hu, hd⟩
  -- No other record has the link the new datagrams come from
  have hown : ∀ j t, v.sessions j = some t → t.link.mLocalStreamID = s.link.mLocalStreamID → t = s := by
    intro j t ht hl
    have hroute := hv.routes j t ht
    rw [hl, hv.routes id s hs] at hroute
    obtain rfl := Option.some.inj hroute
    exact Option.some.inj (ht.symm.trans hs)
  refine ⟨fun q hq => ?_, fun j t ht => ?_, h.latest⟩
  · rcases hwrote q hq with hq | ⟨u, hu, hd⟩
    · exact h.posted_grows hg.toRemembers hq
    · obtain ⟨ho, hhello, hanswer⟩ := (hp u hu q hd).1
      exact ⟨ho, hhello, hanswer⟩
  · obtain ⟨hn, hk, hsent, ha, hr, hc, htag, hq⟩ := h.backed j t ht
    refine ⟨hn, hk, fun q hq hqs => ?_, ha, fun hi => ⟨(hr hi).1, fun q hq hqs => ?_⟩, hc, htag, hq⟩
    · rcases hwrote q hq with hq | ⟨u, hu, hd⟩
      · exact hsent q hq hqs
      · obtain ⟨-, hsrc, hdst, -⟩ := hp u hu q hd
        rw [hown j t ht (hqs.symm.trans hsrc)]
        exact hdst
    · rcases hwrote q hq with hq | ⟨u, hu, hd⟩
      · exact (hr hi).2 q hq hqs
      · obtain ⟨-, hsrc, -, hfirst⟩ := hp u hu q hd
        rw [hown j t ht (hqs.symm.trans hsrc)] at hi
        exact hfirst hi

end Ledger

lemma Backed.posted (h : Backed v w id s) (ho : v.Opened id s.link.mLocalStreamID)
    (hs : q.header.srcStreamID = s.link.mLocalStreamID)
    (hd : q.header.dstStreamID = 0 ∨ s.link.mRemoteStreamID = some q.header.dstStreamID)
    (hf : isFirstPacket q = true → q.body = (v.hello id).encode) : Posted v w q where
  opened := ⟨id, by rwa [hs]⟩
  hello _ hfirst hello hh := by
    rw [hf hfirst] at hh
    obtain ⟨hfrom, hto⟩ := instances_of_decodeHello hh
    refine ⟨hfrom, ?_⟩
    rw [hto, hs]
    exact ho
  answer hne := by
    obtain ⟨-, hid, how, q', hq', hqs, hqd⟩ := h.known _ (hd.resolve_left hne)
    rw [hs, ← hid]
    exact ⟨ho, how, q', hq', hqs, hqd⟩

lemma Backed.first {lane : Channel.Lane} {next : Option OutboundMessage} (h : Backed v w id s)
    (hn : s.Supplies lane next) (hp : (s.link.peek Host.single lane next).1 = some p)
    (hd : decodePacket p.bytes = some q) (hf : isFirstPacket q = true) :
    s.initiator = true ∧ q.body = (v.hello id).encode := by
  obtain ⟨queued, hserves, hhello, -⟩ := h.queues
  obtain ⟨m, hm, htag, hbody⟩ := hserves.first hn hp hd hf
  obtain ⟨hi, rfl⟩ := hhello m hm htag
  exact ⟨hi, hbody.symm⟩

end NetLink.NetworkEngine
