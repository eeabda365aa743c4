import NetLink.Channel.ReliableLink.Guarantees
import NetLink.Channel.ReliableLink.Peeks
import NetLink.Channel.ReliableLink.Reports

/-! A datagram that was offered and did not go out: it is offered again, and nothing else has changed. -/

namespace NetLink.Channel

namespace ReliableLink

variable {σ : Type} {next : MessageSource σ} {l : ReliableLink} {lane : Lane} {seq : ℕ} {e : InFlight}
  {looks : List (Option Lane)} {s : Stream}

def look (next : MessageSource σ) : ReliableLink × σ → Option Lane → ReliableLink × σ
  | (l, source), none => (l.peekAck.2, source)
  | (l, source), some lane => (l.peek next lane source).2

def lookAll (next : MessageSource σ) (state : ReliableLink × σ) (looks : List (Option Lane)) : ReliableLink × σ :=
  looks.foldl (look next) state

def recording (next : MessageSource σ) : MessageSource (σ × (Lane → List OutboundMessage)) := fun given lane =>
  ((next given.1 lane).1, (next given.1 lane).2,
    Function.update given.2 lane (given.2 lane ++ (next given.1 lane).1.toList))

lemma footing_look (state : ReliableLink × σ) (what : Option Lane) :
    (look next state what).1.footing = state.1.footing := by
  cases what with
  | none => exact unmoved_peekAck.1
  | some lane => exact (peeks next state.1 lane state.2).footing

lemma footing_lookAll (looks : List (Option Lane)) (state : ReliableLink × σ) :
    (lookAll next state looks).1.footing = state.1.footing := by
  induction looks generalizing state with
  | nil => rfl
  | cons what looks ih => exact (ih _).trans (footing_look state what)

lemma Ready.look {state : ReliableLink × σ} (h : state.1.Ready lane seq e) (what : Option Lane) :
    (look next state what).1.Ready lane seq e := by
  cases what with
  | none => exact h.congr unmoved_peekAck.1 (congrFun unmoved_peekAck.2 lane)
  | some other =>
    have hp := peeks next state.1 other state.2
    by_cases ho : lane = other
    · subst ho
      exact (hp.again h).2.1
    · exact h.congr hp.footing (hp.queued ho)

lemma Ready.lookAll {state : ReliableLink × σ} (h : state.1.Ready lane seq e) :
    (lookAll next state looks).1.Ready lane seq e := by
  induction looks generalizing state with
  | nil => exact h
  | cons what looks ih => exact ih (h.look what)

section Given

variable {given : σ × (Lane → List OutboundMessage)} {k : ReliableLink}
  {r : Option Packet × ReliableLink × σ × (Lane → List OutboundMessage)}

lemma Peeks.taking (h : Peeks (recording next) l lane given r) :
    r.2.2.2 = given.2 ∧ r.2.1.cursorOf lane = l.cursorOf lane ∨
      l.cursorOf lane = none ∧ (r.2.1.cursorOf lane).isSome ∧
        ∃ m, r.2.2.2 = Function.update given.2 lane (given.2 lane ++ [m]) := by
  cases h with
  | nothing hk _ hs =>
    refine .inl ⟨?_, hk.cursorOf⟩
    rcases hs with rfl | hs
    · rfl
    · rw [recording, Prod.mk.injEq] at hs
      rw [← hs.2, hs.1, Option.toList_none, List.append_nil]
      exact Function.update_eq_self lane given.2
  | offers hk => exact .inl ⟨rfl, hk.cursorOf⟩
  | @takes k _ m _ _ hk _ hc hs =>
    have hcursor : (k.withCursor lane (cursorFor m)).cursorOf lane = some (cursorFor m) :=
      cursorOf_withCursor lane _
    refine .inr ⟨hk.cursorOf ▸ hc, Option.isSome_iff_exists.mpr ⟨_, hcursor⟩, m, ?_⟩
    rw [recording, Prod.mk.injEq] at hs
    rw [← hs.2, hs.1]
    rfl

lemma cursorOf_congr (h : k.queued lane = l.queued lane) : k.cursorOf lane = l.cursorOf lane := by
  rw [cursorOf, h, cursorOf]

def Sparing (state : ReliableLink × σ × (Lane → List OutboundMessage)) : Prop :=
  ∀ lane, state.2.2 lane = [] ∨ (state.2.2 lane).length = 1 ∧ (state.1.cursorOf lane).isSome

variable {state : ReliableLink × σ × (Lane → List OutboundMessage)}

lemma Sparing.look (h : Sparing state) (what : Option Lane) : Sparing (look (recording next) state what) := by
  intro lane
  cases what with
  | none =>
    have hc : state.1.peekAck.2.cursorOf lane = state.1.cursorOf lane :=
      cursorOf_congr (congrFun unmoved_peekAck.2 lane)
    exact (h lane).imp_right fun hone => ⟨hone.1, by rw [ReliableLink.look, hc, hone.2]⟩
  | some other =>
    have hp := peeks (recording next) state.1 other state.2
    rw [ReliableLink.look]
    by_cases ho : lane = other
    · subst ho
      rcases hp.taking with ⟨hg, hc⟩ | ⟨hc, hk, m, hg⟩
      · rw [hg, hc]
        exact h lane
      · rcases h lane with hnone | ⟨-, hsome⟩
        · rw [hg, Function.update_self, hnone]
          exact .inr ⟨rfl, hk⟩
        · rw [hc] at hsome
          cases hsome
    · have hc : (state.1.peek (recording next) other state.2).2.1.cursorOf lane = state.1.cursorOf lane :=
        cursorOf_congr (hp.queued ho)
      have hg : (state.1.peek (recording next) other state.2).2.2.2 lane = state.2.2 lane := by
        rcases hp.taking with ⟨hg, -⟩ | ⟨-, -, m, hg⟩
        · rw [hg]
        · rw [hg, Function.update_of_ne ho]
      rw [hc, hg]
      exact h lane

lemma Sparing.lookAll (h : Sparing state) :
    Sparing (lookAll (recording next) state looks) := by
  induction looks generalizing state with
  | nil => exact h
  | cons what looks ih => exact ih (h.look what)

lemma Ready.given_look (h : state.1.Ready lane seq e) (what : Option Lane) :
    (ReliableLink.look (recording next) state what).2.2 lane = state.2.2 lane := by
  cases what with
  | none => rfl
  | some other =>
    have hp := peeks (recording next) state.1 other state.2
    by_cases ho : lane = other
    · subst ho
      exact congrFun (congrArg Prod.snd (hp.again h).2.2) lane
    · rw [ReliableLink.look]
      rcases hp.taking with ⟨hg, -⟩ | ⟨-, -, m, hg⟩
      · rw [hg]
      · rw [hg, Function.update_of_ne ho]

lemma Ready.given_lookAll (h : state.1.Ready lane seq e) :
    (ReliableLink.lookAll (recording next) state looks).2.2 lane = state.2.2 lane := by
  induction looks generalizing state with
  | nil => rfl
  | cons what looks ih => exact (ih (h.look what)).trans (h.given_look what)

end Given

section Commit

def Records (l : ReliableLink) (lane : Lane) (seq : ℕ) (e : InFlight) (now : TimePoint) : Prop :=
  if lane = .media then
    (l.commit lane now).mNextMediaSeq = seq + 1 ∧ (l.commit lane now).mSent = l.mSent ∧
      (l.commit lane now).mStats.bytesSent = l.mStats.bytesSent + e.bytes.length ∧
      ∃ c, e = fragmentAt c ∧ l.mMediaCursor = some c ∧ (l.commit lane now).mMediaCursor = c.advance
  else
    (l.commit lane now).mSent = l.mSent ++ [⟨l.mTransmissions + 1, seq, lane⟩] ∧
      ∀ other n, ((l.commit lane now).streamFor other).inFlight.find n =
        if other = lane ∧ n = seq then some (e.transmitted now (l.mTransmissions + 1))
        else (l.streamFor other).inFlight.find n

lemma records_media (hr : l.Ready .media seq e) (hp : l.mPeeked.body = e.bytes) (now : TimePoint) :
    l.Records .media seq e now := by
  obtain ⟨-, rfl, c, hc, rfl⟩ := ready_media.mp hr
  have hcommit : l.commit .media now = l.commitMedia := by rw [commit, if_pos rfl]
  rw [Records, if_pos rfl, hcommit, commitMedia, hc]
  exact ⟨rfl, rfl, by rw [hp], c, rfl, rfl, rfl⟩

lemma streamFor_transmit (s : Stream) (now : TimePoint) : (l.transmit lane s seq e now).streamFor =
    Function.update l.streamFor lane { s with
      inFlight := s.inFlight.assign seq (e.transmitted now (l.mTransmissions + 1))
      onTheWire := s.onTheWire + 1 } :=
  congrArg LinkView.streams (view_transmit lane (h := { link := l }) s seq e now)

lemma sent_transmit (s : Stream) (now : TimePoint) :
    (l.transmit lane s seq e now).mSent = l.mSent ++ [⟨l.mTransmissions + 1, seq, lane⟩] :=
  congrArg LinkView.sent (view_transmit lane (h := { link := l }) s seq e now)

lemma find_update {k : ReliableLink} {t : Stream} {x : InFlight}
    (hk : k.streamFor = Function.update l.streamFor lane t)
    (ht : ∀ n, t.inFlight.find n = if n = seq then some x else (l.streamFor lane).inFlight.find n) (other : Lane)
    (n : ℕ) :
    (k.streamFor other).inFlight.find n =
      if other = lane ∧ n = seq then some x else (l.streamFor other).inFlight.find n := by
  rw [hk]
  by_cases ho : other = lane
  · subst ho
    rw [Function.update_self, ht]
    simp only [true_and]
  · rw [Function.update_of_ne ho, if_neg fun h => ho h.1]

lemma commit_lost (hl : lane ≠ .media) (hs : l.mStreams lane = some s)
    (hn : s.nextLost.1 = some (seq, e)) (now : TimePoint) : l.commit lane now =
      l.transmit lane { s.nextLost.2 with lost := s.nextLost.2.lost.tail } seq e now := by
  rw [commit, if_neg hl, checkIndex_of_ne_media l lane hl]
  dsimp only
  rw [hs]
  dsimp only
  rw [show s.nextLost = (some (seq, e), s.nextLost.2) from Prod.ext hn rfl]

lemma commit_fresh {c : FragmentCursor} (hl : lane ≠ .media) (hs : l.mStreams lane = some s)
    (hn : s.nextLost.1 = none) (hc : s.cursor = some c) (now : TimePoint) : l.commit lane now =
      l.transmit lane { s.nextLost.2 with
        nextSendSeq := s.nextSendSeq + 1
        inFlight := s.inFlight.insert s.nextSendSeq (fragmentAt c)
        cursor := c.advance } s.nextSendSeq (fragmentAt c) now := by
  have hc' : s.nextLost.2.cursor = some c := hc
  rw [commit, if_neg hl, checkIndex_of_ne_media l lane hl]
  dsimp only
  rw [hs]
  dsimp only
  rw [show s.nextLost = (none, s.nextLost.2) from Prod.ext hn rfl]
  dsimp only
  rw [hc']
  rfl

lemma records_stream (hl : lane ≠ .media) (hs : l.mStreams lane = some s) (hn : s.Next seq e)
    (hwf : s.inFlight.WF)
    (hfree : s.nextSendSeq - s.sendBase < s.inFlight.capacity → s.inFlight.slot s.nextSendSeq = none)
    (now : TimePoint) :
    l.Records lane seq e now := by
  have hst := streamFor_of_some l lane s hs
  rw [Records, if_neg hl]
  rcases hn with hn | ⟨hn, hroom, rfl, c, hc, rfl⟩
  · rw [commit_lost hl hs hn]
    refine ⟨sent_transmit _ now, find_update (streamFor_transmit _ now) fun n => ?_⟩
    have hheld := (SendInv.nextLost_some hn).2.1
    have hi : s.nextLost.2.inFlight = s.inFlight := rfl
    dsimp only
    rw [hi, hst, SequenceBuffer.find_assign hwf, SequenceBuffer.contains, hheld]
    simp only [Option.isSome_some, and_true]
  · rw [commit_fresh hl hs hn hc]
    refine ⟨sent_transmit _ now, find_update (streamFor_transmit _ now) fun n => ?_⟩
    have hslot := hfree hroom
    dsimp only
    rw [hst, SequenceBuffer.find_assign (SequenceBuffer.wf_insert hwf), SequenceBuffer.find_insert hwf hslot]
    by_cases ht : n = s.nextSendSeq
    · rw [ht, SequenceBuffer.contains, SequenceBuffer.find_insert hwf hslot]
      simp
    · simp [ht]

end Commit

lemma isEmpty_of_head {p : Packet} (hp : l.mPendingAcks.head? = some p) : l.mPendingAcks.isEmpty = false := by
  cases hl : l.mPendingAcks with
  | nil =>
    rw [hl] at hp
    cases hp
  | cons => rfl

structure Serial (r : Reports) (failed : Bool) (made : List AckBody) : Prop where
  serial : r.serial = r.acks % 2 ^ 32
  count : failed = false → made.length = r.acks
  number : ∀ i a, made[i]? = some a → a.serial = (i + 1) % 2 ^ 32

lemma kept_serial : Reports.Kept Serial where
  noted h _ _ := ⟨h.serial, h.count, h.number⟩
  counted h := ⟨h.serial, h.count, h.number⟩
  fail h _ _ hp := by
    refine ⟨h.serial, nofun, fun i a ha => h.number i a ?_⟩
    obtain ⟨rest, rfl⟩ := hp
    obtain ⟨hi, -⟩ := List.getElem?_eq_some_iff.mp ha
    rw [List.getElem?_append_left hi, ha]
  makeAck {r made} h ranges := by
    have hserial : (r.serial + 1) % 2 ^ 32 = (r.acks + 1) % 2 ^ 32 := by
      rw [h.serial, Nat.mod_add_mod]
    refine ⟨hserial, fun _ => ?_, fun i a ha => ?_⟩
    · rw [List.length_append, h.count rfl]
      rfl
    · rcases lt_or_ge i made.length with hi | hi
      · rw [List.getElem?_append_left hi] at ha
        exact h.number i a ha
      · rw [List.getElem?_append_right hi] at ha
        obtain ⟨hz, rfl⟩ := List.getElem?_eq_some_iff.mp ha
        rw [List.length_singleton] at hz
        have hlast : i = r.acks := by
          rw [← h.count rfl]
          omega
        simp only [List.getElem_singleton]
        rw [hserial, hlast]
  weaken h _ := ⟨h.serial, fun _ => h.count rfl, h.number⟩

end ReliableLink

open ReliableLink

namespace Host

variable {source : Lane → OutboundMessage → Prop} {incoming : Packet → Prop} {h h' : Host} {p : Packet}

lemma serial (hr : (system source incoming).Reachable h) : h.Tells Serial := by
  refine hr.invariant (P := fun h => h.Tells Serial) ?_ fun h h' hr hn ht =>
    hn.step kept_serial (sound hr).offers ht
  rintro h ⟨timings, id, budget, rfl⟩
  exact ⟨rfl, fun _ => rfl, fun i a ha => by cases ha⟩

lemma serial_on_wire (hr : (system source incoming).Reachable h) {i : ℕ} {a : AckBody}
    (ha : (h.wire.filterMap Packet.ack)[i]? = some a) : a.serial = (i + 1) % 2 ^ 32 := by
  obtain ⟨hi, -⟩ := List.getElem?_eq_some_iff.mp ha
  refine (serial hr).number i a ?_
  rw [made, List.filterMap_append, List.getElem?_append_left hi, ha]

lemma pending_of_step (ht : Step source incoming h h') (hp : h.link.mPendingAcks.head? = some p) :
    h' = h.commitAck ∨ h'.link.mFailed = true ∨ h'.link.mPendingAcks.head? = some p := by
  have hkept : ∀ k : ReliableLink, k.mPendingAcks = h.link.mPendingAcks → k.mPendingAcks.head? = some p :=
    fun k hk => by rw [hk, hp]
  cases ht with
  | peek lane next hs => exact .inr (.inr (hkept _ (congrArg Aside.pending (aside_peek _ _))))
  | commit lane now hoff =>
    obtain ⟨n, sent, resent, ha⟩ := aside_commit h.link lane now
    have hpending := congrArg Aside.pending ha
    exact .inr (.inr (hkept _ hpending))
  | peekAck =>
    have hsome := isEmpty_of_head hp
    refine .inr (.inr (hkept _ ?_))
    rw [Host.peekAck, ReliableLink.peekAck, hsome]
    split <;> rfl
  | commitAck => exact .inl rfl
  | onPacket packet now hi =>
    refine .inr (.inr (hkept _ ?_))
    by_cases hk : h.link.Takes packet
    · exact congrArg (·.2.2) (ends_onPacket _ hk)
    · obtain ⟨n, he⟩ := onPacket_of_not_takes now hk
      rw [Host.onPacket, he]
  | setPaused paused => exact .inr (.inr (hkept _ (congrArg Aside.pending (aside_setPaused paused))))
  | onTimer now =>
    rcases aside_onTimer (l := h.link) now with ha | hf
    · exact .inr (.inr (hkept _ (congrArg Aside.pending ha)))
    · rw [Host.onTimer, hf]
      exact .inr (.inl rfl)
  | supervise now => exact .inr (.inr hp)
  | takeDelivered => exact .inr (.inr hp)
  | exchangeBudget budget => exact .inr (.inr hp)

def Uncommitted (source : Lane → OutboundMessage → Prop) (incoming : Packet → Prop) : Host → Host → Prop :=
  Relation.ReflTransGen fun a b => Step source incoming a b ∧ b ≠ a.commitAck

lemma failed_of_step (hr : (system source incoming).Reachable h) (ht : Step source incoming h h')
    (hf : h.link.mFailed = true) : h'.link.mFailed = true := by
  rcases run_of_step ht (sound hr).offers with hfails | hrun
  · rw [hfails]
    rfl
  · exact hrun.failed.trans hf

lemma pending_of_uncommitted (hr : (system source incoming).Reachable h) (hp : h.link.mPendingAcks.head? = some p)
    (hu : Uncommitted source incoming h h') : (system source incoming).Reachable h' ∧
    (h'.link.mFailed = true ∨ h'.link.mPendingAcks.head? = some p) := by
  induction hu with
  | refl => exact ⟨hr, .inr hp⟩
  | tail _ ht ih =>
    refine ⟨ih.1.step ht.1, ?_⟩
    rcases ih.2 with hf | hhead
    · exact .inl (failed_of_step ih.1 ht.1 hf)
    · exact (pending_of_step ht.1 hhead).resolve_left ht.2

end Host

namespace ReliableLink

lemma headerOf_of_footing {l k : ReliableLink} (h : k.footing = l.footing) (lane : Lane) (seq : ℕ) (e : InFlight) :
    k.headerOf lane seq e = l.headerOf lane seq e := by
  have hlocal : k.mLocalStreamID = l.mLocalStreamID := congrArg Footing.localID h
  have hremote : k.mRemoteStreamID = l.mRemoteStreamID := congrArg Footing.remoteID h
  rw [headerOf, headerOf, makeHeader, makeHeader, hlocal, hremote]

lemma head_peekAck {l : ReliableLink} {p : Packet} (hf : l.mFailed = false) (hp : l.mPendingAcks.head? = some p) :
    l.peekAck.1 = some p := by
  rw [peekAck, hf, isEmpty_of_head hp]
  exact hp

def looked {σ : Type} (next : MessageSource σ) (given : σ) (l : ReliableLink) (looks : List (Option Lane)) :
    ReliableLink × σ × (Lane → List OutboundMessage) :=
  lookAll (recording next) (l, given, fun _ => []) looks

def Stays {σ : Type} (next : MessageSource σ) (state : ReliableLink × σ × (Lane → List OutboundMessage))
    (lane : Lane) (p : Packet) (seq : ℕ) (e : InFlight) : Prop :=
  ∀ looks now,
    let later := lookAll (recording next) state looks
    let last := later.1.peek (recording next) lane later.2
    last.1 = some p ∧ last.2.2.2 lane = state.2.2 lane ∧ last.2.1.Records lane seq e now

variable {source : Lane → OutboundMessage → Prop} {incoming : Packet → Prop} {h : Host}

lemma records_of_ready {l : ReliableLink} {lane : Lane} {seq : ℕ} {e : InFlight}
    (hr : (Host.system source incoming).Reachable h) (hf : l.footing = h.link.footing)
    (hready : l.Ready lane seq e) (hp : l.mPeeked.body = e.bytes) (now : TimePoint) :
    l.Records lane seq e now := by
  by_cases hl : lane = .media
  · subst hl
    exact records_media hready hp now
  · have hsend := (Host.sound hr).view.send lane
    have hpace : l.pace = h.link.pace := congrArg Footing.pace hf
    have hheld : (l.streamFor lane).inFlight = (h.link.streamFor lane).inFlight :=
      congrArg Stream.Outward.inFlight (congrFun (congrArg Pace.outward hpace) lane)
    have hseq : (l.streamFor lane).nextSendSeq = (h.link.streamFor lane).nextSendSeq :=
      congrFun (congrArg Footing.nextSendSeq hf) lane
    have hbase : (l.streamFor lane).sendBase = (h.link.streamFor lane).sendBase :=
      congrFun (congrArg Footing.sendBase hf) lane
    obtain ⟨-, -, s, hs, -, hn⟩ := (ready_stream hl).mp hready
    rw [streamFor_of_some l lane s hs] at hheld hseq hbase
    refine records_stream hl hs hn ?_ ?_ now
    · rw [hheld]
      exact hsend.wf
    · rw [hheld, hseq, hbase]
      exact hsend.slot_free

lemma stays_of_offered {σ : Type} {next : MessageSource σ}
    {state : ReliableLink × σ × (Lane → List OutboundMessage)} {lane : Lane} {p : Packet}
    (hr : (Host.system source incoming).Reachable h) (hf : state.1.footing = h.link.footing)
    (ho : (state.1.peek (recording next) lane state.2).1 = some p) :
    ∃ seq e, p = makeDatagram (h.link.headerOf lane seq e) e.bytes ∧
      Stays next (state.1.peek (recording next) lane state.2).2 lane p seq e := by
  have hpeeks := peeks (recording next) state.1 lane state.2
  obtain ⟨seq, e, rfl, -, hready⟩ := hpeeks.offered ho
  refine ⟨seq, e, by rw [headerOf_of_footing hf], fun looks now => ?_⟩
  have hlater : (lookAll (recording next) (state.1.peek (recording next) lane state.2).2 looks).1.footing =
    h.link.footing :=
    (footing_lookAll looks _).trans (hpeeks.footing.trans hf)
  have hagain : (lookAll (recording next) _ looks).1.Ready lane seq e := Ready.lookAll hready
  have hgiven : (lookAll (recording next) _ looks).2.2 lane = _ := Ready.given_lookAll hready
  generalize lookAll (recording next) (state.1.peek (recording next) lane state.2).2 looks = later at *
  have hlast := peeks (recording next) later.1 lane later.2
  obtain ⟨hoffer, hlastReady, hsame⟩ := hlast.again hagain
  rw [headerOf_of_footing (hlater.trans hf.symm)] at hoffer
  obtain ⟨-, -, -, hpeeked, -⟩ := hlast.offered hoffer
  refine ⟨hoffer, ?_, records_of_ready hr (hlast.footing.trans hlater) hlastReady (by rw [hpeeked]; rfl) now⟩
  rw [hsame, hgiven]

theorem refused_leaves_no_trace {σ : Type} (hr : (Host.system source incoming).Reachable h)
    (next : MessageSource σ) (given : σ) :
    (∀ looks, let state := looked next given h.link looks
      state.1.footing = h.link.footing ∧ (∀ lane, (state.2.2 lane).length ≤ 1) ∧
      ∀ lane,
        (state.1.peek (recording next) lane state.2).2.1.mStats = state.1.mStats ∧
        (state.1.peek (recording next) lane state.2).2.1.aside = state.1.aside ∧
        ∀ p, (state.1.peek (recording next) lane state.2).1 = some p →
          ∃ seq e, p = makeDatagram (h.link.headerOf lane seq e) e.bytes ∧
            Stays next (state.1.peek (recording next) lane state.2).2 lane p seq e) ∧
    (∀ p h', h.link.mPendingAcks.head? = some p → Host.Uncommitted source incoming h h' → h'.link.mFailed = false →
      h'.link.peekAck.1 = some p) ∧
    (∀ i a, (h.wire.filterMap Packet.ack)[i]? = some a → a.serial = (i + 1) % 2 ^ 32) ∧
    ∀ i a b, (h.wire.filterMap Packet.ack)[i]? = some a → (h.wire.filterMap Packet.ack)[i + 1]? = some b →
      isLaterSerial b.serial a.serial = true := by
  refine ⟨fun looks => ?_, fun p h' hp hu hf => ?_, fun i a => Host.serial_on_wire hr, fun i a b ha hb => ?_⟩
  · have hfooting : (looked next given h.link looks).1.footing = h.link.footing := footing_lookAll looks _
    have hsparing : Sparing (looked next given h.link looks) := Sparing.lookAll fun _ => .inl rfl
    refine ⟨hfooting, fun lane => ?_, fun lane => ⟨(peeks _ _ lane _).stats, aside_peek _ _, fun p ho => ?_⟩⟩
    · rcases hsparing lane with hnone | ⟨hone, -⟩
      · rw [hnone]
        exact Nat.zero_le 1
      · exact hone.le
    · exact stays_of_offered hr hfooting ho
  · exact head_peekAck hf ((Host.pending_of_uncommitted hr hp hu).2.resolve_left
      (by rw [hf]; exact Bool.false_ne_true))
  · rw [Host.serial_on_wire hr ha, Host.serial_on_wire hr hb]
    rw [isLaterSerial, Bool.and_eq_true, decide_eq_true_eq, decide_eq_true_eq]
    omega

def unending : MessageSource ℕ := fun n _ => (some { tag := 3, body := [1, 2] }, n + 1)

def pingHeader : PacketHeader := { flags := .ping .reliable, srcStreamID := 9, dstStreamID := 7 }

def pinged : Host := ({ link := .new {} 7 none } : Host).onPacket { header := pingHeader } 0

lemma pinged_reachable : (Host.system (fun _ _ => True) Packet.Accepted).Reachable pinged :=
  ⟨_, ⟨{}, 7, none, rfl⟩,
    .single (.onPacket _ _ _ ⟨encodePacket pingHeader [], by decide +kernel⟩)⟩

theorem refused_leaves_no_trace_pinged :
    (looked unending 0 pinged.link [some .reliable, none, some .media]).1.footing = pinged.link.footing ∧
      ∃ seq e, Stays unending (pinged.link.peek (recording unending) .reliable (0, fun _ => [])).2 .reliable
        (makeDatagram (pinged.link.headerOf .reliable 1 (fragmentAt (cursorFor ⟨3, [1, 2]⟩))) [1, 2]) seq e := by
  have h := (refused_leaves_no_trace pinged_reachable unending 0).1
  obtain ⟨seq, e, -, hs⟩ := ((h []).2.2 .reliable).2.2 _ rfl
  exact ⟨(h _).1, seq, e, hs⟩

/-- Building an Ack is counted, and every lane takes a message of its own. -/
theorem looking_counts_acks : ∃ h : Host, (Host.system (fun _ _ => True) Packet.Accepted).Reachable h ∧
    (looked unending 0 h.link [some .reliable, none, some .media, some .reliable]).1.mStats ≠ h.link.mStats ∧
    ((looked unending 0 h.link [some .reliable, none, some .media, some .reliable]).2.2 .reliable).length = 1 ∧
    ((looked unending 0 h.link [some .reliable, none, some .media, some .reliable]).2.2 .media).length = 1 :=
  ⟨pinged, pinged_reachable, by decide +kernel, by decide +kernel, by decide +kernel⟩

end ReliableLink

end NetLink.Channel
