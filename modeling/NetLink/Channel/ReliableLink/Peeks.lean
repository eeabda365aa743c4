import NetLink.Channel.ReliableLink.Congestion

/-! What looking at the next datagram leaves alone, and what it can change. -/

namespace NetLink.Channel

def LinkStats.besidesAcks (s : LinkStats) : LinkStats :=
  { s with acksSent := 0, pingsSent := 0, delivered := 0, bytesReceived := 0 }

namespace ReliableLink

structure Footing where
  pace : Pace
  localID : UInt32
  remoteID : Option UInt32
  nextSendSeq : Lane → ℕ
  sendBase : Lane → ℕ
  nextMediaSeq : ℕ
  mediaReceived : ℕ
  mediaAssembler : Option MediaAssembler
  pingedAt : TimePoint
  paused : Bool
  stats : LinkStats

def footing (l : ReliableLink) : Footing where
  pace := l.pace
  localID := l.mLocalStreamID
  remoteID := l.mRemoteStreamID
  nextSendSeq lane := (l.streamFor lane).nextSendSeq
  sendBase lane := (l.streamFor lane).sendBase
  nextMediaSeq := l.mNextMediaSeq
  mediaReceived := l.mMediaReceived
  mediaAssembler := l.mMediaAssembler
  pingedAt := l.mPingedAt
  paused := l.mPaused
  stats := l.mStats.besidesAcks

def queued (l : ReliableLink) (lane : Lane) : Option (List ℕ × Option FragmentCursor) :=
  if lane = .media then some ([], l.mMediaCursor) else (l.mStreams lane).map fun s => (s.lost, s.cursor)

variable {l l' k : ReliableLink} {lane other : Lane} {s t : Stream} {p : PacketHeader → List UInt8 → Prop}

lemma footing_setStream (ho : s.outward = (l.streamFor lane).outward)
    (hn : s.nextSendSeq = (l.streamFor lane).nextSendSeq) (hb : s.sendBase = (l.streamFor lane).sendBase) :
    (l.setStream lane s).footing = l.footing := by
  rw [footing, map_streamFor_setStream Stream.nextSendSeq hn, map_streamFor_setStream Stream.sendBase hb,
    pace_setStream ho]
  rfl

lemma queued_setStream_of_ne (ho : other ≠ lane) : (l.setStream lane s).queued other = l.queued other := by
  rw [queued, queued, setStream]
  dsimp only
  rw [Function.update_of_ne ho]

lemma queued_setStream (hl : lane ≠ .media) : (l.setStream lane s).queued lane = some (s.lost, s.cursor) := by
  rw [queued, setStream, if_neg hl]
  dsimp only
  rw [Function.update_self]
  rfl

section Acks

lemma queue_of_recvRun {ms : List AssembledMessage} (h : RecvRun p s ms t) :
    t.lost = s.lost ∧ t.cursor = s.cursor ∧ t.nextSendSeq = s.nextSendSeq ∧ t.sendBase = s.sendBase := by
  induction h with
  | refl => exact ⟨rfl, rfl, rfl, rfl⟩
  | tail _ hm ih => cases hm <;> exact ih

lemma ReceivedVia.footing (h : ReceivedVia p lane l l')
    (hs : l'.mStats.besidesAcks = l.mStats.besidesAcks) : l'.footing = l.footing := by
  obtain ⟨s, ms, budget, stats, due, hr, rfl⟩ := h
  have hq := queue_of_recvRun hr
  have hset : (l.setStream lane s).footing = l.footing :=
    footing_setStream (Stream.outward_recvRun hr) hq.2.2.1 hq.2.2.2
  calc (l.received lane s ms budget stats due).footing
      = { (l.setStream lane s).footing with stats := stats.besidesAcks } := rfl
    _ = l.footing := by
        rw [hset]
        exact congrArg (fun stats => { l.footing with stats := stats }) hs

lemma ReceivedVia.queued (h : ReceivedVia p lane l l')
    (hs : (l.mStreams lane).isSome) (hl : lane ≠ .media) : l'.queued = l.queued := by
  obtain ⟨t, ms, budget, stats, due, hr, rfl⟩ := h
  obtain ⟨s, hs⟩ := Option.isSome_iff_exists.mp hs
  have hq := queue_of_recvRun hr
  rw [streamFor_of_some l lane s hs] at hq
  funext other
  change (l.setStream lane t).queued other = _
  by_cases ho : other = lane
  · rw [ho, queued_setStream hl, ReliableLink.queued, if_neg hl, hs, hq.1, hq.2.1]
    rfl
  · exact queued_setStream_of_ne ho

lemma besidesAcks_acceptInOrder (lane : Lane) (s : Stream) (header : PacketHeader) (body : List UInt8) :
    (l.acceptInOrder lane s header body).2.mStats.besidesAcks = l.mStats.besidesAcks := by
  rw [acceptInOrder]
  split
  · rfl
  · dsimp only
    split <;> rfl

lemma besidesAcks_drainLoop (lane : Lane) (n : ℕ) (l : ReliableLink) :
    (drainLoop lane n l).mStats.besidesAcks = l.mStats.besidesAcks := by
  induction n generalizing l with
  | zero => rfl
  | succ n ih =>
    rw [drainLoop]
    dsimp only
    split
    · rfl
    · next b hb =>
      have ha := besidesAcks_acceptInOrder (l := l) lane (l.streamFor lane) b.header b.body
      split
      · next hr =>
        rw [hr] at ha
        exact ha
      · next hr =>
        rw [hr] at ha
        rw [ih]
        exact ha

lemma besidesAcks_retryRefused (lane : Lane) :
    (l.retryRefused lane).mStats.besidesAcks = l.mStats.besidesAcks := by
  rw [retryRefused]
  split
  · rfl
  · exact besidesAcks_drainLoop lane _ _

def Unmoved (l l' : ReliableLink) : Prop := l'.footing = l.footing ∧ l'.queued = l.queued

lemma Unmoved.trans (h : l.Unmoved l') (h' : l'.Unmoved k) : l.Unmoved k := ⟨h'.1.trans h.1, h'.2.trans h.2⟩

lemma unmoved_retried (hl : lane ≠ .media) :
    l.Unmoved (if (l.mStreams lane).isSome then l.retryRefused lane else l) := by
  split
  · next hs =>
    have hr := retryRefused_received (p := fun _ _ => True) hs
    exact ⟨hr.footing (besidesAcks_retryRefused lane), hr.queued hs hl⟩
  · exact ⟨rfl, rfl⟩

lemma unmoved_fillAck (hl : lane ≠ .media) : l.Unmoved (l.fillAck lane) := by
  rw [fillAck]
  split
  · exact unmoved_retried hl
  · exact ⟨rfl, rfl⟩

lemma unmoved_fillPing (lane : Lane) : l.Unmoved (l.fillPing lane) := by
  rw [fillPing]
  split <;> exact ⟨rfl, rfl⟩

lemma unmoved_fillAcks : l.Unmoved l.fillAcks :=
  have hlane : ∀ (k : ReliableLink) (lane : Lane), lane ≠ .media → k.Unmoved ((k.fillAck lane).fillPing lane) :=
    fun _ lane hl => (unmoved_fillAck hl).trans (unmoved_fillPing lane)
  ((hlane _ _ (by decide)).trans (hlane _ _ (by decide))).trans (hlane _ _ (by decide))

lemma unmoved_peekAck : l.Unmoved l.peekAck.2 := by
  rw [peekAck]
  split
  · exact ⟨rfl, rfl⟩
  · dsimp only
    split
    · exact unmoved_fillAcks
    · exact ⟨rfl, rfl⟩

end Acks

end ReliableLink

namespace Stream

variable {s t : Stream} {seq seq' : ℕ} {e e' : InFlight}

lemma Next.unique (h : s.Next seq e) (h' : s.Next seq' e') : seq' = seq ∧ e' = e := by
  rcases h with h | ⟨h, -, rfl, c, hc, rfl⟩
  · rcases h' with h' | ⟨h', -⟩
    · rw [h, Option.some.injEq, Prod.mk.injEq] at h'
      exact ⟨h'.1.symm, h'.2.symm⟩
    · rw [h] at h'
      cases h'
  · rcases h' with h' | ⟨-, -, rfl, c', hc', rfl⟩
    · rw [h] at h'
      cases h'
    · rw [hc, Option.some.injEq] at hc'
      exact ⟨rfl, by rw [hc']⟩

lemma Next.congr (h : s.Next seq e) (hi : t.inFlight = s.inFlight) (hl : t.lost = s.lost)
    (hc : t.cursor = s.cursor) (hn : t.nextSendSeq = s.nextSendSeq)
    (hb : t.sendBase = s.sendBase) : t.Next seq e := by
  have hlost : t.nextLost.1 = s.nextLost.1 := by rw [nextLost, nextLost, hl, hi]
  rw [Next, hlost, hi, hc, hn, hb]
  exact h

lemma next_nextLost : s.nextLost.2.Next seq e ↔ s.Next seq e := by
  rw [Next, Next, nextLost_nextLost]
  rfl

end Stream

namespace ReliableLink

variable {l l' k : ReliableLink} {lane other : Lane} {s t : Stream} {seq seq' : ℕ} {e e' : InFlight}

def Ready (l : ReliableLink) (lane : Lane) (seq : ℕ) (e : InFlight) : Prop :=
  l.mFailed = false ∧
    if lane = .media then seq = l.mNextMediaSeq ∧ ∃ c, l.mMediaCursor = some c ∧ e = fragmentAt c
    else l.congestionWindowOpen lane = true ∧ ∃ s, l.mStreams lane = some s ∧ s.peerPaused = false ∧ s.Next seq e

lemma ready_media : l.Ready .media seq e ↔
    l.mFailed = false ∧ seq = l.mNextMediaSeq ∧ ∃ c, l.mMediaCursor = some c ∧ e = fragmentAt c := by
  rw [Ready, if_pos rfl]

lemma ready_stream (hl : lane ≠ .media) : l.Ready lane seq e ↔ l.mFailed = false ∧
    l.congestionWindowOpen lane = true ∧
    ∃ s, l.mStreams lane = some s ∧ s.peerPaused = false ∧ s.Next seq e := by
  rw [Ready, if_neg hl]

lemma Ready.unique (h : l.Ready lane seq e) (h' : l.Ready lane seq' e') : seq' = seq ∧ e' = e := by
  by_cases hl : lane = .media
  · subst hl
    obtain ⟨-, rfl, c, hc, rfl⟩ := ready_media.mp h
    obtain ⟨-, rfl, c', hc', rfl⟩ := ready_media.mp h'
    rw [hc, Option.some.injEq] at hc'
    exact ⟨rfl, by rw [hc']⟩
  · obtain ⟨-, -, s, hs, -, hn⟩ := (ready_stream hl).mp h
    obtain ⟨-, -, s', hs', -, hn'⟩ := (ready_stream hl).mp h'
    rw [hs, Option.some.injEq] at hs'
    subst hs'
    exact hn.unique hn'

lemma Ready.congr (h : l.Ready lane seq e) (hf : l'.footing = l.footing) (hq : l'.queued lane = l.queued lane) :
    l'.Ready lane seq e := by
  have hpace : l'.pace = l.pace := congrArg Footing.pace hf
  have hfailed : l'.mFailed = l.mFailed := congrArg Pace.failed hpace
  by_cases hl : lane = .media
  · subst hl
    obtain ⟨hrun, hseq, c, hc, he⟩ := ready_media.mp h
    have hnext : l'.mNextMediaSeq = l.mNextMediaSeq := congrArg Footing.nextMediaSeq hf
    rw [queued, queued, if_pos rfl, if_pos rfl, Option.some.injEq, Prod.mk.injEq] at hq
    exact ready_media.mpr ⟨by rw [hfailed, hrun], by rw [hnext, hseq], c, by rw [hq.2, hc], he⟩
  · obtain ⟨hrun, hopen, s, hs, hp, hn⟩ := (ready_stream hl).mp h
    rw [queued, queued, if_neg hl, if_neg hl, hs, Option.map_some, Option.map_eq_some_iff] at hq
    obtain ⟨t, ht, hqueue⟩ := hq
    rw [Prod.mk.injEq] at hqueue
    have hst := streamFor_of_some l lane s hs
    have htt := streamFor_of_some l' lane t ht
    have hout : t.outward = s.outward := by
      rw [← hst, ← htt]
      exact congrFun (congrArg Pace.outward hpace) lane
    have hseq : t.nextSendSeq = s.nextSendSeq := by
      rw [← hst, ← htt]
      exact congrFun (congrArg Footing.nextSendSeq hf) lane
    have hbase : t.sendBase = s.sendBase := by
      rw [← hst, ← htt]
      exact congrFun (congrArg Footing.sendBase hf) lane
    have hpaused : t.peerPaused = s.peerPaused := congrArg Stream.Outward.peerPaused hout
    refine (ready_stream hl).mpr ⟨by rw [hfailed, hrun], ?_, t, ht, by rw [hpaused, hp], ?_⟩
    · rw [congestionWindowOpen_of_pace hpace, hopen]
    · exact hn.congr (congrArg Stream.Outward.inFlight hout) hqueue.1 hqueue.2 hseq hbase

def Pruned (l : ReliableLink) (lane : Lane) (k : ReliableLink) : Prop :=
  k = l ∨ lane ≠ .media ∧ ∃ s, l.mStreams lane = some s ∧ k = l.setStream lane s.nextLost.2

def cursorOf (l : ReliableLink) (lane : Lane) : Option FragmentCursor := (l.queued lane).bind (·.2)

namespace Pruned

lemma footing (h : Pruned l lane k) : k.footing = l.footing := by
  rcases h with rfl | ⟨-, s, hs, rfl⟩
  · rfl
  · have hst := streamFor_of_some l lane s hs
    exact footing_setStream (by rw [hst]; rfl) (by rw [hst]; rfl) (by rw [hst]; rfl)

lemma stats (h : Pruned l lane k) : k.mStats = l.mStats := by
  rcases h with rfl | ⟨-, s, -, rfl⟩ <;> rfl

lemma queued (h : Pruned l lane k) (ho : other ≠ lane) : k.queued other = l.queued other := by
  rcases h with rfl | ⟨-, s, -, rfl⟩
  · rfl
  · exact queued_setStream_of_ne ho

lemma cursorOf (h : Pruned l lane k) : k.cursorOf lane = l.cursorOf lane := by
  rcases h with rfl | ⟨hl, s, hs, rfl⟩
  · rfl
  · rw [ReliableLink.cursorOf, queued_setStream hl, ReliableLink.cursorOf, ReliableLink.queued, if_neg hl, hs]
    rfl

lemma ready (h : Pruned l lane k) : k.Ready lane seq e ↔ l.Ready lane seq e := by
  have hpace : k.pace = l.pace := congrArg Footing.pace h.footing
  rcases h with rfl | ⟨hl, s, hs, rfl⟩
  · rfl
  · have hset : (l.setStream lane s.nextLost.2).mStreams lane = some s.nextLost.2 := Function.update_self ..
    rw [ready_stream hl, ready_stream hl, congestionWindowOpen_of_pace hpace, hset, hs]
    simp only [Option.some.injEq, exists_eq_left', Stream.next_nextLost]
    rfl

end Pruned

def withCursor (l : ReliableLink) (lane : Lane) (c : FragmentCursor) : ReliableLink :=
  if lane = .media then { l with mMediaCursor := some c }
  else l.setStream lane { l.streamFor lane with cursor := some c }

lemma footing_withCursor (lane : Lane) (c : FragmentCursor) : (l.withCursor lane c).footing = l.footing := by
  rw [withCursor]
  split
  · rfl
  · exact footing_setStream rfl rfl rfl

lemma queued_withCursor (c : FragmentCursor) (ho : other ≠ lane) :
    (l.withCursor lane c).queued other = l.queued other := by
  rw [withCursor]
  split
  · next hl =>
    subst hl
    rw [queued, queued, if_neg ho, if_neg ho]
  · exact queued_setStream_of_ne ho

lemma cursorOf_withCursor (lane : Lane) (c : FragmentCursor) : (l.withCursor lane c).cursorOf lane = some c := by
  rw [withCursor]
  split
  · next hl =>
    subst hl
    rfl
  · next hl =>
    rw [cursorOf, queued_setStream hl]
    rfl

lemma stats_withCursor (lane : Lane) (c : FragmentCursor) : (l.withCursor lane c).mStats = l.mStats := by
  rw [withCursor]
  split <;> rfl

section Peeks

variable {σ : Type} {next : MessageSource σ} {source : σ}

inductive Peeks (next : MessageSource σ) (l : ReliableLink) (lane : Lane) (source : σ) :
    Option Packet × ReliableLink × σ → Prop
  | nothing {k : ReliableLink} {rest : σ} (hk : Pruned l lane k) (hn : ∀ seq e, ¬k.Ready lane seq e)
      (hs : rest = source ∨ next source lane = (none, rest)) : Peeks next l lane source (none, k, rest)
  | offers {k : ReliableLink} {seq : ℕ} {e : InFlight} (hk : Pruned l lane k) (hr : k.Ready lane seq e) :
      Peeks next l lane source (some (makeDatagram (l.headerOf lane seq e) e.bytes),
        { k with mPeeked := makeDatagram (l.headerOf lane seq e) e.bytes }, source)
  | takes {k : ReliableLink} {rest : σ} {m : OutboundMessage} {seq : ℕ} {e : InFlight} (hk : Pruned l lane k)
      (hn : ∀ seq e, ¬k.Ready lane seq e) (hc : k.cursorOf lane = none) (hs : next source lane = (some m, rest))
      (hr : (k.withCursor lane (cursorFor m)).Ready lane seq e) :
      Peeks next l lane source (some (makeDatagram (l.headerOf lane seq e) e.bytes),
        { k.withCursor lane (cursorFor m) with mPeeked := makeDatagram (l.headerOf lane seq e) e.bytes }, rest)

lemma Pruned.headerOf (h : Pruned l lane k) (seq : ℕ) (e : InFlight) :
    k.headerOf lane seq e = l.headerOf lane seq e := by
  rcases h with rfl | ⟨-, s, -, rfl⟩ <;> rfl

lemma peeks_media (hf : l.mFailed = false) : Peeks next l .media source (l.peekMedia next source) := by
  rw [peekMedia]
  split
  · next c hc => exact .offers (.inl rfl) (ready_media.mpr ⟨hf, rfl, c, hc, rfl⟩)
  · next hc =>
    have hn : ∀ seq e, ¬l.Ready .media seq e := by
      intro seq e hr
      obtain ⟨-, -, c, hc', -⟩ := ready_media.mp hr
      rw [hc] at hc'
      cases hc'
    split
    · next rest hs => exact .nothing (.inl rfl) hn (.inr hs)
    · next m rest hs => exact .takes (.inl rfl) hn hc hs (ready_media.mpr ⟨hf, rfl, _, rfl, rfl⟩)

lemma peeks_next (hk : Pruned l lane k) (hl : lane ≠ .media) (hf : k.mFailed = false)
    (ho : k.congestionWindowOpen lane = true) (hp : (k.streamFor lane).peerPaused = false)
    (hlost : (k.streamFor lane).nextLost.1 = none)
    (hroom : (k.streamFor lane).nextSendSeq - (k.streamFor lane).sendBase < (k.streamFor lane).inFlight.capacity) :
    Peeks next l lane source (k.peekNext next lane source) := by
  rw [peekNext]
  split
  · next c hc =>
    obtain ⟨s, hs, hsc⟩ := Option.bind_eq_some_iff.mp hc
    have hst := streamFor_of_some k lane s hs
    rw [hst] at hp hlost hroom
    have hr : k.Ready lane (k.streamFor lane).nextSendSeq (fragmentAt c) :=
      (ready_stream hl).mpr ⟨hf, ho, s, hs, hp, .inr ⟨hlost, hroom, by rw [hst], c, hsc, rfl⟩⟩
    rw [hk.headerOf]
    exact .offers hk hr
  · next hc =>
    have hcursor : k.cursorOf lane = none := by
      rw [cursorOf, queued, if_neg hl]
      cases hs : k.mStreams lane with
      | none => rfl
      | some s =>
        rw [hs] at hc
        exact hc
    have hn : ∀ seq e, ¬k.Ready lane seq e := by
      intro seq e hr
      obtain ⟨-, -, s, hs, -, hn⟩ := (ready_stream hl).mp hr
      rw [streamFor_of_some k lane s hs] at hlost
      rw [hs] at hc
      rcases hn with hn | ⟨-, -, -, c, hsc, -⟩
      · rw [hlost] at hn
        cases hn
      · rw [Option.bind_some, hsc] at hc
        cases hc
    split
    · next rest hs => exact .nothing hk hn (.inr hs)
    · next m rest hs =>
      have hset : k.withCursor lane (cursorFor m) = k.setStream lane { k.streamFor lane
        with cursor := some (cursorFor m) } := by
        rw [withCursor, if_neg hl]
      have hopen : (k.withCursor lane (cursorFor m)).congestionWindowOpen lane = true := by
        rw [congestionWindowOpen_of_pace (congrArg Footing.pace (footing_withCursor lane (cursorFor m))), ho]
      have hr : (k.withCursor lane (cursorFor m)).Ready lane (k.streamFor lane).nextSendSeq
        (fragmentAt (cursorFor m)) := by
        refine (ready_stream hl).mpr ⟨?_, hopen,
          { k.streamFor lane with cursor := some (cursorFor m) }, ?_, hp, ?_⟩
        · rw [hset]
          exact hf
        · rw [hset]
          exact Function.update_self ..
        · exact .inr ⟨hlost, hroom, rfl, _, rfl, rfl⟩
      dsimp only
      rw [hk.headerOf, ← hset]
      exact .takes hk hn hcursor hs hr

lemma not_ready_of_stream (hl : lane ≠ .media) (hs : k.mStreams lane = some s)
    (h : s.peerPaused = true ∨ k.congestionWindowOpen lane = false ∨
      s.nextLost.1 = none ∧ s.inFlight.capacity ≤ s.nextSendSeq - s.sendBase) (seq : ℕ) (e : InFlight) :
    ¬k.Ready lane seq e := by
  intro hr
  obtain ⟨-, ho, t, ht, hp, hn⟩ := (ready_stream hl).mp hr
  rw [hs, Option.some.injEq] at ht
  subst ht
  rcases h with h | h | ⟨hlost, hfull⟩
  · rw [hp] at h
    cases h
  · rw [ho] at h
    cases h
  · rcases hn with hn | ⟨-, hroom, -⟩
    · rw [hlost] at hn
      cases hn
    · exact absurd hroom (not_lt.mpr hfull)

lemma peeks_stream (hl : lane ≠ .media) (hf : l.mFailed = false) (hs : l.mStreams lane = some s) :
    Peeks next l lane source (l.peek next lane source) := by
  have hk : Pruned l lane (l.setStream lane s.nextLost.2) := .inr ⟨hl, s, hs, rfl⟩
  have hset : (l.setStream lane s.nextLost.2).mStreams lane = some s.nextLost.2 := Function.update_self ..
  have hagain := s.nextLost_nextLost
  rw [peek, if_neg (by rw [hf]; exact Bool.false_ne_true), if_neg hl, checkIndex_of_ne_media l lane hl]
  dsimp only
  rw [hs]
  dsimp only
  rcases hx : s.nextLost with ⟨_ | ⟨seq, e⟩, t⟩
  · rw [hx] at hk hset hagain
    dsimp only
    split
    · next hg =>
      refine .nothing hk (not_ready_of_stream hl hset ?_) (.inl rfl)
      simp only [Bool.or_eq_true, decide_eq_true_eq, Bool.not_eq_true'] at hg
      rcases hg with (hg | hg) | hg
      · exact .inr (.inr ⟨by rw [hagain], hg⟩)
      · exact .inl hg
      · exact .inr (.inl hg)
    · next hg =>
      simp only [Bool.or_eq_true, decide_eq_true_eq, Bool.not_eq_true', not_or, not_le, ge_iff_le,
        Bool.not_eq_true,
        Bool.not_eq_false] at hg
      refine peeks_next hk hl hf hg.2 ?_ ?_ ?_
      · rw [streamFor_setStream_self]
        exact hg.1.2
      · rw [streamFor_setStream_self, hagain]
      · rw [streamFor_setStream_self]
        exact hg.1.1
  · rw [hx] at hk hset hagain
    dsimp only
    split
    · next hg =>
      refine .nothing hk (not_ready_of_stream hl hset ?_) (.inl rfl)
      rw [Bool.or_eq_true, Bool.not_eq_true'] at hg
      rcases hg with hg | hg
      · exact .inl hg
      · exact .inr (.inl hg)
    · next hg =>
      rw [Bool.or_eq_true, Bool.not_eq_true', not_or, Bool.not_eq_true, Bool.not_eq_false] at hg
      rw [hk.headerOf]
      exact .offers hk ((ready_stream hl).mpr ⟨hf, hg.2, t, hset, hg.1, .inl (by rw [hagain])⟩)

lemma peeks (next : MessageSource σ) (l : ReliableLink) (lane : Lane) (source : σ) :
    Peeks next l lane source (l.peek next lane source) := by
  cases hf : l.mFailed with
  | true =>
    rw [peek, if_pos hf]
    refine .nothing (.inl rfl) (fun seq e hr => ?_) (.inl rfl)
    have hrun := hr.1
    rw [hf] at hrun
    cases hrun
  | false =>
    by_cases hl : lane = .media
    · subst hl
      rw [peek, if_neg (by rw [hf]; exact Bool.false_ne_true), if_pos rfl]
      exact peeks_media hf
    · cases hs : l.mStreams lane with
      | some s => exact peeks_stream hl hf hs
      | none =>
        have hst : l.streamFor lane = .new (windowOf lane) := by rw [streamFor, hs]; rfl
        rw [peek, if_neg (by rw [hf]; exact Bool.false_ne_true), if_neg hl, checkIndex_of_ne_media l lane hl]
        dsimp only
        rw [hs]
        dsimp only
        split
        · next ho =>
          refine peeks_next (.inl rfl) hl hf ho ?_ ?_ ?_
          · rw [hst]
            rfl
          · rw [hst]
            rfl
          · rw [hst]
            cases lane <;> simp [Stream.new, windowOf, ControlWindow, ReliableWindow, BulkWindow]
        · refine .nothing (.inl rfl) (fun seq e hr => ?_) (.inl rfl)
          obtain ⟨-, -, s, hs', -⟩ := (ready_stream hl).mp hr
          rw [hs] at hs'
          cases hs'

namespace Peeks

variable {r : Option Packet × ReliableLink × σ}

lemma footing (h : Peeks next l lane source r) : r.2.1.footing = l.footing := by
  cases h with
  | nothing hk => exact hk.footing
  | offers hk => exact hk.footing
  | takes hk _ _ _ _ => exact (footing_withCursor lane _).trans hk.footing

lemma stats (h : Peeks next l lane source r) : r.2.1.mStats = l.mStats := by
  cases h with
  | nothing hk => exact hk.stats
  | offers hk => exact hk.stats
  | takes hk _ _ _ _ => exact (stats_withCursor lane _).trans hk.stats

lemma queued (h : Peeks next l lane source r) (ho : other ≠ lane) : r.2.1.queued other = l.queued other := by
  cases h with
  | nothing hk => exact hk.queued ho
  | offers hk => exact hk.queued ho
  | takes hk _ _ _ _ => exact (queued_withCursor _ ho).trans (hk.queued ho)

lemma offered {p : Packet} (h : Peeks next l lane source r) (hp : r.1 = some p) :
    ∃ seq e, p = makeDatagram (l.headerOf lane seq e) e.bytes ∧ r.2.1.mPeeked = p ∧ r.2.1.Ready lane seq e := by
  cases h with
  | nothing => cases hp
  | offers hk hr => exact ⟨_, _, (Option.some.inj hp).symm, Option.some.inj hp, hr⟩
  | takes hk _ _ _ hr => exact ⟨_, _, (Option.some.inj hp).symm, Option.some.inj hp, hr⟩

lemma again (h : Peeks next l lane source r) (hr : l.Ready lane seq e) :
    r.1 = some (makeDatagram (l.headerOf lane seq e) e.bytes) ∧ r.2.1.Ready lane seq e ∧ r.2.2 = source := by
  cases h with
  | nothing hk hn => exact absurd (hk.ready.mpr hr) (hn seq e)
  | offers hk hr' =>
    obtain ⟨rfl, rfl⟩ := hr.unique (hk.ready.mp hr')
    exact ⟨rfl, hr', rfl⟩
  | takes hk hn _ _ _ => exact absurd (hk.ready.mpr hr) (hn seq e)

end Peeks

end Peeks

end ReliableLink

end NetLink.Channel
