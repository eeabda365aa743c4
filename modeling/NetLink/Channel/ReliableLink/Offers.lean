import Mathlib.Data.List.DropRight
import NetLink.Channel.ReliableLink.Runs

/-! `peek` and `commit`: the packet a link offers, and the runs of moves these calls are. -/

namespace NetLink.Channel

namespace Stream

def Next (s : Stream) (seq : ℕ) (e : InFlight) : Prop :=
  s.nextLost.1 = some (seq, e) ∨
    s.nextLost.1 = none ∧ s.nextSendSeq - s.sendBase < s.inFlight.capacity ∧ seq = s.nextSendSeq ∧
      ∃ c, s.cursor = some c ∧ e = fragmentAt c

lemma nextLost_nextLost (s : Stream) : s.nextLost.2.nextLost = s.nextLost := by
  simp only [nextLost, List.dropWhile_idempotent]

lemma Next.found {s : Stream} {seq : ℕ} {e : InFlight} (hn : s.Next seq e) :
    s.inFlight.find seq = some e ∨ seq = s.nextSendSeq ∧ ∃ c, s.cursor = some c ∧ e = fragmentAt c := by
  rcases hn with hl | ⟨-, -, hs, hc⟩
  · exact .inl (SendInv.nextLost_some hl).2.1
  · exact .inr ⟨hs, hc⟩

end Stream

namespace ReliableLink

variable {f : Feed} {l : ReliableLink} {h : Host} {lane : Lane} {next : Option OutboundMessage}

def Offers (l : ReliableLink) (lane : Lane) : Prop :=
  l.mFailed = false ∧ ∃ seq e, l.mPeeked = makeDatagram (l.headerOf lane seq e) e.bytes ∧
    (lane ≠ .media → ∃ s, l.mStreams lane = some s ∧ s.Next seq e)

lemma noteTaken_self (h : Host) (lane : Lane) (next : Option OutboundMessage) :
    h.noteTaken lane next next = h := by
  cases next <;> simp [Host.noteTaken]

lemma refl_noteTaken (l : ReliableLink) (h : Host) (lane : Lane) (next : Option OutboundMessage) :
    LinkRun f (l.view h) (l.view (h.noteTaken lane next next)) := by
  rw [noteTaken_self]
  exact .refl _

lemma view_noteTaken (h : Host) (lane : Lane) (m : OutboundMessage) : l.view (h.noteTaken lane (some m) none) =
    { l.view h with taken := Function.update h.taken lane (h.taken lane ++ [m]) } := by
  simp [Host.noteTaken, view]

lemma cursor_streamFor (l : ReliableLink) (lane : Lane) :
    (l.streamFor lane).cursor = (l.mStreams lane).bind (·.cursor) := by
  unfold streamFor
  cases l.mStreams lane <;> rfl

lemma peekNext_run (hl : lane ≠ .media) (hs : ∀ m ∈ next, f.source lane m) :
    LinkRun f (l.view h) ((l.peekNext Host.single lane next).2.1.view
      (h.noteTaken lane next (l.peekNext Host.single lane next).2.2)) := by
  unfold peekNext
  split
  · exact refl_noteTaken l h lane next
  · next hc =>
    rw [← cursor_streamFor] at hc
    rcases next with _ | m
    · exact refl_noteTaken l h lane none
    · have hm : LinkMove f (l.view h) ((l.setStream lane ((l.streamFor lane).took m)).view
          (h.noteTaken lane (some m) none)) := by
        rw [view_noteTaken, view_setStream]
        exact .take (l.view h) lane m hl (hs m rfl) hc
      exact .single hm

lemma peekNext_offers (hf : l.mFailed = false) (hn : (l.streamFor lane).nextLost.1 = none)
    (hr : (l.streamFor lane).nextSendSeq - (l.streamFor lane).sendBase < (l.streamFor lane).inFlight.capacity)
    (hp : (l.peekNext Host.single lane next).1.isSome) : Offers (l.peekNext Host.single lane next).2.1 lane := by
  unfold peekNext at hp ⊢
  split
  · next c hc =>
    obtain ⟨s, hs, hsc⟩ := Option.bind_eq_some_iff.mp hc
    have hst := streamFor_of_some l lane s hs
    exact ⟨hf, _, _, rfl, fun _ => ⟨s, hs, .inr ⟨hst ▸ hn, hst ▸ hr, by rw [hst], c, hsc, rfl⟩⟩⟩
  · next hc =>
    rcases next with _ | m
    · simp [hc, Host.single] at hp
    · refine ⟨hf, _, _, rfl, fun _ => ⟨(l.streamFor lane).took m, ?_, .inr ⟨hn, hr, rfl, _, rfl, rfl⟩⟩⟩
      exact Function.update_self ..

lemma peekMedia_run : LinkRun f (l.view h) ((l.peekMedia Host.single next).2.1.view
    (h.noteTaken .media next (l.peekMedia Host.single next).2.2)) := by
  unfold peekMedia
  split
  · exact refl_noteTaken l h .media next
  · rcases next with _ | m
    · exact refl_noteTaken l h .media none
    · exact .single (.takeMedia (l.view h) _)

lemma peekMedia_offers (hf : l.mFailed = false) (hp : (l.peekMedia Host.single next).1.isSome) :
    Offers (l.peekMedia Host.single next).2.1 .media := by
  unfold peekMedia at hp ⊢
  split
  · exact ⟨hf, _, _, rfl, fun hl => absurd rfl hl⟩
  · rcases next with _ | m
    · simp_all [Host.single]
    · exact ⟨hf, _, _, rfl, fun hl => absurd rfl hl⟩

variable (lane) in
lemma view_transmit (s : Stream) (seq : ℕ) (e : InFlight) (now : TimePoint) :
    (l.transmit lane s seq e now).view h = { (l.view h).set lane { s with
        inFlight := s.inFlight.assign seq (e.transmitted now (l.mTransmissions + 1))
        onTheWire := s.onTheWire + 1 } with
      sent := l.mSent ++ [⟨l.mTransmissions + 1, seq, lane⟩]
      transmissions := l.mTransmissions + 1 } := by
  unfold transmit
  dsimp only
  rw [view_updateProgressClock, view_setStream]
  rfl

lemma commit_move (hl : lane ≠ .media) (ho : l.Offers lane) (now : TimePoint) :
    ∃ s seq e, l.mStreams lane = some s ∧ l.mPeeked = makeDatagram (l.headerOf lane seq e) e.bytes ∧
      LinkMove f ((l.view h).set lane s.nextLost.2) ((l.commit lane now).view h) ∧
      (l.commit lane now).mSent = l.mSent ++ [⟨l.mTransmissions + 1, seq, lane⟩] ∧
      (l.commit lane now).mTransmissions = l.mTransmissions + 1 := by
  obtain ⟨-, seq, e, hp, hs⟩ := ho
  obtain ⟨s, hs, hn⟩ := hs hl
  refine ⟨s, seq, e, hs, hp, ?_⟩
  unfold commit
  dsimp only
  rw [if_neg hl, checkIndex_of_ne_media l lane hl, hs]
  dsimp only
  have hset : ((l.view h).set lane s.nextLost.2).streams lane = s.nextLost.2 := LinkView.streams_set ..
  have hsent : ∀ t e, (l.transmit lane t seq e now).mSent = l.mSent ++ [⟨l.mTransmissions + 1, seq, lane⟩] ∧
      (l.transmit lane t seq e now).mTransmissions = l.mTransmissions + 1 := fun t e => by
    have hv := view_transmit lane (l := l) (h := h) t seq e now
    exact ⟨congrArg LinkView.sent hv, congrArg LinkView.transmissions hv⟩
  rcases hn with hn | ⟨hn, hr, rfl, c, hc, rfl⟩
  · obtain ⟨hlost, hf, he⟩ := SendInv.nextLost_some hn
    have hm := LinkMove.retransmit (f := f) ((l.view h).set lane s.nextLost.2) lane seq
      s.nextLost.2.lost.tail e now
    rw [hset, LinkView.set_set] at hm
    rw [show s.nextLost = (some (seq, e), s.nextLost.2) from Prod.ext hn rfl]
    dsimp only
    rw [view_transmit]
    exact ⟨hm hl hlost hf he, hsent ..⟩
  · have hm := LinkMove.transmit (f := f) ((l.view h).set lane s.nextLost.2) lane c now
    rw [hset, LinkView.set_set] at hm
    have hc' : s.nextLost.2.cursor = some c := hc
    rw [show s.nextLost = (none, s.nextLost.2) from Prod.ext hn rfl]
    dsimp only
    rw [hc']
    dsimp only
    rw [view_transmit]
    exact ⟨hm hl hc hr, hsent ..⟩

lemma commit_run (hl : lane ≠ .media) (ho : l.Offers lane) (now : TimePoint) :
    LinkRun f (l.view h) ((l.commit lane now).view h) := by
  obtain ⟨s, seq, e, hs, -, hm, -⟩ := commit_move (f := f) (h := h) hl ho now
  have hst : (l.view h).streams lane = s := streamFor_of_some l lane s hs
  have hscrub : LinkRun f (l.view h) ((l.view h).set lane s.nextLost.2) := hst ▸ .single (.scrub _ lane)
  exact hscrub.tail hm

lemma peek_run (hs : ∀ m ∈ next, f.source lane m) : LinkRun f (l.view h) ((l.peek Host.single lane next).2.1.view
    (h.noteTaken lane next (l.peek Host.single lane next).2.2)) := by
  unfold peek
  split
  · exact refl_noteTaken l h lane next
  split
  · next hl =>
    subst hl
    exact peekMedia_run
  next hl =>
  rw [checkIndex_of_ne_media l lane hl]
  dsimp only
  split
  · split
    · exact peekNext_run hl hs
    · exact refl_noteTaken l h lane next
  · next s hs' =>
    have hst : (l.view h).streams lane = s := streamFor_of_some l lane s hs'
    have hscrub : LinkRun f (l.view h) ((l.setStream lane s.nextLost.2).view h) := by
      rw [view_setStream]
      exact hst ▸ .single (.scrub _ lane)
    refine hscrub.trans ?_
    rcases s.nextLost with ⟨_ | ⟨seq, e⟩, t⟩
    · dsimp only
      split
      · exact refl_noteTaken ..
      · exact peekNext_run hl hs
    · dsimp only
      split
      · exact refl_noteTaken ..
      · exact refl_noteTaken ..

lemma peek_offers (hp : (l.peek Host.single lane next).1.isSome) :
    Offers (l.peek Host.single lane next).2.1 lane := by
  unfold peek at hp ⊢
  split
  · next hf =>
    simp [hf] at hp
  next hf =>
  rw [Bool.not_eq_true] at hf
  split
  · next hl =>
    subst hl
    exact peekMedia_offers hf (by simpa [hf] using hp)
  next hl =>
  rw [if_neg (by simp [hf]), if_neg hl] at hp
  rw [checkIndex_of_ne_media l lane hl] at hp ⊢
  dsimp only at hp ⊢
  cases hs : l.mStreams lane with
  | none =>
    rw [hs] at hp
    dsimp only at hp ⊢
    split
    · next ho =>
      rw [if_pos ho] at hp
      have hst : l.streamFor lane = .new (windowOf lane) := by simp [streamFor, hs]
      refine peekNext_offers hf ?_ ?_ hp
      · rw [hst]
        rfl
      · rw [hst]
        cases lane <;> simp [Stream.new, windowOf, ControlWindow, ReliableWindow, BulkWindow]
    · next ho =>
      simp [ho] at hp
  | some s =>
    rw [hs] at hp
    dsimp only at hp ⊢
    have hn := s.nextLost_nextLost
    rcases hx : s.nextLost with ⟨_ | ⟨seq, e⟩, t⟩
    · rw [hx] at hp hn
      dsimp only at hp hn ⊢
      split
      · next hg =>
        simp [hg] at hp
      · next hg =>
        rw [if_neg hg] at hp
        simp only [Bool.or_eq_true, decide_eq_true_eq, not_or, not_le, ge_iff_le] at hg
        refine peekNext_offers hf ?_ ?_ hp
        · rw [streamFor_setStream_self, hn]
        · rw [streamFor_setStream_self]
          exact hg.1.1
    · rw [hx] at hp hn
      dsimp only at hp hn ⊢
      split
      · next hg =>
        simp [hg] at hp
      · exact ⟨hf, seq, e, rfl, fun _ => ⟨t, Function.update_self .., .inl (by rw [hn])⟩⟩

end ReliableLink

namespace Host

variable {source : Lane → OutboundMessage → Prop} {incoming : Packet → Prop} {h h' : Host}

def feed (source : Lane → OutboundMessage → Prop) (incoming : Packet → Prop) : Feed where
  source := source
  data lane header body := ∃ packet, incoming packet ∧ packet.feed.data lane header body
  acked lane seq := ∃ packet, incoming packet ∧ packet.acks lane seq
  stray := ∃ packet, incoming packet ∧ packet.feed.stray
  receives := True
  releases := True
  sweeps := True

lemma feed_le {packet : Packet} (hp : incoming packet) : packet.feed.LE (feed source incoming) where
  source _ _ h := h.elim
  data _ _ _ h := ⟨packet, hp, h⟩
  acked _ _ h := ⟨packet, hp, h⟩
  stray h := ⟨packet, hp, h⟩
  receives _ := trivial
  releases _ := trivial
  sweeps _ := trivial

def Fails (h h' : Host) : Prop := h' = { h with link := h.link.fail, offered := none }

lemma offers_of_step (hs : Step source incoming h h') {lane : Lane} (ho : h'.offered = some lane) :
    h'.link.Offers lane := by
  cases hs with
  | peek lane' next hm =>
    simp only [peek, Option.map_eq_some_iff] at ho
    obtain ⟨packet, hp, rfl⟩ := ho
    exact ReliableLink.peek_offers (by simp [hp])
  | commit | peekAck | commitAck | onPacket | setPaused | onTimer | supervise | takeDelivered | exchangeBudget =>
    simp [commit, peekAck, commitAck, onPacket, setPaused, onTimer, supervise, takeDelivered,
      exchangeBudget] at ho

lemma view_commitMedia (l : ReliableLink) (h : Host) : l.commitMedia.view h = l.view h := by
  unfold ReliableLink.commitMedia
  split <;> rfl

lemma view_setPaused (l : ReliableLink) (h : Host) (paused : Bool) : (l.setPaused paused).view h = l.view h := by
  unfold ReliableLink.setPaused
  split
  · rfl
  · simp only [List.foldl_cons, List.foldl_nil]
    split <;> split <;> rfl

lemma view_takeDelivered (h : Host) : h.takeDelivered.view = h.view := by
  simp only [view, ReliableLink.view, takeDelivered, ReliableLink.takeDelivered, List.append_nil]
  rfl

lemma run_of_step (hs : Step source incoming h h') (ho : ∀ lane, h.offered = some lane → h.link.Offers lane) :
    Fails h h' ∨ LinkRun (feed source incoming) h.view h'.view := by
  cases hs with
  | peek lane next hm => exact .inr (ReliableLink.peek_run hm)
  | commit lane now hl =>
    refine .inr ?_
    by_cases hm : lane = .media
    · subst hm
      exact .of_eq (view_commitMedia h.link h)
    · exact ReliableLink.commit_run hm (ho lane hl) now
  | peekAck => exact .inr (ReliableLink.peekAck_run trivial)
  | commitAck => exact .inr (.single (.unqueue _))
  | onPacket packet now hp => exact .inr ((ReliableLink.onPacket_run packet now).mono (feed_le hp))
  | setPaused paused => exact .inr (.of_eq (view_setPaused h.link h paused))
  | onTimer now =>
    rcases ReliableLink.onTimer_run (f := feed source incoming) (l := h.link) (h := h) trivial now with he | hr
    · exact .inl (by rw [Fails, onTimer, he])
    · exact .inr hr
  | supervise now => exact .inr (.refl _)
  | takeDelivered => exact .inr (.of_eq h.view_takeDelivered)
  | exchangeBudget budget => exact .inr (.refl _)

end Host

end NetLink.Channel
