import NetLink.Channel.ReliableLink.Clocks
import NetLink.Channel.ReliableLink.Guarantees
import NetLink.Channel.ReliableLink.Intake
import NetLink.Channel.ReliableLink.Losses

/-! A link whose calls are made at times that never go back, with a record of them. -/

namespace NetLink.Channel

namespace Host

def Call.time : Call → Option TimePoint
  | .commit _ now | .onPacket _ now | .onTimer now | .supervise now => some now
  | _ => none

/-- A call with the link before and after it; `none` is what the owner's other links did to the budget they share.
-/
structure Happening where
  time : TimePoint
  call : Option Call
  before : ReliableLink
  after : ReliableLink

structure Timed where
  host : Host
  clock : TimePoint
  history : List Happening := []

namespace Timed

def next (t : Timed) (now : TimePoint) (call : Option Call) (host : Host) : Timed where
  host := host
  clock := now
  history := t.history ++ [⟨now, call, t.host.link, host.link⟩]

inductive Step (source : Lane → OutboundMessage → Prop) (incoming : Packet → Prop) : Timed → Timed → Prop
  | call (t : Timed) (c : Call) (now : TimePoint) (hc : t.host.Allows source incoming c) (hn : t.clock ≤ now)
      (ht : ∀ time ∈ c.time, time = now) : Step source incoming t (t.next now (some c) (t.host.call c))
  | exchangeBudget (t : Timed) (budget : AssemblyBudget) (now : TimePoint) (hn : t.clock ≤ now) :
      Step source incoming t (t.next now none (t.host.exchangeBudget budget))

def system (source : Lane → OutboundMessage → Prop) (incoming : Packet → Prop) : Lib.System Timed where
  init t := t.host.Initial ∧ t.history = []
  step := Step source incoming

variable {source : Lane → OutboundMessage → Prop} {incoming : Packet → Prop} {t t' : Timed}

def made (t : Timed) (call : TimePoint × Call) : Timed := t.next call.1 (some call.2) (t.host.call call.2)

def offers (t : Timed) : Call → Bool
  | .commit lane _ => t.host.offered == some lane
  | _ => true

def Fits (t : Timed) (call : TimePoint × Call) : Prop :=
  t.clock ≤ call.1 ∧ (∀ time ∈ call.2.time, time = call.1) ∧ t.offers call.2 = true

instance (t : Timed) (call : TimePoint × Call) : Decidable (t.Fits call) := inferInstanceAs (Decidable (_ ∧ _ ∧ _))

lemma step_made (call : TimePoint × Call) (h : t.Fits call) :
    Step (fun _ _ => True) (fun _ => True) t (t.made call) := by
  obtain ⟨now, c⟩ := call
  obtain ⟨hn, ht, hc⟩ := h
  refine .call t c now ?_ hn ht
  cases c with
  | peek lane next => exact fun _ _ => trivial
  | commit lane now => exact eq_of_beq hc
  | _ => trivial

def run (timings : LinkTimings) (calls : List (TimePoint × Call)) : Timed :=
  calls.foldl made { host := { link := .new timings 7 none }, clock := 0 }

lemma run_reachable {timings : LinkTimings} {calls : List (TimePoint × Call)}
    (h : Lib.Along Fits made { host := { link := .new timings 7 none }, clock := 0 } calls) :
    (system (fun _ _ => True) fun _ => True).Reachable (run timings calls) :=
  .along (fun _ => step_made) (.of_init ⟨⟨timings, 7, none, rfl⟩, rfl⟩) h

def sendOne (now : TimePoint) (lane : Lane) : List (TimePoint × Call) :=
  [(now, .peek lane (some { body := [1] })), (now, .commit lane now)]

def ackFor (lane : Lane) (seq : ℕ) (ranges : List SeqRange) : Packet where
  header := { flags := .ack lane false, srcStreamID := 9, dstStreamID := 7, seq := seq }
  ack := some { serial := 1, ranges := ranges }

def sentOnce : Timed :=
  run {} [(0, .peek .control (some { tag := 5, body := [1, 2] })), (0, .commit .control 0)]

lemma Step.host (hs : Step source incoming t t') : Host.Step source incoming t.host t'.host := by
  cases hs with
  | call c now hc => exact step_call hc
  | exchangeBudget budget now => exact .exchangeBudget t.host budget

lemma Step.clock_le (hs : Step source incoming t t') : t.clock ≤ t'.clock := by
  cases hs with
  | call c now hc hn => exact hn
  | exchangeBudget budget now hn => exact hn

lemma reachable_host (hr : (system source incoming).Reachable t) :
    (Host.system source incoming).Reachable t.host := by
  refine hr.invariant (P := fun t => (Host.system source incoming).Reachable t.host) ?_ ?_
  · rintro t ⟨hi, -⟩
    exact .of_init hi
  · intro t t' _ h (hs : Step source incoming t t')
    exact h.step hs.host

lemma Step.pace (hs : Step source incoming t t') :
    (∃ heard, t'.host.link.pace = { t.host.link.pace with heard := heard }) ∨
      (∃ lane, t.host.offered = some lane ∧ t'.host.link = t.host.link.commit lane t'.clock) ∨
      (∃ packet, incoming packet ∧ t'.host.link = t.host.link.onPacket packet t'.clock) ∨
      t'.host.link = t.host.link.onTimer t'.clock := by
  cases hs with
  | exchangeBudget budget now => exact .inl ⟨_, rfl⟩
  | call c now hc hn ht =>
    cases c with
    | peek lane next => exact .inl ⟨_, ReliableLink.pace_peek ..⟩
    | commit lane time =>
      obtain rfl := ht time rfl
      exact .inr (.inl ⟨lane, hc, rfl⟩)
    | peekAck => exact .inl ⟨_, ReliableLink.pace_peekAck⟩
    | commitAck => exact .inl ⟨_, rfl⟩
    | onPacket packet time =>
      obtain rfl := ht time rfl
      exact .inr (.inr (.inl ⟨packet, hc, rfl⟩))
    | setPaused paused => exact .inl ⟨_, ReliableLink.pace_setPaused paused⟩
    | onTimer time =>
      obtain rfl := ht time rfl
      exact .inr (.inr (.inr rfl))
    | supervise time => exact .inl ⟨_, rfl⟩
    | takeDelivered => exact .inl ⟨_, rfl⟩

end Timed

end Host

lemma SequenceBuffer.find_of_find_assign {α : Type} {b : SequenceBuffer α} {s t : ℕ} {v w : α}
    (h : (b.assign s w).find t = some v) : t = s ∧ v = w ∨ t ≠ s ∧ b.find t = some v := by
  rw [assign] at h
  split at h
  · next hc =>
    by_cases ht : t = s
    · subst ht
      obtain ⟨u, hu⟩ := contains_iff.mp hc
      have hi : b.index t < b.mSlots.length := (List.getElem?_eq_some_iff.mp (find_eq_some_iff.mp hu)).1
      rw [find_eq_some_iff] at h
      simp only [index, List.length_set, List.getElem?_set] at h hi
      simp only [hi, if_true, Option.some.injEq, Prod.mk.injEq, true_and] at h
      exact .inl ⟨rfl, h.symm⟩
    · refine .inr ⟨ht, (find_of_find_set h).resolve_left fun he => ht ?_⟩
      rw [Option.some.injEq, Prod.mk.injEq] at he
      exact he.1.symm
  · next hc =>
    refine .inr ⟨?_, h⟩
    rintro rfl
    exact hc (contains_iff.mpr ⟨v, h⟩)

namespace ReliableLink

variable {l l' : ReliableLink} {records : List SentRecord} {clock now : TimePoint}

def Stamped (l l' : ReliableLink) : Prop :=
  ∀ lane seq e', l'.entry lane seq = some e' →
    ∃ e, l.entry lane seq = some e ∧ e.transmission = e'.transmission ∧ e.sentAt = e'.sentAt

lemma stamped_of_sub (h : ∀ lane seq e, l'.entry lane seq = some e → l.entry lane seq = some e) : l.Stamped l' :=
  fun lane seq e hf => ⟨e, h lane seq e hf, rfl, rfl⟩

lemma Stamped.trans {l'' : ReliableLink} (h : l.Stamped l') (h' : l'.Stamped l'') : l.Stamped l'' := by
  intro lane seq e'' hf
  obtain ⟨e', hf', ht', hs'⟩ := h' lane seq e'' hf
  obtain ⟨e, hf, ht, hs⟩ := h lane seq e' hf'
  exact ⟨e, hf, ht.trans ht', hs.trans hs'⟩

lemma stamped_of_pace {heard : Option TimePoint} (h : l'.pace = { l.pace with heard := heard }) :
    l.Stamped l' := by
  refine stamped_of_sub fun lane seq e hf => ?_
  have hin : (l'.streamFor lane).inFlight = (l.streamFor lane).inFlight :=
    congrArg Stream.Outward.inFlight (congrFun (congrArg Pace.outward h) lane)
  rwa [entry, hin] at hf

lemma swept_stamped {due : InFlight → Bool} (h : Swept due l records l') : l.Stamped l' := by
  refine h.keeps (P := l.Stamped) (stamped_of_sub fun _ _ _ => id) ?_ fun k sent stats hk => hk
  intro k record e timedOut he hk
  refine hk.trans fun lane seq e' hf => ?_
  obtain ⟨stats, window, start, hm⟩ := k.markLost_eq record e timedOut
  rw [hm] at hf
  change (k.setStream record.lane ((k.streamFor record.lane).givenUp record.seq e)).entry lane seq = some e' at hf
  by_cases hl : lane = record.lane
  · subst hl
    rw [entry_setStream] at hf
    rcases SequenceBuffer.find_of_find_assign hf with ⟨rfl, rfl⟩ | ⟨-, hf⟩
    · exact ⟨e, (entryOf_eq_some he).1, rfl, rfl⟩
    · exact ⟨e', hf, rfl, rfl⟩
  · rw [entry_setStream_of_ne hl] at hf
    exact ⟨e', hf, rfl, rfl⟩

lemma SameSending.stamped (h : l.SameSending l') : l.Stamped l' :=
  stamped_of_sub fun lane seq _ hf => (h.entry lane seq).symm.trans hf

lemma stamped_afterAck (lane : Lane) (scan : AckScan) (now : TimePoint) :
    l.Stamped (l.afterAck lane scan now) := by
  obtain ⟨_, rtt, timeouts, l', hs, stalled, window, he⟩ := afterAck_swept l lane scan now
  have hl' := swept_stamped hs
  rw [he]
  exact hl'

lemma stamped_onPacket (hw : l.Sending) (packet : Packet) (now : TimePoint) :
    l.Stamped (l.onPacket packet now) := by
  rcases onPacket_sending l packet now with hs | ⟨-, ack, -, k, hs, he⟩
  · exact hs.stamped
  · have hk : k.Stamped (k.acknowledged packet.header.flags.lane packet.header ack) :=
      stamped_of_sub fun lane seq e => entry_acknowledged (hs.sending hw)
    rw [he]
    exact (hs.stamped.trans hk).trans (stamped_afterAck _ _ now)

lemma entry_probe (now : TimePoint) (l : ReliableLink) (other lane : Lane) (seq : ℕ) :
    (probe now l other).entry lane seq = l.entry lane seq := by
  rcases probe_cases now l other with ⟨hp, -⟩ | ⟨s, hs, -, -, hp⟩
  · rw [hp]
  · rw [hp]
    by_cases hl : lane = other
    · subst hl
      rw [entry_setStream, entry, streamFor_of_some l lane s hs]
      rfl
    · rw [entry_setStream_of_ne hl]
      rfl

lemma entry_foldl_probe (now : TimePoint) (lanes : List Lane) (l : ReliableLink) (lane : Lane) (seq : ℕ) :
    (lanes.foldl (probe now) l).entry lane seq = l.entry lane seq := by
  induction lanes generalizing l with
  | nil => rfl
  | cons other lanes ih => rw [List.foldl_cons, ih, entry_probe]

lemma lost_foldl_probe (now : TimePoint) (lanes : List Lane) (l : ReliableLink) (lane : Lane) :
    ((lanes.foldl (probe now) l).streamFor lane).lost = (l.streamFor lane).lost := by
  induction lanes generalizing l with
  | nil => rfl
  | cons other lanes ih =>
    rw [List.foldl_cons, ih]
    rcases probe_cases now l other with ⟨hp, -⟩ | ⟨s, hs, -, -, hp⟩
    · rw [hp]
    · rw [hp, streamFor_setStream]
      by_cases hl : lane = other
      · subst hl
        rw [Function.update_self, streamFor_of_some l lane s hs]
        rfl
      · rw [Function.update_of_ne hl]
        rfl

lemma entry_fail (l : ReliableLink) (lane : Lane) (seq : ℕ) : l.fail.entry lane seq = none := by
  simp [entry, fail, resetStreams, streamFor, Stream.new]

lemma stamped_onTimer (l : ReliableLink) (now : TimePoint) : l.Stamped (l.onTimer now) := by
  rcases onTimer_swept l now with he | he | ⟨_, due, pinged, l', hs, n, he⟩
  · rw [he]
    exact stamped_of_sub fun _ _ _ => id
  · rw [he]
    intro lane seq e hf
    rw [entry_fail] at hf
    cases hf
  · have hl' : l.Stamped l' := fun lane seq e => swept_stamped hs lane seq e
    rw [he]
    refine hl'.trans (stamped_of_sub fun lane seq e hf => ?_)
    rwa [entry_foldl_probe] at hf

lemma commit_stamps (l : ReliableLink) (lane : Lane) (now : TimePoint) : (l.commit lane now).pace = l.pace ∨
    (l.commit lane now).mTransmissions = l.mTransmissions + 1 ∧
      ∀ other seq e', (l.commit lane now).entry other seq = some e' →
        l.entry other seq = some e' ∨ e'.transmission = l.mTransmissions + 1 ∧ e'.sentAt = now := by
  rcases commit_pace l lane now with hp | ⟨-, s, t, seq, e, hs, he, -, hin⟩
  · exact .inl hp
  · obtain ⟨stats, stalled, ht⟩ := transmit_fields l lane t seq e now
    right
    rw [he, ht]
    refine ⟨rfl, fun other r e' hf => ?_⟩
    change (l.setStream lane (t.onWire seq _)).entry other r = some e' at hf
    by_cases ho : other = lane
    · subst ho
      rw [entry_setStream] at hf
      rcases SequenceBuffer.find_of_find_assign hf with ⟨-, rfl⟩ | ⟨hne, hf⟩
      · exact .inr ⟨rfl, rfl⟩
      · left
        rw [entry, streamFor_of_some l other s hs]
        rcases hin with hin | hin
        · rwa [hin] at hf
        · rw [hin] at hf
          exact (SequenceBuffer.find_of_find_insert hf).resolve_left fun h => hne h.1
    · rw [entry_setStream_of_ne ho] at hf
      exact .inl hf

structure InOrder (l : ReliableLink) (clock : TimePoint) : Prop where
  past : ∀ lane seq e, l.entry lane seq = some e → e.sentAt ≤ clock
  numbered : ∀ lane seq e, l.entry lane seq = some e → e.transmission ≤ l.mTransmissions
  mono : ∀ lane seq e lane' seq' e', l.entry lane seq = some e → l.entry lane' seq' = some e' →
    e.transmission ≤ e'.transmission → e.sentAt ≤ e'.sentAt

namespace InOrder

lemma stamped (h : l.InOrder clock) (hs : l.Stamped l') (hn : l'.mTransmissions = l.mTransmissions)
    (hle : clock ≤ now) : l'.InOrder now where
  past lane seq e' hf := by
    obtain ⟨e, hf, -, hsent⟩ := hs lane seq e' hf
    exact hsent ▸ (h.past lane seq e hf).trans hle
  numbered lane seq e' hf := by
    obtain ⟨e, hf, ht, -⟩ := hs lane seq e' hf
    rw [hn, ← ht]
    exact h.numbered lane seq e hf
  mono lane seq e₁ lane' seq' e₂ hf₁ hf₂ hle := by
    obtain ⟨a, ha, ht, hsent⟩ := hs lane seq e₁ hf₁
    obtain ⟨b, hb, ht', hsent'⟩ := hs lane' seq' e₂ hf₂
    rw [← hsent, ← hsent']
    exact h.mono lane seq a lane' seq' b ha hb (by rw [ht, ht']; exact hle)

lemma fail (l : ReliableLink) (clock : TimePoint) : l.fail.InOrder clock where
  past lane seq e hf := by simp [entry_fail] at hf
  numbered lane seq e hf := by simp [entry_fail] at hf
  mono lane seq e lane' seq' e' hf := by simp [entry_fail] at hf

lemma commit (h : l.InOrder clock) (lane : Lane) (hle : clock ≤ now) : (l.commit lane now).InOrder now := by
  rcases commit_stamps l lane now with hp | ⟨hn, hnew⟩
  · exact h.stamped (stamped_of_pace hp) (congrArg Pace.transmissions hp) hle
  · refine ⟨fun other seq e hf => ?_, fun other seq e hf => ?_, fun other seq e other' seq' e' hf hf' hte => ?_⟩
    · rcases hnew other seq e hf with hf | ⟨-, hs⟩
      · exact (h.past other seq e hf).trans hle
      · exact le_of_eq hs
    · rcases hnew other seq e hf with hf | ⟨ht, -⟩
      · exact (h.numbered other seq e hf).trans (by omega)
      · omega
    · rcases hnew other seq e hf with hf | ⟨ht, hs⟩ <;> rcases hnew other' seq' e' hf' with hf' | ⟨ht', hs'⟩
      · exact h.mono other seq e other' seq' e' hf hf' hte
      · rw [hs']
        exact (h.past other seq e hf).trans hle
      · have := h.numbered other' seq' e' hf'
        omega
      · rw [hs, hs']

lemma onTimer (h : l.InOrder clock) (hle : clock ≤ now) : (l.onTimer now).InOrder now := by
  rcases aside_onTimer (l := l) now with ha | he
  · exact h.stamped (stamped_onTimer l now) (congrArg Aside.transmissions ha) hle
  · rw [he]
    exact .fail l now

end InOrder

end ReliableLink

namespace Host.Timed

variable {source : Lane → OutboundMessage → Prop} {incoming : Packet → Prop} {t t' : Timed}

lemma sending_of_sound {h : Host} (hs : h.Sound) : h.link.Sending := fun lane => (hs.view.send lane).wf

lemma Step.inOrder (hs : Step source incoming t t') (hw : t.host.link.Sending) (h : t.host.link.InOrder t.clock) :
    t'.host.link.InOrder t'.clock := by
  have hle := hs.clock_le
  rcases hs.pace with ⟨heard, he⟩ | ⟨lane, -, he⟩ | ⟨packet, -, he⟩ | he
  · exact h.stamped (ReliableLink.stamped_of_pace he) (congrArg ReliableLink.Pace.transmissions he) hle
  · exact he ▸ h.commit lane hle
  · rw [he]
    exact h.stamped (ReliableLink.stamped_onPacket hw packet _) (ReliableLink.transmissions_onPacket ..) hle
  · exact he ▸ h.onTimer hle

lemma inOrder (hr : (system source incoming).Reachable t) : t.host.link.InOrder t.clock := by
  refine hr.invariant (P := fun t => t.host.link.InOrder t.clock) ?_ ?_
  · rintro t ⟨⟨timings, id, budget, he⟩, -⟩
    have hnone : ∀ lane seq, t.host.link.entry lane seq = none := by
      intro lane seq
      rw [he]
      simp [ReliableLink.entry, ReliableLink.new, ReliableLink.streamFor, Stream.new]
    refine ⟨fun lane seq e hf => ?_, fun lane seq e hf => ?_, fun lane seq e lane' seq' e' hf => ?_⟩
    all_goals
      rw [hnone] at hf
      cases hf
  · intro t t' hr h (hs : Step source incoming t t')
    exact hs.inOrder (sending_of_sound (sound (reachable_host hr))) h

end Host.Timed

end NetLink.Channel
