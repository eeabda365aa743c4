import NetLink.Channel.ReliableLink.Ends
import NetLink.Channel.ReliableLink.Unanswered
import NetLink.Engine.Moves

/-! The link of a session is a link in the hands of its owner. -/

namespace NetLink.NetworkEngine

open Channel (ReliableLink OutboundMessage Packet TimePoint Host MaxMessagePayload)

def SmallControl (lane : Channel.Lane) (m : OutboundMessage) : Prop :=
  lane = .control → m.body.length ≤ MaxMessagePayload

lemma LinkCall.streams {l l' : ReliableLink} (h : LinkCall l l') : l'.streams = l.streams := by
  cases h with
  | budget | takeDelivered | commitAck => rfl
  | onTimer now => exact ReliableLink.streams_onTimer now
  | setPaused paused =>
    exact ReliableLink.streams_of_ends (ReliableLink.ends_of_aside (ReliableLink.aside_setPaused paused))
  | peekAck => exact ReliableLink.streams_peekAck

lemma streams_peeked (s : SessionView) (lane : Channel.Lane) (next : Option OutboundMessage) :
    (s.peeked lane next).link.streams = s.link.streams :=
  ReliableLink.streams_of_ends (ReliableLink.ends_of_aside (ReliableLink.aside_peek _ next))

lemma streams_committed (s : SessionView) (lane : Channel.Lane) (next : Option OutboundMessage) (now : TimePoint) :
    (s.committed lane next now).link.streams = s.link.streams :=
  (ReliableLink.streams_of_ends (ReliableLink.ends_commit now)).trans (streams_peeked s lane next)

/-- A run of calls made the link what it is. Its packets came from `incoming`, and `queued` is what the engine
had for its Control lane: what the link took, and what still waits. -/
def Serves (incoming : Packet → Prop) (queued : List OutboundMessage) (l : ReliableLink)
    (control : List OutboundMessage) : Prop :=
  (∀ m ∈ queued, m.body.length ≤ MaxMessagePayload) ∧
    ∃ h : Host, (Host.system SmallControl incoming).Reachable h ∧ h.link = l ∧ h.taken .control ++ control = queued

namespace Serves

variable {incoming incoming' : Packet → Prop} {queued control : List OutboundMessage} {l l' : ReliableLink}

lemma mono (hi : ∀ p, incoming p → incoming' p) (h : Serves incoming queued l control) :
    Serves incoming' queued l control := by
  obtain ⟨hq, host, ⟨start, hs, hr⟩, hl, ht⟩ := h
  exact ⟨hq, host, ⟨start, hs, Host.steps_mono hi hr⟩, hl, ht⟩

lemma newborn (hl : Newborn l) (hc : ∀ m ∈ control, m.body.length ≤ MaxMessagePayload) :
    Serves incoming control l control := by
  obtain ⟨timings, id, budget, now, paused, budget', -, rfl⟩ := hl
  have hnew : (Host.system SmallControl incoming).Reachable { link := .new timings id (some budget) } :=
    .of_init ⟨timings, id, some budget, rfl⟩
  refine ⟨hc, _, ((hnew.step (.supervise _ now)).step (.setPaused _ paused)).step
    (.exchangeBudget _ budget'), rfl, ?_⟩
  rfl

lemma queue (h : Serves incoming queued l control) {m : OutboundMessage} (hm : m.body.length ≤ MaxMessagePayload) :
    Serves incoming (queued ++ [m]) l (control ++ [m]) := by
  obtain ⟨hq, host, hr, hl, ht⟩ := h
  refine ⟨?_, host, hr, hl, by rw [← ht, List.append_assoc]⟩
  intro m' hm'
  rcases List.mem_append.mp hm' with hm' | hm'
  · exact hq m' hm'
  · rwa [List.mem_singleton.mp hm']

lemma onPacket (h : Serves incoming queued l control) {p : Packet} (hp : incoming p) (now : TimePoint) :
    Serves incoming queued (l.onPacket p now) control := by
  obtain ⟨hq, host, hr, rfl, ht⟩ := h
  exact ⟨hq, _, hr.step (.onPacket host p now hp), rfl, ht⟩

lemma call (h : Serves incoming queued l control) (hl : LinkCall l l') : Serves incoming queued l' control := by
  obtain ⟨hq, host, hr, rfl, ht⟩ := h
  cases hl with
  | budget budget => exact ⟨hq, _, hr.step (.exchangeBudget host budget), rfl, ht⟩
  | onTimer now => exact ⟨hq, _, hr.step (.onTimer host now), rfl, ht⟩
  | setPaused paused => exact ⟨hq, _, hr.step (.setPaused host paused), rfl, ht⟩
  | takeDelivered => exact ⟨hq, _, hr.step (.takeDelivered host), rfl, ht⟩
  | peekAck => exact ⟨hq, _, hr.step (.peekAck host), rfl, ht⟩
  | commitAck => exact ⟨hq, _, hr.step (.commitAck host), rfl, ht⟩

variable {s : SessionView} {lane : Channel.Lane} {next : Option OutboundMessage}

lemma exists_peeked (h : Serves incoming queued s.link s.control) (hn : s.Supplies lane next) :
    ∃ host : Host, (Host.system SmallControl incoming).Reachable host ∧ host.link = (s.peeked lane next).link ∧
      host.taken .control ++ (s.peeked lane next).control = queued ∧
      host.offered = (s.link.peek Host.single lane next).1.map fun _ => lane := by
  obtain ⟨hq, host, hr, hl, ht⟩ := h
  have hsmall : ∀ m ∈ next, SmallControl lane m := by
    intro m hm hc
    rw [hn hc] at hm
    apply hq m
    rw [← ht]
    exact List.mem_append_right _ (List.mem_of_mem_head? hm)
  refine ⟨_, hr.step (.peek host lane next hsmall), by rw [Host.peek, hl]; rfl, ?_, by rw [Host.peek, hl]⟩
  simp only [Host.peek, hl, Host.noteTaken, SessionView.peeked]
  by_cases hc : lane = .control
  · subst hc
    have hhead := hn rfl
    subst hhead
    cases hrest : (s.link.peek Host.single .control s.control.head?).2.2 with
    | none => cases hcs : s.control <;> simpa [hcs] using ht
    | some m => simpa using ht
  · simpa [hc, Ne.symm hc] using ht

lemma peek (h : Serves incoming queued s.link s.control) (hn : s.Supplies lane next) :
    Serves incoming queued (s.peeked lane next).link (s.peeked lane next).control := by
  obtain ⟨host, hr, hl, ht, -⟩ := h.exists_peeked hn
  exact ⟨h.1, host, hr, hl, ht⟩

lemma commit (h : Serves incoming queued s.link s.control) (hn : s.Supplies lane next) {p : Packet}
    (hp : (s.link.peek Host.single lane next).1 = some p) (now : TimePoint) :
    Serves incoming queued (s.committed lane next now).link (s.committed lane next now).control := by
  obtain ⟨host, hr, hl, ht, ho⟩ := h.exists_peeked hn
  rw [hp] at ho
  refine ⟨h.1, _, hr.step (.commit host lane now ho), ?_, ht⟩
  rw [Host.commit, hl]
  rfl

lemma ne_control_of_unheard (h : Serves incoming queued l control) (hi : ∀ p, ¬incoming p) :
    ∀ m ∈ l.mDelivered, m.lane ≠ .control := by
  obtain ⟨-, host, hr, rfl, -⟩ := h
  intro m hm hc
  have hd := (Host.deaf_of_unheard hi hr).delivered m (List.mem_append_right _ hm)
  rw [hc] at hd
  cases hd

end Serves

end NetLink.NetworkEngine
