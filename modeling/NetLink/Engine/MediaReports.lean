import NetLink.Channel.LinkPair.Delivery
import NetLink.Channel.ReliableLink.Reports
import NetLink.Engine.Step

/-! The Media datagrams a remote link says it has received: what its Acks report, and what becomes of it. -/

namespace NetLink.NetworkEngine

open Channel (Host Packet AckBody OutboundMessage TimePoint ReliableLink isLaterSerial)

structure MediaWatch where
  own : Host
  remote : Host
  seen : List AckBody := []
  peer : Peer

namespace MediaWatch

def told (w : MediaWatch) : ℕ := w.own.link.mStats.mediaReceivedByPeer

/-- The remote hears anything; the own link hears of the remote only. `fair` is asked of what it hears. -/
inductive Step (fair : MediaWatch → Packet → Prop) (w : MediaWatch) : MediaWatch → Prop
  | remote (b : Host) (hs : Host.Step (fun _ _ =>
    True) (fun _ => True) w.remote b) : Step fair w { w with remote := b }
  | own (a : Host) (hs : Host.Step (fun _ _ => True) (fun _ => False) w.own a) : Step fair w { w with own := a }
  | received (packet : Packet) (now : TimePoint) (hp : packet ∈ w.remote.wire) (hf : fair w packet) :
      Step fair w { w with
        own := w.own.onPacket packet now
        seen := w.seen ++ (w.own.link.processed packet).toList }
  | reported : Step fair w { w with peer := { w.peer with link := w.own.link }.noteMedia }

def system (fair : MediaWatch → Packet → Prop) : Lib.System MediaWatch where
  init w := w.own.Initial ∧ w.remote.Initial ∧ w.seen = [] ∧ w.peer.mediaReceivedAtReport = 0
  step := Step fair

/-- An Ack that is the newest of its lane is not older than what was processed on the others, or it reports no
less. -/
def InOrder (w : MediaWatch) (packet : Packet) : Prop :=
  ∀ ack ∈ w.own.link.processed packet, w.own.link.isNewest packet.header.flags.lane ack = true →
    ∀ x ∈ w.seen, x.serial ≤ ack.serial ∨ x.mediaReceived ≤ ack.mediaReceived

instance (w : MediaWatch) (packet : Packet) : Decidable (w.InOrder packet) :=
  inferInstanceAs (Decidable (∀ ack ∈ w.own.link.processed packet, _ → ∀ x ∈ w.seen, _))

def Small (w : MediaWatch) : Prop :=
  w.remote.link.mStats.acksSent < 2 ^ 31 ∧ w.remote.link.mStats.mediaReceived < 2 ^ 32

lemma isLaterSerial_iff {a b : ℕ} (ha : a < 2 ^ 31) (hb : b < 2 ^ 31) : isLaterSerial a b = true ↔ b < a := by
  simp only [isLaterSerial, Bool.and_eq_true, decide_eq_true_eq]
  omega

structure Inv (w : MediaWatch) : Prop where
  sound : w.remote.Sound
  reporting : w.remote.Reporting
  known : ∀ x ∈ w.seen, x ∈ w.remote.wire.filterMap Packet.ack
  latest : ∀ lane n, (w.own.link.streamFor lane).ackSerial = some n → ∃ x ∈ w.seen, x.serial = n
  best : w.Small → w.seen = [] ∧ w.told = 0 ∨
    ∃ x ∈ w.seen, (∀ y ∈ w.seen, y.serial ≤ x.serial) ∧ w.told = x.mediaReceived
  report : w.Small → w.peer.mediaReceivedAtReport ≤ w.told

variable {w w' : MediaWatch} {fair : MediaWatch → Packet → Prop} {packet : Packet} {ack : AckBody}

lemma mem_made {x : AckBody} (hx : x ∈ w.remote.wire.filterMap Packet.ack) : x ∈ w.remote.made := by
  rw [Host.made, List.filterMap_append]
  exact List.mem_append_left _ hx

lemma Inv.mono (h : w.Inv) (hs : w.Small) {x y : AckBody} (hx : x ∈ w.remote.wire.filterMap Packet.ack)
    (hy : y ∈ w.remote.wire.filterMap Packet.ack) (hxy : x.serial ≤ y.serial) :
      x.mediaReceived ≤ y.mediaReceived := by
  have hsorted := h.reporting.sorted (hs.1.trans (by decide)) hs.2
  obtain ⟨i, hi, rfl⟩ := List.mem_iff_getElem.mp (mem_made hx)
  obtain ⟨j, hj, rfl⟩ := List.mem_iff_getElem.mp (mem_made hy)
  rcases lt_trichotomy i j with hij | rfl | hji
  · exact (List.pairwise_iff_getElem.mp hsorted i j hi hj hij).2
  · exact le_rfl
  · exact absurd (List.pairwise_iff_getElem.mp hsorted j i hj hi hji).1 (not_lt.mpr hxy)

lemma Inv.serial_lt (h : w.Inv) (hs : w.Small) {x : AckBody} (hx : x ∈ w.remote.wire.filterMap Packet.ack) :
    x.serial < 2 ^ 31 :=
  ((h.reporting.past (hs.1.trans (by decide)) hs.2 x (mem_made hx)).1).trans_lt hs.1

lemma inv_of_init (h : (system fair).init w) : w.Inv := by
  obtain ⟨own, remote, seen, peer⟩ := w
  obtain ⟨⟨timings, id, budget, rfl⟩, hremote, rfl, hreport⟩ := h
  refine ⟨Host.sound_of_initial hremote, ?_, by simp, fun lane n hn => ?_, fun _ => .inl ⟨rfl, rfl⟩, fun _ => ?_⟩
  · obtain ⟨timings', id', budget', rfl⟩ := hremote
    exact ⟨fun _ => rfl, fun _ _ => rfl, by simp [Host.made, ReliableLink.new], by
      simp [Host.made, ReliableLink.new]⟩
  · simp [ReliableLink.new, ReliableLink.streamFor, Channel.Stream.new] at hn
  · exact (Nat.le_of_eq hreport).trans (Nat.zero_le _)

lemma small_of_remote {b : Host} (hs : Host.Step (fun _ _ => True) (fun _ => True) w.remote b)
    (h : Small { w with remote := b }) : w.Small :=
  ⟨(Host.counts_of_step hs).1.trans_lt h.1, (Host.counts_of_step hs).2.trans_lt h.2⟩

lemma Inv.remote (h : w.Inv) {b : Host} (hs : Host.Step (fun _ _ => True) (fun _ => True) w.remote b) :
    Inv { w with remote := b } := by
  refine ⟨h.sound.step hs, h.reporting.step h.sound.offers hs, fun x hx => ?_, h.latest, fun hsmall => ?_,
    fun hsmall => ?_⟩
  · obtain ⟨q, hq, hack⟩ := List.mem_filterMap.mp (h.known x hx)
    exact List.mem_filterMap.mpr ⟨q, Host.wire_subset_of_step hs hq, hack⟩
  · exact h.best (small_of_remote hs hsmall)
  · exact h.report (small_of_remote hs hsmall)

lemma Inv.own (h : w.Inv) {a : Host} (hs : Host.Step (fun _ _ => True) (fun _ => False) w.own a) :
    Inv { w with own := a } := by
  have hq : w.own.link.reports.Quiet a.link.reports :=
    (Host.quiet_of_step hs).resolve_right fun ⟨_, _, hp, _⟩ => hp
  have htold : told { w with own := a } = w.told := hq.told
  refine ⟨h.sound, h.reporting, h.known, fun lane n hn => h.latest lane n (hq.latest lane n hn), ?_, ?_⟩
  · rw [htold]
    exact h.best
  · rw [htold]
    exact h.report

lemma Inv.reported (h : w.Inv) : Inv { w with peer := { w.peer with link := w.own.link }.noteMedia } := by
  refine ⟨h.sound, h.reporting, h.known, h.latest, h.best, fun hsmall => ?_⟩
  have hr := h.report hsmall
  rw [Peer.noteMedia]
  dsimp only
  split
  · exact hr
  · exact le_rfl

lemma processed_mem (hp : packet ∈ w.remote.wire)
    (ha : w.own.link.processed packet = some ack) : ack ∈ w.remote.wire.filterMap Packet.ack := by
  rw [ReliableLink.processed] at ha
  split at ha
  · exact List.mem_filterMap.mpr ⟨packet, hp, ha⟩
  · cases ha

lemma Inv.exists_later (h : w.Inv) (hs : w.Small) {lane : Channel.Lane}
    (ha : ack ∈ w.remote.wire.filterMap Packet.ack) (hn : ¬w.own.link.isNewest lane ack = true) :
    ∃ x ∈ w.seen, ack.serial ≤ x.serial := by
  rw [ReliableLink.isNewest, Option.all_eq_true] at hn
  push Not at hn
  obtain ⟨n, hn, hlater⟩ := hn
  obtain ⟨x, hx, rfl⟩ := h.latest lane n hn
  refine ⟨x, hx, ?_⟩
  rw [Ne, isLaterSerial_iff (h.serial_lt hs ha) (h.serial_lt hs (h.known x hx))] at hlater
  exact not_lt.mp hlater

lemma received_cases (w : MediaWatch) (packet : Packet) (now : TimePoint) :
    (w.own.onPacket packet now).link.reports.told = w.told ∧
        (w.own.onPacket packet now).link.reports.latest = w.own.link.reports.latest ∧
        (∀ ack ∈ w.own.link.processed packet, ¬w.own.link.isNewest packet.header.flags.lane ack = true) ∨
      ∃ ack, w.own.link.processed packet = some ack ∧ w.own.link.isNewest packet.header.flags.lane ack = true ∧
        (w.own.onPacket packet now).link.reports = w.own.link.reports.noted packet.header.flags.lane ack := by
  rcases ReliableLink.reports_onPacket (l := w.own.link) packet now with ⟨hnone, he | he⟩ | ⟨ack, hsome, he⟩
  · exact .inl ⟨congrArg (·.told) he, congrArg (·.latest) he, by simp [hnone]⟩
  · exact .inl ⟨congrArg (·.told) he, congrArg (·.latest) he, by simp [hnone]⟩
  · split at he
    · next hn => exact .inr ⟨ack, hsome, hn, he⟩
    · next hn =>
      refine .inl ⟨congrArg (·.told) he, congrArg (·.latest) he, fun a ha => ?_⟩
      rw [hsome, Option.mem_some_iff] at ha
      exact ha ▸ hn

lemma Inv.told_le (h : w.Inv) (hs : w.Small) (hp : packet ∈ w.remote.wire)
    (hf : w.InOrder packet) (ha : w.own.link.processed packet = some ack)
    (hn : w.own.link.isNewest packet.header.flags.lane ack = true) : w.told ≤ ack.mediaReceived := by
  rcases h.best hs with ⟨-, htold⟩ | ⟨x, hx, -, htold⟩
  · rw [htold]
    exact Nat.zero_le _
  · rw [htold]
    rcases hf ack ha hn x hx with hserial | hmedia
    · exact h.mono hs (h.known x hx) (processed_mem hp ha) hserial
    · exact hmedia

lemma Inv.received (h : w.Inv) (now : TimePoint) (hp : packet ∈ w.remote.wire)
    (hf : w.InOrder packet) : Inv { w with
      own := w.own.onPacket packet now
      seen := w.seen ++ (w.own.link.processed packet).toList } := by
  have hknown : ∀ x ∈ w.seen ++ (w.own.link.processed packet).toList, x ∈ w.remote.wire.filterMap Packet.ack := by
    intro x hx
    rcases List.mem_append.mp hx with hx | hx
    · exact h.known x hx
    · exact processed_mem hp (Option.mem_toList.mp hx)
  rcases received_cases w packet now with ⟨htold, hlatest, hold⟩ | ⟨ack, ha, hn, hnoted⟩
  · refine ⟨h.sound, h.reporting, hknown, fun lane n hn => ?_, fun hs => ?_, fun hs =>
      (h.report hs).trans htold.ge⟩
    · have hn : w.own.link.reports.latest lane = some n := hlatest ▸ hn
      obtain ⟨x, hx, hserial⟩ := h.latest lane n hn
      exact ⟨x, List.mem_append_left _ hx, hserial⟩
    · -- an Ack that is not the newest one has no higher serial than the best one
      have hlater : ∀ y ∈ (w.own.link.processed packet).toList, ∃ z ∈ w.seen, y.serial ≤ z.serial := fun y hy =>
        h.exists_later hs (processed_mem hp (Option.mem_toList.mp hy)) (hold y (Option.mem_toList.mp hy))
      rcases h.best hs with ⟨hnil, hzero⟩ | ⟨x, hx, hbest, hx'⟩
      · refine .inl ⟨List.append_eq_nil_iff.mpr ⟨hnil, List.eq_nil_iff_forall_not_mem.mpr fun y hy => ?_⟩,
          htold.trans hzero⟩
        obtain ⟨z, hz, -⟩ := hlater y hy
        rw [hnil] at hz
        cases hz
      · refine .inr ⟨x, List.mem_append_left _ hx, fun y hy => ?_, htold.trans hx'⟩
        rcases List.mem_append.mp hy with hy | hy
        · exact hbest y hy
        · obtain ⟨z, hz, hyz⟩ := hlater y hy
          exact hyz.trans (hbest z hz)
  · have htold : (w.own.onPacket packet now).link.mStats.mediaReceivedByPeer = ack.mediaReceived :=
      congrArg (·.told) hnoted
    refine ⟨h.sound, h.reporting, hknown, fun lane n hlane => ?_, fun hs => ?_, fun hs => ?_⟩
    · have hlatest : (w.own.link.reports.noted packet.header.flags.lane ack).latest lane = some n := hnoted ▸ hlane
      simp only [ReliableLink.Reports.noted] at hlatest
      by_cases hl : lane = packet.header.flags.lane
      · subst hl
        rw [Function.update_self, Option.some.injEq] at hlatest
        exact ⟨ack, by simp [ha], hlatest⟩
      · rw [Function.update_of_ne hl] at hlatest
        obtain ⟨x, hx, hserial⟩ := h.latest lane n hlatest
        exact ⟨x, List.mem_append_left _ hx, hserial⟩
    · -- the best one stays the best, unless the new one is later
      have hle := h.told_le hs hp hf ha hn
      rw [ha, Option.toList_some]
      simp only [List.mem_append, List.mem_singleton]
      rcases h.best hs with ⟨hnil, -⟩ | ⟨x, hx, hbest, hx'⟩
      · refine .inr ⟨ack, .inr rfl, fun y hy => ?_, htold⟩
        simp only [hnil, List.not_mem_nil, false_or] at hy
        rw [hy]
      rcases le_total x.serial ack.serial with hlater | hearlier
      · refine .inr ⟨ack, .inr rfl, ?_, htold⟩
        rintro y (hy | rfl)
        · exact (hbest y hy).trans hlater
        · exact le_rfl
      · have hmono := h.mono hs (processed_mem hp ha) (h.known x hx) hearlier
        refine .inr ⟨x, .inl hx, ?_, htold.trans (le_antisymm hmono (hx'.ge.trans hle))⟩
        rintro y (hy | rfl)
        · exact hbest y hy
        · exact hearlier
    · exact ((h.report hs).trans (h.told_le hs hp hf ha hn)).trans htold.ge

lemma inv (h : (system InOrder).Reachable w) : w.Inv := by
  refine h.invariant (fun _ => inv_of_init) fun w w' _ hw hs => ?_
  cases hs with
  | remote b hs => exact hw.remote hs
  | own a hs => exact hw.own hs
  | received packet now hp hf => exact hw.received now hp hf
  | reported => exact hw.reported

lemma Inv.told_step (h : w.Inv) (hs : Step InOrder w w') (hsmall : w'.Small) : w.Small ∧ w.told ≤ w'.told := by
  cases hs with
  | remote b hs => exact ⟨small_of_remote hs hsmall, le_rfl⟩
  | own a hs =>
    have hq : w.own.link.reports.Quiet a.link.reports :=
      (Host.quiet_of_step hs).resolve_right fun ⟨_, _, hp, _⟩ => hp
    exact ⟨hsmall, hq.told.ge⟩
  | received packet now hp hf =>
    refine ⟨hsmall, ?_⟩
    rcases received_cases w packet now with ⟨htold, -⟩ | ⟨ack, ha, hn, hnoted⟩
    · exact htold.ge
    · exact (h.told_le hsmall hp hf ha hn).trans (congrArg (·.told) hnoted).ge
  | reported => exact ⟨hsmall, le_rfl⟩

theorem reports_never_go_back (h : (system InOrder).Reachable w) (hacks : w.remote.link.mStats.acksSent < 2 ^ 31)
    (hmedia : w.remote.link.mStats.mediaReceived < 2 ^ 32) :
    (w.seen = [] ∧ w.told = 0 ∨ ∃ x ∈ w.seen, (∀ y ∈ w.seen, y.serial ≤ x.serial) ∧ w.told = x.mediaReceived) ∧
      w.peer.mediaReceivedAtReport ≤ w.told ∧
      ∀ w₀, (system InOrder).Reachable w₀ → (system InOrder).Steps w₀ w → w₀.told ≤ w.told := by
  refine ⟨(inv h).best ⟨hacks, hmedia⟩, (inv h).report ⟨hacks, hmedia⟩, fun w₀ h₀ hs => ?_⟩
  refine h₀.persists (P := fun w => w.Small → w₀.told ≤ w.told) (fun u v hu htold hstep hsmall => ?_) hs
    (fun _ => le_rfl) ⟨hacks, hmedia⟩
  obtain ⟨hsmall, hle⟩ := (inv hu).told_step hstep hsmall
  exact (htold hsmall).trans hle

def speak (w : MediaWatch) (lane : Channel.Lane) : MediaWatch :=
  { w with own := (w.own.peek lane (some { body := [1] })).commit lane 0 }

def arrive (w : MediaWatch) (i : ℕ) : MediaWatch :=
  { w with remote := w.remote.onPacket (w.own.wire.getD i { header := {} }) 0 }

def answer (w : MediaWatch) : MediaWatch := { w with remote := w.remote.peekAck.commitAck }

lemma reachable_speak (h : (system fair).Reachable w) (lane : Channel.Lane)
    (ho : (w.own.peek lane (some { body := [1] })).offered = some lane) : (system fair).Reachable (w.speak lane) :=
  (h.step (.own _ (.peek _ lane _ fun _ _ => trivial))).step (.own _ (.commit _ lane 0 ho))

lemma reachable_arrive (h : (system fair).Reachable w) (i : ℕ) : (system fair).Reachable (w.arrive i) :=
  h.step (.remote _ (.onPacket _ _ 0 trivial))

lemma reachable_answer (h : (system fair).Reachable w) : (system fair).Reachable w.answer :=
  (h.step (.remote _ (.peekAck _))).step (.remote _ (.commitAck _))

def start : MediaWatch where
  own := { link := .new {} 7 none }
  remote := { link := .new {} 9 none }
  peer := { info := {}, address := {}, link := .new {} 7 none }

def exchanged : MediaWatch :=
  ((((((start.speak .reliable).speak .media).speak .bulk).arrive 0).answer.arrive 1).arrive 2).answer

lemma exchanged_reachable : (system fair).Reachable exchanged := by
  have h₀ : (system fair).Reachable start := .of_init ⟨⟨_, _, _, rfl⟩, ⟨_, _, _, rfl⟩, rfl, rfl⟩
  have h₁ := reachable_speak h₀ .reliable (by decide +kernel)
  have h₂ := reachable_speak h₁ .media (by decide +kernel)
  have h₃ := reachable_speak h₂ .bulk (by decide +kernel)
  exact reachable_answer (reachable_arrive (reachable_arrive (reachable_answer (reachable_arrive h₃ 0)) 1) 2)

def hear (w : MediaWatch) (i : ℕ) : MediaWatch :=
  { w with
    own := w.own.onPacket (w.remote.wire.getD i { header := {} }) 0
    seen := w.seen ++ (w.own.link.processed (w.remote.wire.getD i { header := {} })).toList }

def report (w : MediaWatch) : MediaWatch := { w with peer := { w.peer with link := w.own.link }.noteMedia }

theorem reports_never_go_back_exchanged :
    ((exchanged.hear 0).hear 1).report.told = 1 ∧
      ((exchanged.hear 0).hear 1).report.peer.mediaReceivedAtReport ≤ ((exchanged.hear 0).hear 1).report.told := by
  have h : (system InOrder).Reachable ((exchanged.hear 0).hear 1).report := by
    refine ((exchanged_reachable.step (.received _ 0 ?_ ?_)).step (.received _ 0 ?_ ?_)).step .reported <;>
      decide +kernel
  exact ⟨by decide +kernel, (reports_never_go_back h (by decide +kernel) (by decide +kernel)).2.1⟩

/-- The Ack on Bulk overtakes the one on Reliable, which was made before it. -/
theorem overtaken_ack_undoes_report : ∃ w₀ w, (system fun _ _ => True).Reachable w₀ ∧
    (system fun _ _ => True).Steps w₀ w ∧ w.remote.link.mStats.acksSent < 2 ^ 31 ∧
    w.remote.link.mStats.mediaReceived < 2 ^ 32 ∧ w.told < w₀.told ∧
    (∃ x ∈ w.seen, (∀ y ∈ w.seen, y.serial ≤ x.serial) ∧ w.told ≠ x.mediaReceived) ∧
    counted w.told w.peer.mediaReceivedAtReport = 2 ^ 64 - 1 := by
  refine ⟨(exchanged.hear 1).report, (exchanged.hear 1).report.hear 0, ?_, ?_, ?_, ?_, ?_, ?_, ?_⟩
  · exact (exchanged_reachable.step (.received _ 0 (by decide +kernel) trivial)).step .reported
  · exact .single (.received _ 0 (by decide +kernel) trivial)
  all_goals decide +kernel

end MediaWatch

end NetLink.NetworkEngine
