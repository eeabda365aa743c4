import NetLink.Channel.ReliableLink.Offers
import NetLink.Channel.ReliableLink.RecvInvariant

/-! What holds of every link, whatever its peer sends: its windows and slots, and the place where every
unacknowledged packet is waiting. -/

namespace NetLink.Channel

open SequenceBuffer

section Moves

variable {window : ℕ} {sent : List SentRecord} {lane : Lane} {s t : Stream}

lemma SendInv.congr (h : SendInv window sent lane s) (h₁ : t.inFlight = s.inFlight) (h₂ : t.lost = s.lost)
    (h₃ : t.nextSendSeq = s.nextSendSeq) (h₄ : t.sendBase = s.sendBase) (h₅ : t.onTheWire = s.onTheWire) :
    SendInv window sent lane t := by
  constructor <;> simp only [h₁, h₂, h₃, h₄, h₅]
  exacts [h.wf, h.cap, h.replaced, h.base_pos, h.base_le, h.le_window, h.key, h.lost_once, h.lost_lt,
    h.live, h.wire]

lemma RecvInv.congr (h : RecvInv window s) (h₁ : t.reorder = s.reorder) (h₂ : t.nextExpected = s.nextExpected) :
    RecvInv window t := by
  constructor <;> simp only [h₁, h₂]
  exacts [h.wf, h.cap, h.replaced, h.pos, h.key]

lemma SendInv.recvMove {p : PacketHeader → List UInt8 → Prop} {ms : List AssembledMessage}
    (h : SendInv window sent lane s) (hm : RecvMove p s ms t) : SendInv window sent lane t := by
  cases hm <;> exact h.congr rfl rfl rfl rfl rfl

lemma SendInv.advance {base : ℕ} (h : SendInv window sent lane s) (hlo : s.sendBase ≤ base)
    (hhi : base ≤ max s.sendBase s.nextSendSeq)
    (hn : ∀ seq, s.sendBase ≤ seq → seq < base → ¬s.inFlight.contains seq) :
    SendInv window sent lane { s with sendBase := base } := by
  have hle := h.base_le
  have hw := h.le_window
  refine ⟨h.wf, h.cap, h.replaced, h.base_pos.trans hlo, by simp only; omega, by
    simp only; omega, fun seq hc => ?_,
    h.lost_once, h.lost_lt, h.live, h.wire⟩
  have hk := h.key seq hc
  refine ⟨?_, hk.2⟩
  by_contra hlt
  exact hn seq hk.1 (not_le.mp hlt) hc

end Moves

structure SentInv (sent : List SentRecord) (transmissions : ℕ) : Prop where
  sorted : sent.Pairwise fun a b => a.transmission < b.transmission
  bound : ∀ r ∈ sent, r.transmission ≤ transmissions
  lane : ∀ r ∈ sent, r.lane ≠ .media

namespace SentInv

variable {sent : List SentRecord} {n : ℕ}

lemma nil : SentInv [] n := ⟨.nil, by simp, by simp⟩

lemma append {lane : Lane} (h : SentInv sent n) (seq : ℕ) (hl : lane ≠ .media) :
    SentInv (sent ++ [⟨n + 1, seq, lane⟩]) (n + 1) := by
  constructor
  · rw [List.pairwise_append]
    refine ⟨h.sorted, List.pairwise_singleton _ _, fun a ha b hb => ?_⟩
    rw [List.mem_singleton] at hb
    subst hb
    exact Nat.lt_succ_of_le (h.bound a ha)
  · intro r hr
    rw [List.mem_append, List.mem_singleton] at hr
    rcases hr with hr | rfl
    · exact (h.bound r hr).trans (Nat.le_succ _)
    · exact le_rfl
  · intro r hr
    rw [List.mem_append, List.mem_singleton] at hr
    rcases hr with hr | rfl
    · exact h.lane r hr
    · exact hl

lemma tail {record : SentRecord} (h : SentInv (record :: sent) n) : SentInv sent n :=
  ⟨h.sorted.of_cons, fun r hr => h.bound r (List.mem_cons_of_mem _ hr),
    fun r hr => h.lane r (List.mem_cons_of_mem _ hr)⟩

end SentInv

structure ViewInv (v : LinkView) : Prop where
  send : ∀ lane, SendInv (windowOf lane) v.sent lane (v.streams lane)
  recv : ∀ lane, RecvInv (windowOf lane) (v.streams lane)
  order : SentInv v.sent v.transmissions

lemma windowOf_eq_pow (lane : Lane) : ∃ k, windowOf lane = 2 ^ k := by
  cases lane
  · exact ⟨5, by decide⟩
  all_goals exact ⟨8, by decide⟩

namespace ViewInv

variable {f : Feed} {v w : LinkView}

lemma of_fresh (hs : ∀ lane, v.streams lane = .new (windowOf lane)) (hn : v.sent = []) : ViewInv v where
  send lane := by
    obtain ⟨k, hk⟩ := windowOf_eq_pow lane
    rw [hs, hk]
    exact .new k _ _
  recv lane := by
    obtain ⟨k, hk⟩ := windowOf_eq_pow lane
    rw [hs, hk]
    exact .new k
  order := hn ▸ .nil

lemma update {lane : Lane} {s : Stream} {sent : List SentRecord} {n : ℕ} (h : ViewInv v)
    (hs : SendInv (windowOf lane) sent lane s) (hr : RecvInv (windowOf lane) s) (ho : SentInv sent n)
    (hm : ∀ r ∈ v.sent, r.lane ≠ lane → r ∈ sent) :
    ViewInv { v.set lane s with sent := sent, transmissions := n } where
  send := (Function.forall_update_iff v.streams fun other s => SendInv (windowOf other) sent other s).mpr
    ⟨hs, fun other hne => (h.send other).mono fun _ _ _ _ hmem => hm _ hmem hne⟩
  recv := (Function.forall_update_iff v.streams fun other s => RecvInv (windowOf other) s).mpr
    ⟨hr, fun other _ => h.recv other⟩
  order := ho

lemma set {lane : Lane} {s : Stream} (h : ViewInv v) (hs : SendInv (windowOf lane) v.sent lane s)
    (hr : RecvInv (windowOf lane) s) : ViewInv (v.set lane s) :=
  h.update hs hr h.order fun _ hm _ => hm

lemma move (h : ViewInv v) (hm : LinkMove f v w) : ViewInv w := by
  cases hm with
  | take lane m hl hs hc =>
    have hv := h.set (s := (v.streams lane).took m) ((h.send lane).congr rfl rfl rfl rfl rfl)
      ((h.recv lane).congr rfl rfl)
    exact ⟨hv.send, hv.recv, hv.order⟩
  | takeMedia | queue | unqueue => exact ⟨h.send, h.recv, h.order⟩
  | deliverMedia m hm => exact ⟨h.send, h.recv, h.order⟩
  | recv lane ms t hk hl hm =>
    have hv := h.set ((h.send lane).recvMove hm) ((h.recv lane).move hm)
    exact ⟨hv.send, hv.recv, hv.order⟩
  | tune lane paused serial time interval =>
    exact h.set ((h.send lane).congr rfl rfl rfl rfl rfl) ((h.recv lane).congr rfl rfl)
  | scrub lane => exact h.set (h.send lane).nextLost ((h.recv lane).congr rfl rfl)
  | retransmit lane seq rest e now hm hl hf he =>
    exact h.update ((h.send lane).retransmit hl hf he) ((h.recv lane).congr rfl rfl) (h.order.append seq hm)
      fun _ hm _ => List.mem_append_left _ hm
  | transmit lane c now hm hc hroom =>
    exact h.update ((h.send lane).transmit hroom) ((h.recv lane).congr rfl rfl) (h.order.append _ hm)
      fun _ hm _ => List.mem_append_left _ hm
  | release lane seq e hk ha hf => exact h.set ((h.send lane).release hf) ((h.recv lane).congr rfl rfl)
  | advance lane base hk hlo hhi hn =>
    exact h.set ((h.send lane).advance hlo hhi hn) ((h.recv lane).congr rfl rfl)
  | giveUp record rest e hk hs hf he ht =>
    have hr := h.recv record.lane
    have hi := h.send record.lane
    have ho := h.order
    obtain ⟨n, seq, lane⟩ := record
    simp only at hf he ht hr hi
    subst ht
    rw [hs] at hi ho
    refine h.update (hi.markLost hf he) (hr.congr rfl rfl) ho.tail fun r hm hne => ?_
    rw [hs, List.mem_cons] at hm
    exact hm.resolve_left fun hc => hne (by rw [hc])
  | drop record rest hk hs hd =>
    have ho := h.order
    rw [hs] at ho
    refine ⟨fun lane => (h.send lane).mono fun seq e hf he hm => ?_, h.recv, ho.tail⟩
    rw [hs, List.mem_cons] at hm
    refine hm.resolve_left ?_
    rintro rfl
    exact hd e hf he rfl
  | fault hf => exact ⟨h.send, h.recv, h.order⟩

lemma run (h : ViewInv v) (hr : LinkRun f v w) : ViewInv w := hr.invariant (fun _ _ h hm => h.move hm) h

end ViewInv

end NetLink.Channel
