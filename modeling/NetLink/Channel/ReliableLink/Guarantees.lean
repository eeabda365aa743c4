import Mathlib.Logic.Basic
import NetLink.Channel.ReliableLink.Settled

/-! What a link guarantees about its own bookkeeping, under any calls and any packets. -/

namespace NetLink.Channel.Host

open Lib

variable {source : Lane → OutboundMessage → Prop} {incoming : Packet → Prop} {h h' : Host}

structure Sound (h : Host) : Prop where
  view : ViewInv h.view
  settled : Settled h.view
  offers : ∀ lane, h.offered = some lane → h.link.Offers lane

lemma sound_of_initial (hi : Initial h) : Sound h := by
  obtain ⟨timings, id, budget, rfl⟩ := hi
  refine ⟨.of_fresh (fun _ => rfl) rfl, ⟨fun r hr => ?_, fun _ => .inl rfl, fun lane b hb => ?_⟩,
    fun lane ho => ?_⟩
  · simp [Host.view, ReliableLink.view, ReliableLink.new] at hr
  · simp [Host.view, ReliableLink.view, ReliableLink.new, ReliableLink.streamFor, Stream.new] at hb
  · simp at ho

lemma viewInv_of_fails (hf : Fails h h') : ViewInv h'.view := by
  rw [hf]
  exact .of_fresh (fun _ => rfl) rfl

lemma Sound.step (hs : Sound h) (ht : Step source incoming h h') : Sound h' where
  view := (run_of_step ht hs.offers).elim viewInv_of_fails hs.view.run
  settled := settled_of_step ht hs.offers hs.view hs.settled
  offers _ := offers_of_step ht

lemma sound (hr : (system source incoming).Reachable h) : Sound h :=
  hr.invariant (fun _ => sound_of_initial) fun _ _ _ hs ht => hs.step ht

lemma indexFault_of_run {f : Feed} {v w : LinkView} (hf : ¬f.stray) (hr : LinkRun f v w) (hv : v.fault = false) :
    w.fault = false := by
  refine hr.invariant (P := fun v => v.fault = false) (fun v w hv hm => ?_) hv
  cases hm with
  | fault h => exact absurd h hf
  | _ => exact hv

lemma indexFault (hi : ∀ p, incoming p → p.Accepted) (hr : (system source incoming).Reachable h) :
    h.link.indexFault = false := by
  refine hr.invariant (P := fun h => h.link.indexFault = false) (fun h hi => ?_) fun h h' hr hv ht => ?_
  · obtain ⟨timings, id, budget, rfl⟩ := hi
    rfl
  · rcases run_of_step ht (sound hr).offers with hf | hrun
    · rw [hf]
      exact hv
    · refine indexFault_of_run ?_ hrun hv
      rintro ⟨p, hp, hk, hl⟩
      exact PacketFlags.lane_ne_media_of_isValid (hi p hp).isValid (.inl hk) hl

theorem unacknowledged_tracked (hr : (system (fun _ _ => True) Packet.Accepted).Reachable h) :
    (∀ lane, lane ≠ .media →
      (∀ seq e, (h.link.streamFor lane).inFlight.find seq = some e →
        Xor (e.lost = true ∧ (h.link.streamFor lane).lost.count seq = 1)
          (e.lost = false ∧ h.link.mSent.count ⟨e.transmission, seq, lane⟩ = 1)) ∧
      (h.link.streamFor lane).onTheWire =
        ((h.link.streamFor lane).inFlight.entries.filter fun p => !p.2.lost).length) ∧
    h.link.mSent.Pairwise (fun a b => a.transmission < b.transmission) ∧
    ∀ r, h.link.mSent.head? = some r → ∃ e, (h.link.streamFor r.lane).inFlight.find r.seq = some e ∧
      e.lost = false ∧ e.transmission = r.transmission := by
  have hs := sound hr
  refine ⟨fun lane _ => ⟨fun seq e hf => ?_, (hs.view.send lane).wire⟩, hs.view.order.sorted, hs.settled.front⟩
  have hi := hs.view.send lane
  have hl := hi.lost_once seq e hf
  cases he : e.lost with
  | true =>
    rw [he, if_pos rfl] at hl
    exact .inl ⟨⟨rfl, hl⟩, by simp⟩
  | false =>
    have hm := hi.live seq e hf he
    have hd : h.link.mSent.Nodup := hs.view.order.sorted.imp fun hlt => by
      rintro rfl
      exact absurd hlt (lt_irrefl _)
    exact .inr ⟨⟨rfl, List.count_eq_one_of_mem hd hm⟩, by simp⟩

def controlSent : Host :=
  (({ link := .new {} 7 none } : Host).peek .control (some { tag := 5, body := [1, 2] })).commit .control 0

lemma controlSent_reachable : (system (fun _ _ => True) Packet.Accepted).Reachable controlSent :=
  ⟨_, ⟨{}, 7, none, rfl⟩,
    (Relation.ReflTransGen.single (.peek _ _ _ fun _ _ => trivial)).tail (.commit _ _ _ (by decide))⟩

theorem unacknowledged_tracked_controlSent :
    ∃ e, (controlSent.link.streamFor .control).inFlight.find 1 = some e ∧ e.lost = false ∧ e.transmission = 1 :=
  (unacknowledged_tracked controlSent_reachable).2.2 ⟨1, 1, .control⟩ (by decide)

theorem windows_kept (hr : (system (fun _ _ => True) Packet.Accepted).Reachable h) :
    (∀ lane, lane ≠ .media → 
      (h.link.streamFor lane).sendBase ≤ (h.link.streamFor lane).nextSendSeq ∧
      (h.link.streamFor lane).nextSendSeq ≤ (h.link.streamFor lane).sendBase + windowOf lane ∧
      (∀ seq, (h.link.streamFor lane).inFlight.contains seq →
        (h.link.streamFor lane).sendBase ≤ seq ∧ seq < (h.link.streamFor lane).nextSendSeq) ∧
      ((h.link.streamFor lane).sendBase = (h.link.streamFor lane).nextSendSeq ∨
        (h.link.streamFor lane).inFlight.contains (h.link.streamFor lane).sendBase) ∧
      (∀ seq, (h.link.streamFor lane).reorder.contains seq →
        (h.link.streamFor lane).nextExpected ≤ seq ∧ seq < (h.link.streamFor lane).nextExpected + windowOf lane ∧
        (seq = (h.link.streamFor lane).nextExpected → (h.link.streamFor lane).budgetPaused = true)) ∧
      (h.link.streamFor lane).inFlight.replaced = 0 ∧ (h.link.streamFor lane).reorder.replaced = 0 ∧
      ∀ header ack, ∀ seq ∈ (h.link.streamFor lane).ackedSeqs header ack,
        (h.link.streamFor lane).sendBase ≤ seq ∧ seq < (h.link.streamFor lane).nextSendSeq) ∧
    h.link.indexFault = false ∧ ∀ r ∈ h.link.mSent, r.lane.toNat < StreamCount := by
  have hs := sound hr
  refine ⟨fun lane _ => ?_, indexFault (fun _ => id) hr, fun r hm => ?_⟩
  · have hi := hs.view.send lane
    have hv := hs.view.recv lane
    refine ⟨hi.base_le, hi.le_window, hi.key, hs.settled.base lane, fun seq hc => ?_, hi.replaced, hv.replaced,
      fun header ack seq hm => ?_⟩
    · refine ⟨(hv.key seq hc).1, (hv.key seq hc).2, ?_⟩
      rintro rfl
      obtain ⟨b, hb⟩ := SequenceBuffer.contains_iff.mp hc
      exact (hs.settled.head lane b hb).1
    · have hb := hi.base_pos
      have hm := Stream.mem_ackedSeqs hm
      change (h.link.streamFor lane).sendBase ≤ seq ∧ _
      have hb' : 1 ≤ (h.link.streamFor lane).sendBase := hb
      omega
  · have hl := hs.view.order.lane r hm
    cases hr : r.lane <;> simp_all [Lane.toNat, StreamCount]

theorem windows_kept_controlSent : (controlSent.link.streamFor .control).inFlight.contains 1 = true ∧
    (controlSent.link.streamFor .control).sendBase ≤ 1 ∧ 1 < (controlSent.link.streamFor .control).nextSendSeq :=
  ⟨by decide, ((windows_kept controlSent_reachable).1 .control (by decide)).2.2.1 1 (by decide)⟩

end NetLink.Channel.Host
