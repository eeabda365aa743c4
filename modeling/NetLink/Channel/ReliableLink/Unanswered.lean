import NetLink.Channel.ReliableLink.Guarantees

/-! A link whose remote has not answered. -/

namespace NetLink.Channel

variable {f : Feed} {v w : LinkView}

structure Deaf (v : LinkView) : Prop where
  delivered : ∀ m ∈ v.delivered, m.lane = .media
  reorder : ∀ lane seq, (v.streams lane).reorder.find seq = none

lemma RecvMove.deaf {p : PacketHeader → List UInt8 → Prop} {s t : Stream} {ms : List AssembledMessage}
    (hp : ∀ header body, ¬p header body) (hs : ∀ seq, s.reorder.find seq = none) (hm : RecvMove p s ms t) :
    ms = [] ∧ t.reorder = s.reorder := by
  cases hm with
  | refuse => exact ⟨rfl, rfl⟩
  | retry => exact ⟨rfl, rfl⟩
  | buffer header body h => exact absurd h (hp header body)
  | accept header body budget h => exact absurd h (hp header body)
  | drain header body budget h => simp [hs] at h

lemma Deaf.set (h : Deaf v) (lane : Lane) (s : Stream) (hs : s.reorder = (v.streams lane).reorder) :
    Deaf (v.set lane s) := by
  refine ⟨h.delivered, fun other seq => ?_⟩
  by_cases ho : other = lane
  · subst ho
    rw [LinkView.streams_set, hs]
    exact h.reorder other seq
  · simp only [LinkView.set, Function.update_of_ne ho]
    exact h.reorder other seq

lemma LinkMove.deaf (hd : ∀ lane header body, ¬f.data lane header body) (h : Deaf v) (hm : LinkMove f v w) :
    Deaf w := by
  cases hm with
  | take lane m => exact ⟨h.delivered, (h.set lane ((v.streams lane).took m) rfl).reorder⟩
  | takeMedia | drop | queue | unqueue | fault => exact ⟨h.delivered, h.reorder⟩
  | deliverMedia m hm =>
    refine ⟨fun d hd => ?_, h.reorder⟩
    rcases List.mem_append.mp hd with hd | hd
    · exact h.delivered d hd
    · rwa [List.mem_singleton.mp hd]
  | recv lane ms t hk hl hm =>
    obtain ⟨rfl, hr⟩ := hm.deaf (hd lane) (h.reorder lane)
    have ht := h.set lane t hr
    refine ⟨fun m hm => h.delivered m ?_, ht.reorder⟩
    simpa [LinkView.receive] using hm
  | tune | scrub | release | advance => exact h.set _ _ rfl
  | retransmit lane seq rest e now =>
    exact ⟨h.delivered, (h.set lane ((v.streams lane).retransmitted seq rest e now _) rfl).reorder⟩
  | transmit lane c now =>
    exact ⟨h.delivered, (h.set lane ((v.streams lane).transmitted c now _) rfl).reorder⟩
  | giveUp record rest e =>
    exact ⟨h.delivered, (h.set record.lane ((v.streams record.lane).givenUp record.seq e) rfl).reorder⟩

namespace Host

variable {source : Lane → OutboundMessage → Prop} {incoming : Packet → Prop} {h : Host}

lemma deaf_of_unheard (hi : ∀ p, ¬incoming p) (hr : (system source incoming).Reachable h) : Deaf h.view := by
  refine hr.invariant (P := fun h => Deaf h.view) (fun h hi => ?_) fun h h' hr hd ht => ?_
  · obtain ⟨timings, id, budget, rfl⟩ := hi
    exact ⟨by simp [view, ReliableLink.view, ReliableLink.new], fun _ _ => SequenceBuffer.find_new _⟩
  · rcases run_of_step ht (sound hr).offers with hf | hrun
    · rw [hf]
      exact ⟨hd.delivered, fun _ _ => SequenceBuffer.find_new _⟩
    · refine hrun.invariant (fun v w hv hm => hm.deaf ?_ hv) hd
      rintro lane header body ⟨p, hp, -⟩
      exact hi p hp

end Host

end NetLink.Channel
