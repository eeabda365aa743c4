import NetLink.Channel.ReliableLink.Frame

/-! When building an Ack takes up a message that was refused. -/

namespace NetLink.Channel.ReliableLink

def retries (l : ReliableLink) (lane : Lane) : Bool :=
  l.mAckDue lane && (l.mStreams lane).any fun s =>
    s.budgetPaused && !(l.mBudget.any fun b => !b.fits s.refusedLength) && s.reorder.contains s.nextExpected

structure Idles (l l' : ReliableLink) : Prop where
  failed : l'.mFailed = l.mFailed
  delivered : l'.mDelivered = l.mDelivered
  budget : l'.mBudget = l.mBudget
  retries : ∀ lane, l'.retries lane = true → l.retries lane = true

variable {l l' l'' : ReliableLink} {lane : Lane} {s : Stream}

namespace Idles

lemma refl : Idles l l := ⟨rfl, rfl, rfl, fun _ h => h⟩

lemma trans (h : Idles l l') (h' : Idles l' l'') : Idles l l'' where
  failed := h'.failed.trans h.failed
  delivered := h'.delivered.trans h.delivered
  budget := h'.budget.trans h.budget
  retries lane hr := h.retries lane (h'.retries lane hr)

lemma idle (h : Idles l l') (hr : l.retries lane = false) : l'.retries lane = false :=
  Bool.eq_false_iff.mpr fun hn => Bool.false_ne_true (hr.symm.trans (h.retries lane hn))

end Idles

lemma drainReorderBuffer_of_none (h : (l.streamFor lane).reorder.find (l.streamFor lane).nextExpected = none) :
    l.drainReorderBuffer lane = l := by
  rw [drainReorderBuffer]
  cases (l.streamFor lane).reorder.entries.length with
  | zero => rfl
  | succ n => simp only [drainLoop, h]

lemma idles_retryRefused (hs : (l.mStreams lane).isSome = true) (hd : l.mAckDue lane = true)
    (hr : l.retries lane = false) : Idles l (l.retryRefused lane) := by
  obtain ⟨s, hs⟩ := Option.isSome_iff_exists.mp hs
  have hstream : l.streamFor lane = s := streamFor_of_some l lane s hs
  rw [retryRefused, hstream]
  split
  · exact .refl
  next hp =>
  have hnone : s.reorder.find s.nextExpected = none := by
    simp only [Bool.or_eq_true, not_or, Bool.not_eq_true, Bool.not_eq_false'] at hp
    simpa [retries, hd, hs, hp.1, hp.2, SequenceBuffer.contains] using hr
  have hdrained : (l.setStream lane { s with budgetPaused := false }).drainReorderBuffer lane =
      l.setStream lane { s with budgetPaused := false } := by
    apply drainReorderBuffer_of_none
    rw [streamFor_setStream_self]
    exact hnone
  rw [hdrained]
  refine ⟨rfl, rfl, rfl, fun other ho => ?_⟩
  by_cases hl : other = lane
  · subst hl
    simp [retries, dueAck, setStream] at ho
  · simpa [retries, dueAck, setStream, hl] using ho

lemma idles_fillAck (hr : l.retries lane = false) : Idles l (l.fillAck lane) := by
  rw [fillAck]
  split
  · next hd =>
    rw [makeAck]
    dsimp only
    split
    · next hs =>
      have hidles := idles_retryRefused hs hd hr
      exact ⟨hidles.failed, hidles.delivered, hidles.budget, hidles.retries⟩
    · exact ⟨rfl, rfl, rfl, fun _ h => h⟩
  · exact .refl

lemma idles_fillPing : Idles l (l.fillPing lane) := by
  rw [fillPing]
  split
  · exact ⟨rfl, rfl, rfl, fun _ h => h⟩
  · exact .refl

lemma idles_fillAcks (hr : ∀ lane ∈ StreamLanes, l.retries lane = false) : Idles l l.fillAcks := by
  rw [fillAcks]
  generalize StreamLanes = lanes at hr
  induction lanes generalizing l with
  | nil => exact .refl
  | cons lane lanes ih =>
    have hfirst : Idles l ((l.fillAck lane).fillPing lane) :=
      (idles_fillAck (hr lane List.mem_cons_self)).trans idles_fillPing
    exact hfirst.trans (ih fun other ho => hfirst.idle (hr other (List.mem_cons_of_mem lane ho)))

lemma idles_peekAck (hr : ∀ lane ∈ StreamLanes, l.retries lane = false) : Idles l l.peekAck.2 := by
  have hfill := idles_fillAcks hr
  rw [peekAck]
  split
  · exact .refl
  dsimp only
  split
  · refine ⟨hfill.failed, hfill.delivered, hfill.budget, fun lane hn => ?_⟩
    simp [retries] at hn
  · exact .refl

end NetLink.Channel.ReliableLink
