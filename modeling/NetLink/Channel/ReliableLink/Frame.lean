import NetLink.Channel.ReliableLink.Timers

/-! What the helpers of a link leave alone. -/

namespace NetLink.Channel.ReliableLink

variable (l : ReliableLink) (lane : Lane) (s : Stream)

lemma checkIndex_of_ne_media (h : lane ≠ .media) : l.checkIndex lane = l := by
  cases lane <;> simp_all [checkIndex, Lane.toNat, StreamCount]

lemma streamFor_setStream : (l.setStream lane s).streamFor = Function.update l.streamFor lane s := by
  funext other
  by_cases h : other = lane
  · subst h
    simp [streamFor, setStream]
  · simp [streamFor, setStream, h]

@[simp] lemma streamFor_setStream_self : (l.setStream lane s).streamFor lane = s := by
  simp [streamFor_setStream]

lemma streamFor_of_some (h : l.mStreams lane = some s) : l.streamFor lane = s := by
  simp [streamFor, h]

variable {l lane s} in
lemma map_streamFor_setStream {β : Type} (f : Stream → β) (h : f s = f (l.streamFor lane)) :
    (fun other => f ((l.setStream lane s).streamFor other)) = fun other => f (l.streamFor other) := by
  funext other
  rw [streamFor_setStream]
  by_cases ho : other = lane
  · rw [ho, Function.update_self, h]
  · rw [Function.update_of_ne ho]

lemma updateProgressClock_eq (now : TimePoint) (progress : Bool) :
    ∃ stalled, l.updateProgressClock now progress = { l with mStalledSince := stalled } := by
  unfold updateProgressClock
  dsimp only
  split
  · exact ⟨none, rfl⟩
  · split
    · exact ⟨some now, rfl⟩
    · exact ⟨l.mStalledSince, rfl⟩

end NetLink.Channel.ReliableLink
