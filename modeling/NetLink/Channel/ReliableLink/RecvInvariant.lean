import NetLink.Channel.ReliableLink.RecvRun

/-! The receive side of a stream: its window, and what may stand at its head. -/

namespace NetLink.Channel

open SequenceBuffer

structure RecvInv (window : ℕ) (s : Stream) : Prop where
  wf : s.reorder.WF
  cap : s.reorder.capacity = window
  replaced : s.reorder.replaced = 0
  pos : 1 ≤ s.nextExpected
  key : ∀ seq, s.reorder.contains seq → s.nextExpected ≤ seq ∧ seq < s.nextExpected + window

namespace RecvInv

variable {window : ℕ} {s t : Stream} {p : PacketHeader → List UInt8 → Prop} {ms : List AssembledMessage}

lemma new (k : ℕ) : RecvInv (2 ^ k) (.new (2 ^ k)) where
  wf := wf_new k
  cap := by simp [Stream.new]
  replaced := rfl
  pos := le_rfl
  key seq h := by simp [Stream.new, contains] at h

lemma slot_free (h : RecvInv window s) {seq : ℕ} (hlo : s.nextExpected ≤ seq)
    (hhi : seq < s.nextExpected + s.reorder.capacity) (hn : s.reorder.find seq = none) :
    s.reorder.slot seq = none := by
  refine slot_eq_none h.wf (fun u hu => ?_) ⟨hlo, hhi⟩ hn
  rw [h.cap]
  exact h.key u hu

lemma move (h : RecvInv window s) (hm : RecvMove p s ms t) : RecvInv window t := by
  cases hm with
  | refuse => exact ⟨h.wf, h.cap, h.replaced, h.pos, h.key⟩
  | retry => exact ⟨h.wf, h.cap, h.replaced, h.pos, h.key⟩
  | buffer header body hp hlo hhi hn =>
    have hfree := h.slot_free hlo.le hhi hn
    refine ⟨wf_insert h.wf, by simpa using h.cap, by simpa [replaced_insert hfree] using h.replaced,
      h.pos, fun seq hs => ?_⟩
    rw [contains_insert h.wf hfree] at hs
    rcases hs with rfl | hs
    · exact ⟨hlo.le, h.cap ▸ hhi⟩
    · exact h.key seq hs
  | accept header body budget hp hs hn hr =>
    refine ⟨h.wf, h.cap, h.replaced, by simp, fun seq hc => ?_⟩
    have hk := h.key seq hc
    have hne : seq ≠ s.nextExpected := by
      rintro rfl
      simp [contains, hn] at hc
    simp only
    omega
  | drain header body budget hf hr =>
    refine ⟨wf_erase h.wf, by simpa using h.cap, by simpa using h.replaced, by simp, fun seq hc => ?_⟩
    obtain ⟨hne, hc⟩ := (contains_erase h.wf).mp hc
    have hk := h.key seq hc
    simp only
    omega

lemma run (h : RecvInv window s) (hr : RecvRun p s ms t) : RecvInv window t :=
  hr.invariant (fun _ _ _ h hm => h.move hm) h

end RecvInv

def HeadRefused (s : Stream) : Prop :=
  ∀ b, s.reorder.find s.nextExpected = some b →
    s.budgetPaused = true ∧ b.header.startsFragmentedMessage = true ∧ s.refusedLength = b.header.totalLength

namespace ReliableLink

variable {lane : Lane} {l : ReliableLink} {header : PacketHeader} {body : List UInt8} {window : ℕ}

lemma drainLoop_headRefused (n : ℕ) (hw : (l.streamFor lane).reorder.WF)
    (hn : (l.streamFor lane).reorder.entries.length ≤ n) : HeadRefused ((drainLoop lane n l).streamFor lane) := by
  induction n generalizing l with
  | zero =>
    intro b hb
    rw [drainLoop, ← mem_entries_iff hw, List.length_eq_zero_iff.mp (Nat.le_zero.mp hn)] at hb
    simp at hb
  | succ n ih =>
    unfold drainLoop
    dsimp only
    split
    · next hf =>
      intro b hb
      simp [hf] at hb
    · next buffered hf =>
      cases hr : MessageAssembler.hasRoomFor l.mBudget buffered.header with
      | false =>
        rw [acceptInOrder_refused hr]
        intro b hb
        simp only [streamFor_setStream_self] at hb ⊢
        rw [hf] at hb
        obtain rfl := Option.some.inj hb
        exact ⟨trivial, startsFragmentedMessage_of_refused hr, rfl⟩
      | true =>
        obtain ⟨stats, he⟩ := acceptInOrder_taken l lane (l.streamFor lane) buffered.body hr
        rw [he]
        simp only [streamFor_received_self, setStream_received]
        have hp := (entries_erase hw hf).length_eq
        simp only [List.length_cons] at hp
        refine ih ?_ ?_
        · rw [streamFor_received_self]
          exact wf_erase hw
        · rw [streamFor_received_self]
          dsimp only
          omega

lemma drainReorderBuffer_headRefused (hw : (l.streamFor lane).reorder.WF) :
    HeadRefused ((l.drainReorderBuffer lane).streamFor lane) :=
  drainLoop_headRefused _ hw le_rfl

lemma retryRefused_headRefused (hw : (l.streamFor lane).reorder.WF) (hh : HeadRefused (l.streamFor lane)) :
    HeadRefused ((l.retryRefused lane).streamFor lane) := by
  unfold retryRefused
  dsimp only
  split
  · exact hh
  · refine drainReorderBuffer_headRefused ?_
    simpa using hw

lemma handleData_headRefused (hl : lane ≠ .media) (hi : RecvInv window (l.streamFor lane))
    (hh : HeadRefused (l.streamFor lane)) : HeadRefused ((l.handleData lane header body).streamFor lane) := by
  unfold handleData
  dsimp only
  rw [checkIndex_of_ne_media l lane hl]
  have hs : ReceivedVia (fun _ _ => False) lane l (l.setStream lane (l.streamFor lane)) := .start l
  have h₀ := hs.trans (retryRefused_received hs.isSome)
  have hh₀ : HeadRefused (((l.setStream lane (l.streamFor lane)).retryRefused lane).streamFor lane) :=
    retryRefused_headRefused (by simpa using hi.wf) (by simpa using hh)
  generalize (l.setStream lane (l.streamFor lane)).retryRefused lane = l₀ at h₀ hh₀ ⊢
  have hi₀ : RecvInv window (l₀.streamFor lane) := by
    obtain ⟨s, ms, budget, stats, due, hr, rfl⟩ := h₀
    rw [streamFor_received_self]
    exact hi.run hr
  split
  · exact hh₀
  next hw =>
  split
  · exact hh₀
  next hc =>
  obtain ⟨hlo, hn⟩ := not_or.mp hc
  have hn : (l₀.streamFor lane).reorder.find header.seq = none := by
    simpa [SequenceBuffer.contains] using hn
  split
  · next hne =>
    have hfree := hi₀.slot_free (by omega) (by omega) hn
    intro b hb
    rw [streamFor_setStream_self] at hb ⊢
    rw [find_insert hi₀.wf hfree, if_neg (Ne.symm hne)] at hb
    exact hh₀ b hb
  · next hseq =>
    rw [not_not] at hseq
    cases hr : MessageAssembler.hasRoomFor l₀.mBudget header with
    | false =>
      rw [acceptInOrder_refused (l := l₀.dueAck lane) hr]
      intro b hb
      rw [streamFor_setStream_self] at hb
      simp [← hseq, hn] at hb
    | true =>
      obtain ⟨stats, he⟩ := acceptInOrder_taken (l₀.dueAck lane) lane (l₀.streamFor lane) body hr
      rw [he]
      simp only [streamFor_received_self, setStream_received]
      refine drainReorderBuffer_headRefused ?_
      rw [streamFor_received_self]
      exact hi₀.wf

end ReliableLink

end NetLink.Channel
