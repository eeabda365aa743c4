import NetLink.Engine.Loops
import NetLink.Lib.System

/-! How Media messages reach the application. A message waits in the inbox of its session, and one event for it
goes through the queue of the event thread; the two meet again only by their number. Every message of an inbox
carries its place among those pushed, which nothing reads. -/

namespace NetLink

open Channel (MediaQueueMessages)

def pushInbox {α : Type} (waiting : List α) (message : α) : List α :=
  (if waiting.length ≥ MediaQueueMessages then waiting.drop 1 else waiting) ++ [message]

lemma NetworkEngine.deliver_media (e : NetworkEngine) {id : PeerId} {p : Peer} {message : Channel.DeliveredMessage}
    (h : e.find id = some p) (he : p.ended = false) (hr : p.reported = false) (ht : p.transfersData = true)
    (hl : message.lane = .media) :
    ((e.deliver id message).find id).map (·.media) = some (some
      (pushInbox ((p.media.getD []).drop (e.world.mediaTaken.headD 0))
        { type := message.tag, data := message.body })) ∧
    (e.deliver id message).mEvents =
      e.mEvents ++ [{ kind := .message, peer := id, lane := .media, media := true }] := by
  have hdeliver : e.deliver id message =
      (e.pushMedia id message).emit { kind := .message, peer := id, lane := .media, media := true } := by
    rw [deliver, if_neg (by rw [hl]; decide), if_neg (by rw [h]; simp [he, hr, ht]), if_pos hl, hl]
    rfl
  rw [hdeliver]
  refine ⟨?_, rfl⟩
  change ((e.modifyPeer id _).find id).map (·.media) = _
  rw [find_modifyPeer_self, h]
  rfl

structure Booked (waiting : List (Message × ℕ)) (undispatched : ℕ) (pushed : List Message)
    (taken : List (Message × ℕ)) : Prop where
  bounded : waiting.length ≤ MediaQueueMessages
  counted : waiting.length ≤ undispatched
  newest : waiting <:+ pushed.zipIdx
  ordered : (taken ++ waiting).Sublist pushed.zipIdx
  skipped : ∀ x ∈ pushed.zipIdx, x ∈ taken ∨ x ∈ waiting ∨ x.2 + MediaQueueMessages < pushed.length

namespace Booked

variable {waiting rest taken : List (Message × ℕ)} {undispatched : ℕ} {pushed : List Message} {x : Message × ℕ}

lemma initial : Booked [] 0 [] [] := ⟨Nat.zero_le _, le_rfl, List.suffix_rfl, .slnil, nofun⟩

lemma zipIdx_concat (pushed : List Message) (message : Message) :
    (pushed ++ [message]).zipIdx = pushed.zipIdx ++ [(message, pushed.length)] := by
  rw [List.zipIdx_append, Nat.zero_add]
  rfl

lemma number_of_suffix (h : x :: rest <:+ pushed.zipIdx) : x.2 + (rest.length + 1) = pushed.length := by
  obtain ⟨before, hb⟩ := h
  have hlen := congrArg List.length hb
  rw [List.length_append, List.length_cons, List.length_zipIdx] at hlen
  have hx : pushed.zipIdx[before.length]? = some x := by rw [← hb]; simp
  rw [List.getElem?_zipIdx, Option.map_eq_some_iff] at hx
  obtain ⟨message, -, rfl⟩ := hx
  dsimp only
  omega

lemma pushNewest (h : Booked waiting undispatched pushed taken) (hroom : waiting.length < MediaQueueMessages)
    (message : Message) :
    Booked (waiting ++ [(message, pushed.length)]) (undispatched + 1) (pushed ++ [message]) taken where
  bounded := by
    rw [List.length_append, List.length_singleton]
    exact hroom
  counted := by
    rw [List.length_append, List.length_singleton]
    exact Nat.succ_le_succ h.counted
  newest := by
    obtain ⟨before, hb⟩ := h.newest
    exact ⟨before, by rw [zipIdx_concat, ← hb, List.append_assoc]⟩
  ordered := by
    rw [zipIdx_concat, ← List.append_assoc]
    exact h.ordered.append_right _
  skipped := by
    intro x hx
    rw [zipIdx_concat, List.mem_append] at hx
    rw [List.length_append, List.length_singleton]
    rcases hx with hx | hx
    · rcases h.skipped x hx with ht | hw | hs
      · exact .inl ht
      · exact .inr (.inl (List.mem_append_left _ hw))
      · exact .inr (.inr (Nat.lt_succ_of_lt hs))
    · exact .inr (.inl (List.mem_append_right _ hx))

lemma pushFull (h : Booked (x :: rest) undispatched pushed taken) (hfull : MediaQueueMessages ≤ rest.length + 1)
    (message : Message) :
    Booked (rest ++ [(message, pushed.length)]) (undispatched + 1) (pushed ++ [message]) taken := by
  have hlen : rest.length + 1 = MediaQueueMessages := le_antisymm h.bounded hfull
  have hx := number_of_suffix h.newest
  have hnewest : rest <:+ pushed.zipIdx := (List.suffix_cons x rest).trans h.newest
  have hordered : (taken ++ rest).Sublist pushed.zipIdx :=
    ((List.sublist_cons_self x rest).append_left taken).trans h.ordered
  refine ⟨?_, ?_, ?_, ?_, ?_⟩
  · rw [List.length_append, List.length_singleton, hlen]
  · rw [List.length_append, List.length_singleton]
    exact h.counted.trans (Nat.le_succ _)
  · obtain ⟨before, hb⟩ := hnewest
    exact ⟨before, by rw [zipIdx_concat, ← hb, List.append_assoc]⟩
  · rw [zipIdx_concat, ← List.append_assoc]
    exact hordered.append_right _
  · intro y hy
    rw [zipIdx_concat, List.mem_append] at hy
    rw [List.length_append, List.length_singleton]
    rcases hy with hy | hy
    · rcases h.skipped y hy with ht | hw | hs
      · exact .inl ht
      · rcases List.mem_cons.mp hw with rfl | hw
        · exact .inr (.inr (by omega))
        · exact .inr (.inl (List.mem_append_left _ hw))
      · exact .inr (.inr (Nat.lt_succ_of_lt hs))
    · exact .inr (.inl (List.mem_append_right _ hy))

lemma push (h : Booked waiting undispatched pushed taken) (message : Message) :
    Booked (pushInbox waiting (message, pushed.length)) (undispatched + 1) (pushed ++ [message]) taken := by
  rw [pushInbox]
  split
  · next hfull =>
    obtain ⟨x, rest, rfl⟩ := List.exists_cons_of_length_pos (lt_of_lt_of_le (by decide) hfull)
    exact h.pushFull hfull message
  · next hroom => exact h.pushNewest (not_le.mp hroom) message

lemma take (h : Booked (x :: rest) (undispatched + 1) pushed taken) :
    Booked rest undispatched pushed (taken ++ [x]) where
  bounded := (Nat.le_succ _).trans h.bounded
  counted := Nat.le_of_succ_le_succ h.counted
  newest := (List.suffix_cons x rest).trans h.newest
  ordered := by
    rw [List.append_assoc]
    exact h.ordered
  skipped := by
    intro y hy
    rcases h.skipped y hy with ht | hw | hs
    · exact .inl (List.mem_append_left _ ht)
    · rcases List.mem_cons.mp hw with rfl | hw
      · exact .inl (List.mem_append_right _ List.mem_cons_self)
      · exact .inr (.inl hw)
    · exact .inr (.inr hs)

lemma takeNothing (h : Booked [] (undispatched + 1) pushed taken) : Booked [] undispatched pushed taken :=
  ⟨h.bounded, Nat.zero_le _, h.newest, h.ordered, h.skipped⟩

end Booked

structure HandOver (ι : Type) where
  waiting : ι → List (Message × ℕ) := fun _ => []
  events : List (Option ι) := []
  pushed : ι → List Message := fun _ => []
  taken : ι → List (Message × ℕ) := fun _ => []

namespace HandOver

variable {ι : Type} [DecidableEq ι] {s t : HandOver ι} {i j : ι}

def push (s : HandOver ι) (i : ι) (message : Message) : HandOver ι :=
  { s with
    waiting := Function.update s.waiting i (pushInbox (s.waiting i) (message, (s.pushed i).length))
    events := s.events ++ [some i]
    pushed := Function.update s.pushed i (s.pushed i ++ [message]) }

def takeMessage (s : HandOver ι) (i : ι) : HandOver ι :=
  match s.waiting i with
  | [] => s
  | message :: rest =>
    { s with
      waiting := Function.update s.waiting i rest
      taken := Function.update s.taken i (s.taken i ++ [message]) }

def dispatch (s : HandOver ι) (event : Option ι) : HandOver ι := event.elim s s.takeMessage

inductive Step (s : HandOver ι) : HandOver ι → Prop
  | push (i : ι) (message : Message) : Step s (s.push i message)
  | emit : Step s { s with events := s.events ++ [none] }
  | dispatch (event : Option ι) (rest : List (Option ι)) (h : s.events = event :: rest) :
      Step s (dispatch { s with events := rest } event)

def system : Lib.System (HandOver ι) where
  init s := s = {}
  step := Step

def undispatched (s : HandOver ι) (i : ι) : ℕ := s.events.count (some i)

def Inv (s : HandOver ι) (i : ι) : Prop := Booked (s.waiting i) (s.undispatched i) (s.pushed i) (s.taken i)

lemma Inv.push (h : s.Inv i) (j : ι) (message : Message) : (s.push j message).Inv i := by
  rw [Inv, HandOver.push]
  by_cases hj : i = j
  · subst hj
    simp only [undispatched, Function.update_self, List.count_append, List.count_singleton_self]
    exact Booked.push h message
  · have hevent : (some j == some i) = false := by simpa using Ne.symm hj
    simp only [undispatched, Function.update_of_ne hj, List.count_append, List.count_singleton, hevent]
    exact h

lemma Inv.emit (h : s.Inv i) : Inv { s with events := s.events ++ [none] } i := by
  have hnone : s.undispatched i = (s.events ++ [none]).count (some i) := by
    rw [List.count_append, undispatched]
    rfl
  rw [Inv, undispatched, ← hnone]
  exact h

lemma Inv.takeMessage
    (h : Booked (s.waiting i) (s.undispatched i + if j = i then 1 else 0) (s.pushed i) (s.taken i)) :
    (s.takeMessage j).Inv i := by
  rw [Inv, HandOver.takeMessage]
  by_cases hj : i = j
  · subst hj
    rw [if_pos rfl] at h
    split
    · next hw =>
      rw [hw] at h ⊢
      exact h.takeNothing
    · next x rest hw =>
      rw [hw] at h
      simp only [Function.update_self, undispatched]
      exact h.take
  · rw [if_neg (Ne.symm hj)] at h
    split
    · exact h
    · simp only [Function.update_of_ne hj, undispatched]
      exact h

lemma Inv.dispatch (h : s.Inv i) {event : Option ι} {rest : List (Option ι)} (he : s.events = event :: rest) :
    (HandOver.dispatch { s with events := rest } event).Inv i := by
  rw [Inv, undispatched, he] at h
  cases event with
  | none => exact h
  | some j =>
    refine takeMessage (s := { s with events := rest }) ?_
    rw [List.count_cons] at h
    simpa only [beq_iff_eq, Option.some.injEq, undispatched] using h

lemma inv (hr : system.Reachable s) (i : ι) : s.Inv i := by
  refine hr.invariant (P := fun s => s.Inv i) ?_ ?_
  · rintro s rfl
    exact Booked.initial
  · rintro s t - h hs
    cases hs with
    | push j message => exact h.push j message
    | emit => exact h.emit
    | dispatch event rest he => exact h.dispatch he

theorem media_hand_over :
    (∀ (s : HandOver ι) (i : ι), system.Reachable s →
      (s.waiting i).length ≤ s.undispatched i ∧
      (s.taken i).Sublist (s.pushed i).zipIdx ∧
      (∀ x ∈ (s.pushed i).zipIdx, x ∉ s.taken i → x ∉ s.waiting i →
        x.2 + MediaQueueMessages < (s.pushed i).length) ∧
      (s.undispatched i = 0 → s.waiting i = [])) ∧
    ∀ (e : NetworkEngine) (id : PeerId) (p : NetworkEngine.Peer) (message : Channel.DeliveredMessage),
      e.find id = some p → p.ended = false → p.reported = false → p.transfersData = true → message.lane = .media →
      ((e.deliver id message).find id).map (·.media) = some (some
        (pushInbox ((p.media.getD []).drop (e.world.mediaTaken.headD 0))
          { type := message.tag, data := message.body })) ∧
      (e.deliver id message).mEvents =
        e.mEvents ++ [{ kind := .message, peer := id, lane := .media, media := true }] := by
  refine ⟨fun s i hr => ?_, fun e id p message h he hp ht hl => NetworkEngine.deliver_media e h he hp ht hl⟩
  have hinv : Booked (s.waiting i) (s.undispatched i) (s.pushed i) (s.taken i) := inv hr i
  refine ⟨hinv.counted, (List.sublist_append_left _ _).trans hinv.ordered, fun x hx ht hw => ?_, fun h => ?_⟩
  · rcases hinv.skipped x hx with hx | hx | hx
    · exact absurd hx ht
    · exact absurd hx hw
    · exact hx
  · have hcount := hinv.counted
    rw [h] at hcount
    exact List.length_eq_zero_iff.mp (Nat.le_zero.mp hcount)

theorem media_hand_over_twoMessages :
    let s : HandOver Unit := (({} : HandOver Unit).push () {}).push () { type := 1 }
    let t : HandOver Unit := dispatch { s with events := [some ()] } (some ())
    t.taken () = [({}, 0)] ∧ t.waiting () = [({ type := 1 }, 1)] ∧ (t.waiting ()).length ≤ t.undispatched () := by
  intro s t
  refine ⟨rfl, rfl, (media_hand_over.1 t () ?_).1⟩
  have hstart : system.Reachable ({} : HandOver Unit) := .of_init rfl
  have hs : system.Reachable s := (hstart.step (Step.push () _)).step (Step.push () _)
  exact hs.step (Step.dispatch (some ()) [some ()] rfl)

end HandOver

end NetLink
