import NetLink.Engine.PeerMoves

/-! How the flags of a session go together. -/

namespace NetLink.NetworkEngine

open Channel (OutboundMessage)

structure SessionView.Tidy (s : SessionView) : Prop where
  closes : s.closeSent = true → s.state = .closing
  sent : s.closeSent = true → s.announced = true → s.reported = true
  ends : s.ended = true → s.announced = true → s.reported = true
  told : s.reported = true → s.closeSent = true ∨ s.ended = true
  opens : s.transfersData = true → s.announced = true
  waits : s.state = .awaitingDecision → s.announced = true ∧ s.initiator = false

variable {Γ : Rules} {v w : View} {id : PeerId} {s s' : SessionView} {ms : List Mark} {o o' : Option SessionView}

namespace SessionView

lemma transfersData_iff : s.transfersData = true ↔ s.state = .connected ∨ s.state = .closing ∧
    s.closeSent = false := by
  simp [transfersData]

lemma reported_told (ha : s.announced = true) : s.told.reported = true := by simp [told, ha]

lemma tidy_goodbye (s : SessionView) (m : OutboundMessage) : (s.told.closing m).Tidy where
  closes _ := rfl
  sent _ ha := reported_told ha
  ends _ ha := reported_told ha
  told _ := .inl rfl
  opens ht := by simp [transfersData, closing] at ht
  waits hw := nomatch hw

lemma Tidy.connected (h : s.Tidy) (hs : s.state = .connecting) (he : s.ended = false) : s.connected.Tidy := by
  have hc : s.closeSent = false := by
    by_contra hc
    have hstate := h.closes (by simpa using hc)
    simp [hs] at hstate
  have hopen : s.connected.closeSent ≠ true ∧ s.connected.ended ≠ true := by simp [SessionView.connected, hc, he]
  exact ⟨fun hc => absurd hc hopen.1, fun hc => absurd hc hopen.1, fun he => absurd he hopen.2,
    h.told, fun _ => rfl,
    fun hw => nomatch hw⟩

lemma Tidy.accepted (h : s.Tidy) (hs : s.state = .awaitingDecision) (m : OutboundMessage) :
    (s.accepted m).Tidy where
  closes hc := by
    have hstate := h.closes hc
    simp [hs] at hstate
  sent := h.sent
  ends := h.ends
  told := h.told
  opens ht := by simp [transfersData, SessionView.accepted] at ht
  waits hw := nomatch hw

end SessionView

lemma SessionMove.tidy (h : s.Tidy) (hm : SessionMove id s s' ms) : s'.Tidy := by
  cases hm with
  | drain hs =>
    have hopens : s.announced = true := h.opens (SessionView.transfersData_iff.mpr (.inl hs))
    exact ⟨fun _ => rfl, h.sent, h.ends, h.told, fun _ => hopens, fun hw => nomatch hw⟩
  | tell reason hc =>
    have hreported : s.announced = true → s.told.reported = true := SessionView.reported_told
    exact ⟨h.closes, fun _ => hreported, fun _ => hreported, fun _ => .inl hc, h.opens, h.waits⟩
  | decline m | goodbye m => exact s.tidy_goodbye m
  | finish reason =>
    have hreported : s.announced = true → s.told.reported = true := SessionView.reported_told
    exact ⟨h.closes, fun _ => hreported, fun _ => hreported, fun _ => .inr rfl, h.opens, h.waits⟩
  | letGo hs => exact ⟨h.closes, h.sent, fun _ => h.sent hs.2, fun _ => .inr rfl, h.opens, h.waits⟩
  | accepted info hs he => exact h.connected hs.1 he
  | settled info hs hi ha he => exact h.connected hs he
  | message | link | peek => exact ⟨h.closes, h.sent, h.ends, h.told, h.opens, h.waits⟩

lemma PeerMove.tidy (h : ∀ s, o = some s → s.Tidy) (hm : PeerMove Γ v id o o' ms) : ∀ s, o' = some s → s.Tidy := by
  cases hm with
  | quiet | applied | late | ignored => exact h
  | refused | lostCrossing | dropTold | dropEnded => simp
  | answered c s m hc hs =>
    rintro _ ⟨⟩
    exact (h s rfl).accepted hs m
  | session s s' ms hm =>
    rintro _ ⟨⟩
    exact hm.tidy (h s rfl)
  | relinked s l control =>
    rintro _ ⟨⟩
    obtain ⟨h₁, h₂, h₃, h₄, h₅, h₆⟩ := h s rfl
    exact ⟨h₁, h₂, h₃, h₄, h₅, h₆⟩
  | overtaken s info hs hn ha he =>
    rintro _ ⟨⟩
    exact (h s rfl).connected hs he
  | opened | asked | welcomed | crossed =>
    rintro _ ⟨⟩
    constructor <;> simp [SessionView.transfersData, SessionView.accepted]

def View.Tidy (v : View) : Prop := ∀ id s, v.sessions id = some s → s.Tidy

lemma Move.tidy (h : v.Tidy) (hm : Move Γ v w) : w.Tidy := by
  intro id
  obtain ⟨ms, -, hp⟩ := hm.shown id
  exact hp.tidy (h id)

lemma Move.settings (h : Move Γ v w) :
    w.id = v.id ∧ w.autoAccept = v.autoAccept ∧ w.identity = v.identity ∧
      (v.shutdown = true → w.shutdown = true) := by
  cases h with
  | shutDown => exact ⟨rfl, rfl, rfl, fun _ => rfl⟩
  | refused | opened | crossed | lostCrossing | dropTold | dropEnded =>
    rw [View.drop_eq]
    exact ⟨rfl, rfl, rfl, fun h => h⟩
  | _ => exact ⟨rfl, rfl, rfl, fun h => h⟩

end NetLink.NetworkEngine
