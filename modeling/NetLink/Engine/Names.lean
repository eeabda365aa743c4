import NetLink.Discovery.MessageCodecs
import NetLink.Engine.Tables
import NetLink.Engine.Tidy
import NetLink.Lib.Utf8

/-! The texts that are cut off: the name of an engine, which other engines read in its messages, and those the C
interface hands out. -/

namespace NetLink

open Net (Text)
open Channel (byteAt)
open Lib (Utf8.encode Utf8.Valid Utf8.Boundary Utf8.isContinuation Utf8.valid_iff)

def MaxString : ℕ := 256

def stepBack (source : Text) : ℕ → ℕ
  | 0 => 0
  | length + 1 => if Utf8.isContinuation (byteAt source (length + 1)) then stepBack source length else length + 1

def copyString (target : List UInt8) (source : Text) : List UInt8 :=
  let length := min source.length (MaxString - 1)
  let length := if length < source.length then stepBack source length else length
  source.take length ++ 0 :: target.drop (length + 1)

structure LongestWhole (source : Text) (limit : ℕ) (part : Text) : Prop where
  isPrefix : part <+: source
  valid : Utf8.Valid part
  fits : part.length ≤ limit
  longest : ∀ other, other <+: source → Utf8.Valid other → other.length ≤ limit → other <+: part

section CopyString

variable {chars : List Char} {source : Text} {n limit : ℕ}

lemma stepBack_le (source : Text) : ∀ n, stepBack source n ≤ n
  | 0 => le_rfl
  | n + 1 => by
    rw [stepBack]
    split
    · exact (stepBack_le source n).trans n.le_succ
    · exact le_rfl

lemma boundary_iff_byteAt (h : n < (Utf8.encode chars).length) :
    Utf8.Boundary chars n ↔ ¬Utf8.isContinuation (byteAt (Utf8.encode chars) n) = true := by
  rw [byteAt, List.getD_eq_getElem?_getD, List.getElem?_eq_getElem h, Option.getD_some, Bool.not_eq_true,
    Lib.Utf8.isContinuation_eq_false_iff (List.getElem?_eq_getElem h)]

lemma stepBack_spec (h : n < (Utf8.encode chars).length) :
    Utf8.Boundary chars (stepBack (Utf8.encode chars) n) ∧
    ∀ m ≤ n, Utf8.Boundary chars m → m ≤ stepBack (Utf8.encode chars) n := by
  induction n with
  | zero => exact ⟨Lib.Utf8.boundary_zero, fun m hm _ => hm⟩
  | succ n ih =>
    rw [stepBack]
    split
    · next hc =>
      obtain ⟨hb, hlast⟩ := ih (Nat.lt_of_succ_lt h)
      refine ⟨hb, fun m hm hbm => hlast m (Nat.le_of_lt_succ (lt_of_le_of_ne hm ?_)) hbm⟩
      rintro rfl
      exact (boundary_iff_byteAt h).mp hbm hc
    · next hc => exact ⟨(boundary_iff_byteAt h).mpr hc, fun m hm _ => hm⟩

lemma longestWhole_take (hb : Utf8.Boundary chars n) (hn : n ≤ limit)
    (hlast : ∀ m ≤ limit, Utf8.Boundary chars m → m ≤ n) :
    LongestWhole (Utf8.encode chars) limit ((Utf8.encode chars).take n) := by
  obtain ⟨kept, hkept, rfl⟩ := hb
  rw [Lib.Utf8.take_length_encode hkept]
  refine ⟨Lib.Utf8.encode_prefix_iff.mpr hkept, Utf8.valid_iff.mpr ⟨kept, rfl⟩, hn, fun other ho hv hl => ?_⟩
  obtain ⟨others, rfl⟩ := Utf8.valid_iff.mp hv
  have hle := hlast _ hl ⟨others, Lib.Utf8.encode_prefix_iff.mp ho, rfl⟩
  exact List.prefix_of_prefix_length_le ho (Lib.Utf8.encode_prefix_iff.mpr hkept) hle

lemma copyString_spec (target : List UInt8) (h : Utf8.Valid source) : ∃ part,
    LongestWhole source (MaxString - 1) part ∧
    copyString target source = part ++ 0 :: target.drop (part.length + 1) := by
  obtain ⟨chars, rfl⟩ := Utf8.valid_iff.mp h
  rw [copyString]
  split
  · next hlt =>
    have hcut : min (Utf8.encode chars).length (MaxString - 1) = MaxString - 1 := by omega
    rw [hcut] at hlt ⊢
    obtain ⟨hb, hlast⟩ := stepBack_spec hlt
    have hle := stepBack_le (Utf8.encode chars) (MaxString - 1)
    refine ⟨_, longestWhole_take hb hle hlast, ?_⟩
    rw [List.length_take, min_eq_left (hle.trans hlt.le)]
  · next hge =>
    have hall : min (Utf8.encode chars).length (MaxString - 1) = (Utf8.encode chars).length := by omega
    rw [hall]
    refine ⟨_, longestWhole_take ⟨chars, List.prefix_rfl, rfl⟩ (by omega) ?_, by rw [List.length_take, min_self]⟩
    rintro m - ⟨kept, hkept, rfl⟩
    exact (Lib.Utf8.encode_prefix_iff.mpr hkept).length_le

end CopyString

namespace NetworkEngine

open Channel (OutboundMessage)
open Discovery (decodeBeacon)
open Session (decodeHello decodeAccept)

structure Sends (e : NetworkEngine) (name : Text) : Prop where
  beacon : ∀ reply, (decodeBeacon (e.mDiscovery.beacon reply)).map (·.name) = some name
  hello : ∀ id, (decodeHello (e.hello id).encode).map (·.name) = some name
  accept : ∀ id p, e.find id = some p → ∃ body, decodeAccept body = some ⟨name⟩ ∧
    ((e.sendAccept id).find id).map (·.control) = some (p.control ++ [controlMessage .accept body])

variable {e : NetworkEngine} {name : Text}

lemma Sends.unique {other : Text} (h : e.Sends name) (h' : e.Sends other) : name = other :=
  Option.some.inj (by rw [← h.beacon true, h'.beacon true])

lemma sends_identity (hid : e.mId ≠ 0) (hown : e.mDiscovery.mIdentity.instanceId ≠ 0)
    (hname : e.mDiscovery.mIdentity.name.length ≤ 255) : e.Sends e.mDiscovery.mIdentity.name where
  beacon reply := by
    rw [Discovery.DiscoveryLogic.beacon, (Discovery.beacon_exact (by exact hown) (by exact hname)).whole]
    rfl
  hello id := by
    rw [(Session.hello_codec (by exact hid) (by exact hname)).1.whole]
    rfl
  accept id p h := by
    refine ⟨_, (Session.accept_codec (by exact hname)).1.whole, ?_⟩
    rw [find_sendAccept e h]
    rfl

lemma id_new_ne_zero (config : EngineConfig) {drawn : UInt64} (h : drawn ≠ 0) :
    (NetworkEngine.new config drawn).mId ≠ 0 := by
  rw [NetworkEngine.new]
  dsimp only
  split
  · next hset => exact hset
  · exact h

lemma identity_of_run {config : EngineConfig} {drawn : UInt64} {o : Observed}
    (hr : (Observed.system Observed.anything).Steps { engine := .new config drawn } o)
    (he : Run .any o.engine.view e.view) :
    e.mId = (NetworkEngine.new config drawn).mId ∧
    e.mDiscovery.mIdentity = (NetworkEngine.new config drawn).mDiscovery.mIdentity := by
  have hrun : ∀ {v w : View}, Run .any v w → w.id = v.id ∧ w.identity = v.identity := by
    intro v w h
    induction h with
    | refl => exact ⟨rfl, rfl⟩
    | tail _ hm ih => exact ⟨hm.settings.1.trans ih.1, hm.settings.2.2.1.trans ih.2⟩
  have hstart : (Observed.system Observed.anything).Reachable { engine := .new config drawn } :=
    Observed.reachable_new config drawn
  have ho : o.engine.mId = (NetworkEngine.new config drawn).mId ∧
      o.engine.mDiscovery.mIdentity = (NetworkEngine.new config drawn).mDiscovery.mIdentity := by
    refine hstart.persists (P := fun o => o.engine.mId = (NetworkEngine.new config drawn).mId ∧
      o.engine.mDiscovery.mIdentity = (NetworkEngine.new config drawn).mDiscovery.mIdentity) ?_ hr ⟨rfl, rfl⟩
    rintro o o' hreach ⟨hid, hidentity⟩ ⟨world, now, -, rfl⟩
    have hstep := hrun (reaches_round o.engine world now (lawful_any _ _ _) (Observed.sound hreach))
    exact ⟨hstep.1.trans hid, hstep.2.trans hidentity⟩
  exact ⟨(hrun he).1.trans ho.1, (hrun he).2.trans ho.2⟩

theorem names_stay_whole (config : EngineConfig) (drawn : UInt64) (hdrawn : drawn ≠ 0)
    (hvalid : Utf8.Valid config.displayName) (target : List UInt8) (source : Text)
    (htarget : target.length = MaxString) (hsource : Utf8.Valid source) :
    ((∀ (o : Observed) (e : NetworkEngine),
        (Observed.system Observed.anything).Steps { engine := .new config drawn } o →
          Run .any o.engine.view e.view →
        ∃ name, e.Sends name ∧ Utf8.Valid name ∧ name <+: config.displayName) ↔
      (config.displayName[MaxDisplayName]?.any Utf8.isContinuation) = false) ∧
    (copyString target source).length = MaxString ∧ ∃ part,
      LongestWhole source (MaxString - 1) part ∧
      copyString target source = part ++ 0 :: target.drop (part.length + 1) := by
  refine ⟨?_, ?_⟩
  · have hsends : ∀ (o : Observed) (e : NetworkEngine),
        (Observed.system Observed.anything).Steps { engine := .new config drawn } o →
          Run .any o.engine.view e.view →
        e.Sends (config.displayName.take MaxDisplayName) := by
      intro o e hr he
      have hid := id_new_ne_zero config hdrawn
      obtain ⟨hmId, hidentity⟩ := identity_of_run hr he
      have hname : e.mDiscovery.mIdentity.name = config.displayName.take MaxDisplayName :=
        congrArg (·.name) hidentity
      rw [← hname]
      refine sends_identity (by rw [hmId]; exact hid) (by rw [hidentity]; exact hid) ?_
      rw [hname, List.length_take]
      exact (min_le_left MaxDisplayName _).trans (by decide)
    obtain ⟨chars, hchars⟩ := Utf8.valid_iff.mp hvalid
    rw [hchars, ← Lib.Utf8.valid_take_iff, ← hchars]
    constructor
    · intro h
      obtain ⟨name, hname, hv, -⟩ := h _ _ .refl .refl
      rwa [hname.unique (hsends _ _ .refl .refl)] at hv
    · exact fun hv o e hr he => ⟨_, hsends o e hr he, hv, List.take_prefix _ _⟩
  · obtain ⟨part, hpart, hcopy⟩ := copyString_spec target hsource
    refine ⟨?_, part, hpart, hcopy⟩
    have hfits : part.length ≤ MaxString - 1 := hpart.fits
    have hmax : MaxString = 256 := rfl
    rw [hcopy, List.length_append, List.length_cons, List.length_drop, htarget]
    omega

def wholeName : Text := Utf8.encode (List.replicate 62 'a' ++ ['é'])

def longText : Text := Utf8.encode (List.replicate 254 'a' ++ ['é'])

theorem names_stay_whole_cut : (∃ name, (NetworkEngine.new { displayName := wholeName ++ [98] } 1).Sends name ∧
      Utf8.Valid name ∧ name <+: wholeName ++ [98]) ∧
    255 < longText.length ∧ ∃ part, LongestWhole longText (MaxString - 1) part ∧
      copyString (List.replicate MaxString 1) longText = part ++ 0 :: (List.replicate MaxString 1).drop
        (part.length + 1) := by
  have hname : wholeName ++ [98] = Utf8.encode (List.replicate 62 'a' ++ ['é', 'b']) := by decide +kernel
  obtain ⟨hsends, -, part, hpart, hcopy⟩ := names_stay_whole { displayName := wholeName ++ [98] } 1 (by decide)
    (Utf8.valid_iff.mpr ⟨_, hname⟩) (List.replicate MaxString 1) longText List.length_replicate
    (Utf8.valid_iff.mpr ⟨_, rfl⟩)
  exact ⟨hsends.mpr (by decide +kernel) _ _ .refl .refl, by decide +kernel, part, hpart, hcopy⟩

/-- One letter more, and only the first byte of the last character is sent. -/
theorem name_cut_through_character :
    Utf8.Valid (Utf8.encode (List.replicate 63 'a' ++ ['é'])) ∧
    ∃ name, (NetworkEngine.new { displayName := Utf8.encode (List.replicate 63 'a' ++ ['é']) } 1).Sends name ∧
      ¬Utf8.Valid name := by
  refine ⟨Utf8.valid_iff.mpr ⟨_, rfl⟩, (Utf8.encode (List.replicate 63 'a' ++ ['é'])).take MaxDisplayName, ?_, ?_⟩
  · exact sends_identity (by decide) (by decide) (by decide +kernel)
  · rw [Lib.Utf8.valid_take_iff]
    decide +kernel

end NetworkEngine

end NetLink
