import Mathlib.Data.List.Basic
import Mathlib.Data.List.TakeWhile
import Mathlib.Tactic.IntervalCases
import NetLink.Net.Address

/-! Reading an address back: `parse` accepts the text `toString` writes, and no other. -/

namespace NetLink.Net

def isDigit (c : UInt8) : Bool := 48 ≤ c && c ≤ 57

def digitOf (c : UInt8) : ℕ := c.toNat - 48

def zero : UInt8 := 48

def readDigits : ℕ → ℕ → Text → Option (ℕ × ℕ × Text)
  | octet, digits, [] => some (octet, digits, [])
  | octet, digits, c :: rest =>
    if !isDigit c then some (octet, digits, c :: rest)
    else if octet * 10 + digitOf c > 255 ∨ digits + 1 > 3 then none
    else readDigits (octet * 10 + digitOf c) (digits + 1) rest

def readOctet : Text → Option (ℕ × Text)
  | [] => none
  | c :: rest =>
    if !isDigit c then none
    else do
      let (octet, digits, rest) ← readDigits 0 0 (c :: rest)
      -- "0" is fine, "01" is not
      if c = zero ∧ digits > 1 then none else some (octet, rest)

def readDot : Text → Option Text
  | [] => none
  | c :: rest => if c ≠ IPv4Address.dot then none else some rest

def readOctets : ℕ → UInt32 → Text → Option (UInt32 × Text)
  | 0, value, text => some (value, text)
  | left + 1, value, text => do
    let (octet, rest) ← readOctet text
    let rest ← if 0 < left then readDot rest else some rest
    readOctets left ((value <<< 8) ||| UInt32.ofNat octet) rest

def IPv4Address.parse (text : Text) : Option IPv4Address := do
  let (value, rest) ← readOctets 4 0 text
  if rest ≠ [] then none else some ⟨value⟩

def valueFrom (n : ℕ) (ds : Text) : ℕ := ds.foldl (fun v c => v * 10 + digitOf c) n

def valueOf (ds : Text) : ℕ := valueFrom 0 ds

structure Plain (ds : Text) : Prop where
  digits : ∀ c ∈ ds, isDigit c = true
  nonempty : ds ≠ []
  head : ds.head? = some zero → ds.length = 1

lemma digitOf_lt {c : UInt8} (h : isDigit c = true) : digitOf c < 10 := by
  simp only [isDigit, Bool.and_eq_true, decide_eq_true_eq, UInt8.le_iff_toNat_le] at h
  have h₁ : (57 : UInt8).toNat = 57 := rfl
  rw [digitOf]
  omega

lemma ofNat_digitOf {c : UInt8} (h : isDigit c = true) : UInt8.ofNat (48 + digitOf c) = c := by
  simp only [isDigit, Bool.and_eq_true, decide_eq_true_eq, UInt8.le_iff_toNat_le] at h
  have h₀ : (48 : UInt8).toNat = 48 := rfl
  apply UInt8.toNat_inj.mp
  rw [UInt8.toNat_ofNat', digitOf]
  have := c.toNat_lt
  omega

lemma digitOf_pos {c : UInt8} (h : isDigit c = true) (hc : c ≠ zero) : 0 < digitOf c := by
  by_contra hz
  obtain h0 : digitOf c = 0 := by omega
  have hc' := ofNat_digitOf h
  rw [h0] at hc'
  exact hc hc'.symm

lemma isDigit_ofNat {d : ℕ} (h : d < 10) : isDigit (UInt8.ofNat (48 + d)) = true := by
  interval_cases d <;> rfl

lemma digitOf_ofNat {d : ℕ} (h : d < 10) : digitOf (UInt8.ofNat (48 + d)) = d := by
  interval_cases d <;> rfl

lemma decimal_digit {d : ℕ} (h : d < 10) : decimal d = [UInt8.ofNat (48 + d)] := by
  interval_cases d <;> rfl

lemma decimal_snoc {n d : ℕ} (hn : 0 < n) (hd : d < 10) :
    decimal (n * 10 + d) = decimal n ++ [UInt8.ofNat (48 + d)] := by
  rw [← decimal_digit hd, decimal, Nat.mul_comm, ← Nat.toDigits_append_toDigits (by decide) hn hd, List.map_append]
  rfl

lemma decimal_valueFrom {ds : Text} (h : ∀ c ∈ ds, isDigit c = true) {n : ℕ} (hn : 0 < n) :
    decimal (valueFrom n ds) = decimal n ++ ds := by
  induction ds generalizing n with
  | nil => rw [List.append_nil, valueFrom, List.foldl_nil]
  | cons c ds ih =>
    have hc := h c (List.mem_cons_self ..)
    have hpos : 0 < n * 10 + digitOf c := by omega
    change decimal (valueFrom (n * 10 + digitOf c) ds) = _
    rw [ih (fun x hx => h x (List.mem_cons_of_mem _ hx)) hpos, decimal_snoc hn (digitOf_lt hc), ofNat_digitOf hc,
      List.append_assoc, List.singleton_append]

lemma Plain.decimal_valueOf {ds : Text} (h : Plain ds) : decimal (valueOf ds) = ds := by
  obtain ⟨hd, hne, hz⟩ := h
  cases ds with
  | nil => exact absurd rfl hne
  | cons c ds =>
    have hc := hd c (List.mem_cons_self ..)
    have hv : valueOf (c :: ds) = valueFrom (digitOf c) ds := by
      rw [valueOf, valueFrom, List.foldl_cons, Nat.zero_mul, Nat.zero_add, valueFrom]
    have hone : decimal (digitOf c) = [c] := by rw [decimal_digit (digitOf_lt hc), ofNat_digitOf hc]
    by_cases h0 : c = zero
    · obtain rfl : ds = [] := by simpa using hz (by rw [h0]; rfl)
      rw [hv]
      exact hone
    · rw [hv, decimal_valueFrom (fun x hx => hd x (List.mem_cons_of_mem _ hx)) (digitOf_pos hc h0), hone,
        List.singleton_append]

lemma valueFrom_snoc (n : ℕ) (ds : Text) (c : UInt8) :
    valueFrom n (ds ++ [c]) = valueFrom n ds * 10 + digitOf c := by
  rw [valueFrom, List.foldl_append, List.foldl_cons, List.foldl_nil, valueFrom]

lemma Plain.snoc {ds : Text} (h : Plain ds) (hz : ds ≠ [zero]) {c : UInt8} (hc : isDigit c = true) :
    Plain (ds ++ [c]) := by
  refine ⟨?_, by simp, fun hh => ?_⟩
  · intro x hx
    rcases List.mem_append.mp hx with hx | hx
    · exact h.digits x hx
    · exact (List.mem_singleton.mp hx) ▸ hc
  · obtain ⟨d, ds, rfl⟩ := List.exists_cons_of_ne_nil h.nonempty
    obtain rfl : d = zero := by simpa using hh
    obtain rfl : ds = [] := by simpa using h.head rfl
    exact absurd rfl hz

lemma plain_decimal (n : ℕ) : Plain (decimal n) ∧ valueOf (decimal n) = n := by
  induction n using Nat.strong_induction_on with
  | _ n ih =>
    by_cases hn : n < 10
    · rw [decimal_digit hn]
      refine ⟨⟨?_, by simp, fun _ => rfl⟩, ?_⟩
      · intro c hc
        exact (List.mem_singleton.mp hc) ▸ isDigit_ofNat hn
      · rw [valueOf, valueFrom, List.foldl_cons, List.foldl_nil, digitOf_ofNat hn, Nat.zero_mul, Nat.zero_add]
    · obtain ⟨hp, hv⟩ := ih (n / 10) (by omega)
      have hd : n % 10 < 10 := Nat.mod_lt _ (by decide)
      have hne : decimal (n / 10) ≠ [zero] := by
        intro h0
        rw [h0] at hv
        have h1 : valueOf [zero] = 0 := rfl
        omega
      have hs : decimal n = decimal (n / 10) ++ [UInt8.ofNat (48 + n % 10)] := by
        rw [← decimal_snoc (by omega) hd, Nat.div_add_mod']
      rw [hs]
      refine ⟨hp.snoc hne (isDigit_ofNat hd), ?_⟩
      rw [valueOf, valueFrom_snoc, digitOf_ofNat hd]
      change valueOf (decimal (n / 10)) * 10 + n % 10 = n
      rw [hv, Nat.div_add_mod']

lemma length_decimal {n : ℕ} (h : n ≤ 255) : (decimal n).length ≤ 3 := by
  rw [decimal, List.length_map, Nat.length_toDigits_le_iff (by decide) (by decide)]
  omega

lemma le_valueFrom (n : ℕ) (ds : Text) : n ≤ valueFrom n ds := by
  induction ds generalizing n with
  | nil => exact le_rfl
  | cons c ds ih =>
    calc n ≤ n * 10 + digitOf c := by omega
      _ ≤ valueFrom n (c :: ds) := ih _

lemma readDigits_eq {octet digits : ℕ} (text : Text) (ho : octet ≤ 255) (hd : digits ≤ 3) :
    readDigits octet digits text =
      if valueFrom octet (text.takeWhile isDigit) ≤ 255 ∧ digits + (text.takeWhile isDigit).length ≤ 3 then
        some (valueFrom octet (text.takeWhile isDigit), digits + (text.takeWhile isDigit).length,
          text.dropWhile isDigit)
      else none := by
  induction text generalizing octet digits with
  | nil => exact (if_pos ⟨ho, hd⟩).symm
  | cons c text ih =>
    rw [readDigits]
    cases hc : isDigit c with
    | false =>
      simp only [List.takeWhile_cons, List.dropWhile_cons, hc, Bool.not_false, if_true,
        Bool.false_eq_true, if_false]
      exact (if_pos ⟨ho, hd⟩).symm
    | true =>
      simp only [List.takeWhile_cons, List.dropWhile_cons, hc, Bool.not_true, if_true,
        Bool.false_eq_true, if_false,
        List.length_cons]
      have hv : valueFrom octet (c :: text.takeWhile isDigit) =
        valueFrom (octet * 10 + digitOf c) (text.takeWhile isDigit) := rfl
      have hle := le_valueFrom (octet * 10 + digitOf c) (text.takeWhile isDigit)
      rw [hv]
      split
      · next hbig =>
        rw [if_neg (by omega)]
      · next hsmall =>
        rw [ih (by omega) (by omega), Nat.add_right_comm digits 1, Nat.add_assoc digits]

lemma readDigits_zero (text : Text) :
    readDigits 0 0 text =
      if valueOf (text.takeWhile isDigit) ≤ 255 ∧ (text.takeWhile isDigit).length ≤ 3 then
        some (valueOf (text.takeWhile isDigit), (text.takeWhile isDigit).length, text.dropWhile isDigit)
      else none := by
  have h := readDigits_eq text (Nat.zero_le 255) (Nat.zero_le 3)
  simp only [Nat.zero_add] at h
  exact h

def Stops (rest : Text) : Prop := ∀ c ∈ rest.head?, isDigit c = false

lemma stops_dropWhile (text : Text) : Stops (text.dropWhile isDigit) := by
  intro c hc
  have h := List.head?_dropWhile_not isDigit text
  rw [Option.mem_def.mp hc] at h
  exact h

lemma split_of_stops {ds rest : Text} (hd : ∀ c ∈ ds, isDigit c = true) (hr : Stops rest) :
    (ds ++ rest).takeWhile isDigit = ds ∧ (ds ++ rest).dropWhile isDigit = rest := by
  rw [List.takeWhile_append_of_pos hd, List.dropWhile_append_of_pos hd]
  cases rest with
  | nil => exact ⟨List.append_nil _, rfl⟩
  | cons c rest =>
    have hc := hr c rfl
    simp [hc]

lemma readOctet_eq_some {text rest : Text} {octet : ℕ} :
    readOctet text = some (octet, rest) ↔ octet ≤ 255 ∧ text = decimal octet ++ rest ∧ Stops rest := by
  constructor
  · intro h
    cases text with
    | nil => cases h
    | cons c tail =>
      cases hc : isDigit c with
      | false => simp [readOctet, hc] at h
      | true =>
        simp only [readOctet, hc, Bool.not_true, Bool.false_eq_true, if_false, readDigits_zero] at h
        split at h
        · next hsmall =>
          simp only [Option.bind_eq_bind, Option.bind_some] at h
          split at h
          · cases h
          · next hplain =>
            obtain ⟨rfl, rfl⟩ := Prod.mk.inj (Option.some.inj h)
            have hp : Plain ((c :: tail).takeWhile isDigit) := by
              refine ⟨fun x hx => List.mem_takeWhile_imp hx, by simp [hc], fun hz => ?_⟩
              have hlen : 0 < ((c :: tail).takeWhile isDigit).length := by simp [hc]
              have hhead : c = zero := by simpa [hc] using hz
              have := not_and.mp hplain hhead
              omega
            refine ⟨hsmall.1, ?_, stops_dropWhile _⟩
            rw [hp.decimal_valueOf, List.takeWhile_append_dropWhile]
        · cases h
  · rintro ⟨ho, rfl, hr⟩
    obtain ⟨hp, hv⟩ := plain_decimal octet
    obtain ⟨ht, hd⟩ := split_of_stops hp.digits hr
    have hlen := length_decimal ho
    have hall : readDigits 0 0 (decimal octet ++ rest) = some (octet, (decimal octet).length, rest) := by
      rw [readDigits_zero]
      simp only [ht, hd, hv, ho, hlen, and_self, if_true]
    obtain ⟨c, ds, hcs⟩ := List.exists_cons_of_ne_nil hp.nonempty
    have hc : isDigit c = true := hp.digits c (hcs ▸ List.mem_cons_self ..)
    have hz : ¬(c = zero ∧ (decimal octet).length > 1) := by
      rintro ⟨rfl, hlong⟩
      have := hp.head (by rw [hcs]; rfl)
      omega
    rw [hcs, List.cons_append] at hall ⊢
    rw [hcs] at hz
    simp only [readOctet, hc, Bool.not_true, Bool.false_eq_true, if_false, hall, Option.bind_eq_bind,
      Option.bind_some,
      if_neg hz]

lemma readDot_eq_some {text rest : Text} : readDot text = some rest ↔ text = IPv4Address.dot :: rest := by
  cases text with
  | nil => simp [readDot]
  | cons c tail => simp [readDot]

def dotted (octets : List ℕ) : Text := [IPv4Address.dot].intercalate (octets.map decimal)

lemma dotted_singleton (o : ℕ) : dotted [o] = decimal o := by
  simp [dotted]

lemma dotted_cons (o : ℕ) {octets : List ℕ} (h : octets ≠ []) :
    dotted (o :: octets) = decimal o ++ IPv4Address.dot :: dotted octets := by
  simp [dotted, List.intercalate_cons_of_ne_nil, h]

def pack (value : UInt32) (octets : List ℕ) : UInt32 :=
  octets.foldl (fun v o => (v <<< 8) ||| UInt32.ofNat o) value

lemma stops_dot (rest : Text) : Stops (IPv4Address.dot :: rest) := by
  intro c hc
  obtain rfl : IPv4Address.dot = c := by simpa using hc
  rfl

lemma readOctets_eq_some {left : ℕ} {value v : UInt32} {text rest : Text} :
    readOctets (left + 1) value text = some (v, rest) ↔ ∃ octets : List ℕ, octets.length = left + 1 ∧
      (∀ o ∈ octets, o ≤ 255) ∧ text = dotted octets ++ rest ∧ Stops rest ∧ v = pack value octets := by
  induction left generalizing value text with
  | zero =>
    simp only [readOctets, Option.bind_eq_bind, Option.bind_eq_some_iff, Prod.exists, readOctet_eq_some,
      lt_irrefl, if_false, Option.some.injEq, Prod.mk.injEq]
    constructor
    · rintro ⟨o, r, ⟨ho, rfl, hr⟩, r', rfl, rfl, rfl⟩
      exact ⟨[o], rfl, by simpa using ho, by rw [dotted_singleton], hr, rfl⟩
    · rintro ⟨octets, hlen, ho, rfl, hr, rfl⟩
      obtain ⟨o, rfl⟩ := List.length_eq_one_iff.mp hlen
      exact ⟨o, rest, ⟨ho o (List.mem_singleton_self o), by rw [dotted_singleton], hr⟩, rest, rfl, rfl, rfl⟩
  | succ left ih =>
    rw [readOctets]
    simp only [Option.bind_eq_bind, Option.bind_eq_some_iff, Prod.exists, readOctet_eq_some,
      Nat.zero_lt_succ, if_true, readDot_eq_some, ih]
    constructor
    · rintro ⟨o, r, ⟨ho, rfl, -⟩, r', rfl, octets, hlen, hos, rfl, hr, rfl⟩
      refine ⟨o :: octets, by rw [List.length_cons, hlen], ?_, ?_, hr, rfl⟩
      · exact List.forall_mem_cons.mpr ⟨ho, hos⟩
      · rw [dotted_cons o (List.ne_nil_of_length_eq_add_one hlen), List.append_assoc, List.cons_append]
    · rintro ⟨octets, hlen, hos, rfl, hr, rfl⟩
      obtain ⟨o, octets, rfl⟩ := List.exists_cons_of_length_eq_add_one hlen
      obtain ⟨ho, hos⟩ := List.forall_mem_cons.mp hos
      refine ⟨o, IPv4Address.dot :: (dotted octets ++ rest), ⟨ho, ?_, stops_dot _⟩, _, rfl, octets,
        Nat.succ.inj hlen, hos, rfl, hr, rfl⟩
      rw [dotted_cons o (List.ne_nil_of_length_eq_add_one (Nat.succ.inj hlen)), List.append_assoc,
        List.cons_append]

namespace IPv4Address

def octets (a : IPv4Address) : List ℕ :=
  [((a.mValue >>> 24) &&& 0xFF).toNat, ((a.mValue >>> 16) &&& 0xFF).toNat, ((a.mValue >>> 8) &&& 0xFF).toNat,
    (a.mValue &&& 0xFF).toNat]

lemma toString_eq (a : IPv4Address) : a.toString = dotted a.octets := by
  simp [toString, octets, dotted]

lemma octets_eq (a : IPv4Address) : a.octets = [a.mValue.toNat / 2 ^ 24 % 2 ^ 8, a.mValue.toNat / 2 ^ 16 % 2 ^ 8,
    a.mValue.toNat / 2 ^ 8 % 2 ^ 8, a.mValue.toNat % 2 ^ 8] := by
  have h : (0xFF : UInt32).toNat = 2 ^ 8 - 1 := rfl
  have h₂ : (24 : UInt32).toNat % 32 = 24 := rfl
  have h₁ : (16 : UInt32).toNat % 32 = 16 := rfl
  have h₀ : (8 : UInt32).toNat % 32 = 8 := rfl
  simp only [octets, UInt32.toNat_and, UInt32.toNat_shiftRight, h, h₀, h₁, h₂, Nat.and_two_pow_sub_one_eq_mod,
    Nat.shiftRight_eq_div_pow]

lemma octets_le {a : IPv4Address} {o : ℕ} (h : o ∈ a.octets) : o ≤ 255 := by
  rw [octets_eq] at h
  simp only [List.mem_cons, List.not_mem_nil, or_false] at h
  omega

lemma toNat_shift_or (value : UInt32) {o : ℕ} (h : o ≤ 255) :
    ((value <<< 8) ||| UInt32.ofNat o).toNat = value.toNat * 2 ^ 8 % 2 ^ 32 + o := by
  have h₀ : (8 : UInt32).toNat % 32 = 8 := rfl
  have hsplit : value.toNat * 2 ^ 8 % 2 ^ 32 = (value.toNat % 2 ^ 24) <<< 8 := by
    rw [Nat.shiftLeft_eq]
    omega
  rw [UInt32.toNat_or, UInt32.toNat_shiftLeft, UInt32.toNat_ofNat', h₀, Nat.shiftLeft_eq, hsplit,
    Nat.mod_eq_of_lt (by omega : o < 2 ^ 32), Nat.shiftLeft_add_eq_or_of_lt (by omega)]

lemma toNat_pack {o₀ o₁ o₂ o₃ : ℕ} (h₀ : o₀ ≤ 255) (h₁ : o₁ ≤ 255) (h₂ : o₂ ≤ 255) (h₃ : o₃ ≤ 255) :
    (pack 0 [o₀, o₁, o₂, o₃]).toNat = o₀ * 2 ^ 24 + o₁ * 2 ^ 16 + o₂ * 2 ^ 8 + o₃ := by
  have hz : (0 : UInt32).toNat = 0 := rfl
  simp only [pack, List.foldl_cons, List.foldl_nil]
  rw [toNat_shift_or _ h₃, toNat_shift_or _ h₂, toNat_shift_or _ h₁, toNat_shift_or _ h₀, hz]
  omega

lemma pack_octets (a : IPv4Address) : pack 0 a.octets = a.mValue := by
  apply UInt32.toNat_inj.mp
  rw [octets_eq, toNat_pack (by omega) (by omega) (by omega) (by omega)]
  have := a.mValue.toNat_lt
  omega

lemma octets_pack {os : List ℕ} (hlen : os.length = 4) (hos : ∀ o ∈ os, o ≤ 255) : octets ⟨pack 0 os⟩ = os := by
  obtain ⟨o₀, os, rfl⟩ := List.exists_cons_of_length_eq_add_one hlen
  obtain ⟨o₁, o₂, o₃, rfl⟩ := List.length_eq_three.mp (Nat.succ.inj hlen)
  simp only [List.forall_mem_cons, List.not_mem_nil, false_implies, implies_true, and_true] at hos
  obtain ⟨h₀, h₁, h₂, h₃⟩ := hos
  rw [octets_eq, toNat_pack h₀ h₁ h₂ h₃]
  simp only [List.cons.injEq, and_true]
  omega

lemma parse_eq_some {text : Text} {a : IPv4Address} : parse text = some a ↔ text = a.toString := by
  simp only [parse, Option.bind_eq_bind, Option.bind_eq_some_iff, Prod.exists, readOctets_eq_some, ite_not,
    Option.ite_none_right_eq_some, toString_eq]
  constructor
  · rintro ⟨v, rest, ⟨os, hlen, hos, rfl, -, rfl⟩, rfl, h⟩
    obtain rfl := Option.some.inj h
    rw [List.append_nil, octets_pack hlen hos]
  · rintro rfl
    refine ⟨a.mValue, [], ⟨a.octets, rfl, fun o => octets_le, (List.append_nil _).symm, nofun,
      (pack_octets a).symm⟩,
      rfl, rfl⟩

lemma dot_not_mem_decimal (n : ℕ) : dot ∉ decimal n :=
  fun h => absurd ((plain_decimal n).1.digits dot h) (by decide)

lemma splitOn_toString (a : IPv4Address) : a.toString.splitOn dot = a.octets.map decimal := by
  rw [toString_eq, dotted, List.splitOn_intercalate]
  · rintro ds hds hdot
    obtain ⟨n, -, rfl⟩ := List.mem_map.mp hds
    exact dot_not_mem_decimal n hdot
  · simp [octets]

theorem parse_inverse_of_toString (s : Text) :
    (∀ a, parse s = some a ↔ s = a.toString) ∧ (∀ a : IPv4Address, parse a.toString = some a) ∧
      ((parse s).isSome → (s.splitOn dot).length = 4 ∧
        ∀ part ∈ s.splitOn dot, Plain part ∧ valueOf part ≤ 255) := by
  refine ⟨fun a => parse_eq_some, fun a => parse_eq_some.mpr rfl, fun h => ?_⟩
  obtain ⟨a, ha⟩ := Option.isSome_iff_exists.mp h
  rw [parse_eq_some.mp ha, splitOn_toString]
  refine ⟨rfl, fun part hp => ?_⟩
  obtain ⟨o, ho, rfl⟩ := List.mem_map.mp hp
  obtain ⟨hplain, hvalue⟩ := plain_decimal o
  exact ⟨hplain, hvalue.trans_le (octets_le ho)⟩

end IPv4Address

end NetLink.Net
