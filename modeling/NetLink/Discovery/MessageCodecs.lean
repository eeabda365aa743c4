import NetLink.Channel.WireReading
import NetLink.Discovery.Beacon

/-! Beacons and session messages, read back from what was written; fields of a later version are skipped. -/

namespace NetLink.Session

open Net (Text)
open Channel
open Channel.WireReader (both)

def encodeFields (fields : List (UInt8 × List UInt8)) : List UInt8 :=
  fields.flatMap fun field => field.1 :: UInt8.ofNat field.2.length :: field.2

def WellFormedExt (ext : List UInt8) : Prop :=
  ∃ fields : List (UInt8 × List UInt8), (∀ field ∈ fields, field.2.length ≤ 255) ∧ ext = encodeFields fields

lemma wellFormedExt_nil : WellFormedExt [] := ⟨[], nofun, rfl⟩

lemma not_wellFormedExt_single (type : UInt8) : ¬WellFormedExt [type] := by
  rintro ⟨_ | ⟨field, fields⟩, -, h⟩ <;> simp [encodeFields] at h

lemma wellFormedExt_cons {type size : UInt8} {rest : List UInt8} :
    WellFormedExt (type :: size :: rest) ↔ size.toNat ≤ rest.length ∧ WellFormedExt (rest.drop size.toNat) := by
  constructor
  · rintro ⟨_ | ⟨⟨type', value⟩, fields⟩, hlen, h⟩
    · cases h
    · obtain ⟨hvalue, hfields⟩ := List.forall_mem_cons.mp hlen
      simp only [encodeFields, List.flatMap_cons, List.cons_append, List.cons.injEq] at h
      obtain ⟨rfl, rfl, rfl⟩ := h
      have hsize : (UInt8.ofNat value.length).toNat = value.length := by
        rw [UInt8.toNat_ofNat']
        dsimp only at hvalue
        omega
      rw [hsize, List.drop_left, List.length_append]
      exact ⟨Nat.le_add_right .., fields, hfields, rfl⟩
  · rintro ⟨hle, fields, hfields, hrest⟩
    have hvalue : (rest.take size.toNat).length = size.toNat := List.length_take_of_le hle
    refine ⟨(type, rest.take size.toNat) :: fields, List.forall_mem_cons.mpr ⟨?_, hfields⟩, ?_⟩
    · have := size.toNat_lt
      dsimp only
      omega
    · rw [encodeFields, List.flatMap_cons, hvalue, UInt8.ofNat_toNat, ← encodeFields, ← hrest, List.cons_append,
        List.cons_append, List.take_append_drop]

def skipFieldsChecked : ℕ → WireReader → Option Bool
  | 0, _ => none
  | n + 1, fields =>
    if fields.complete then some true
    else
      let (_, fields) := fields.u8
      let (size, fields) := fields.u8
      let (_, fields) := fields.next size.toNat
      if fields.mFailed then some false else skipFieldsChecked n fields

lemma skipFieldsChecked_cons (n : ℕ) (type size : UInt8) (rest : List UInt8) :
    skipFieldsChecked (n + 1) { mBytes := type :: size :: rest } =
      if rest.length < size.toNat then some false else skipFieldsChecked n { mBytes := rest.drop size.toNat } := by
  have hu8 (b : UInt8) (bs : List UInt8) : WireReader.u8 { mBytes := b :: bs } = (b, { mBytes := bs }) :=
    (reads_u8 b).whole bs
  have hgo : ¬(WireReader.complete { mBytes := type :: size :: rest } = true) := nofun
  simp only [skipFieldsChecked, if_neg hgo, hu8]
  by_cases hlt : rest.length < size.toNat
  · rw [next_failed (.inr hlt), if_pos hlt]
    rfl
  · rw [next_of_le (not_lt.mp hlt), if_neg hlt]
    rfl

lemma skipFieldsChecked_spec (n : ℕ) (ext : List UInt8) (h : ext.length < n) :
    ∃ ok, skipFieldsChecked n { mBytes := ext } = some ok ∧ (ok = true ↔ WellFormedExt ext) := by
  induction n generalizing ext with
  | zero => exact absurd h (Nat.not_lt_zero _)
  | succ n ih =>
    match ext with
    | [] => exact ⟨true, rfl, fun _ => wellFormedExt_nil, fun _ => rfl⟩
    | [type] => exact ⟨false, rfl, nofun, fun hw => absurd hw (not_wellFormedExt_single type)⟩
    | type :: size :: rest =>
      rw [skipFieldsChecked_cons, wellFormedExt_cons]
      split
      · next hlt =>
        exact ⟨false, rfl, nofun, fun hw => by omega⟩
      · next hle =>
        simp only [List.length_cons] at h
        obtain ⟨ok, hok, hiff⟩ := ih (rest.drop size.toNat) (by rw [List.length_drop]; omega)
        refine ⟨ok, hok, hiff.trans ⟨fun hw => ⟨by omega, hw⟩, fun hw => hw.2⟩⟩

lemma skipFields_of_checked {n : ℕ} {fields : WireReader} {ok : Bool} (h : skipFieldsChecked n fields = some ok) :
    skipFields n fields = ok := by
  induction n generalizing fields with
  | zero => cases h
  | succ n ih =>
    rw [skipFieldsChecked] at h
    rw [skipFields]
    split at h
    · next hc =>
      rw [if_pos hc]
      exact Option.some.inj h
    · next hc =>
      rw [if_neg hc]
      dsimp only at h ⊢
      split at h
      · next hf =>
        rw [if_pos hf]
        exact Option.some.inj h
      · next hf =>
        rw [if_neg hf]
        exact ih h

lemma skipFields_iff (ext : List UInt8) : skipFields (ext.length + 1) { mBytes := ext } = true ↔
    WellFormedExt ext := by
  obtain ⟨ok, hok, hiff⟩ := skipFieldsChecked_spec _ ext (Nat.lt_succ_self _)
  rw [skipFields_of_checked hok, hiff]

def skipValue (size : ℕ) : FieldReader Bool := fun r =>
  (if (r.next size).2.mFailed then false
    else skipFields ((r.next size).1.length + 1) { mBytes := (r.next size).1 }, (r.next size).2)

lemma skipExt_eq : skipExt = fun r => skipValue r.u16.1 r.u16.2 := rfl

lemma reads_skipExt {ext : List UInt8} (h : ext.length < 2 ^ 16) :
    Reads skipExt (writeUint16 ext.length ++ ext) (skipFields (ext.length + 1) { mBytes := ext }) := by
  have hvalue : Reads (skipValue ext.length) ext (skipFields (ext.length + 1) { mBytes := ext }) := by
    refine ⟨fun rest => ?_, (reads_next ext).short, (reads_next ext).sticky⟩
    rw [skipValue, next_append]
    rfl
  rw [skipExt_eq]
  exact (reads_u16 h).bind hvalue fun size _ hr => sticky_next size hr

def replaceExt (encoding ext : List UInt8) : List UInt8 :=
  encoding.take (encoding.length - 2) ++ (writeUint16 ext.length ++ ext)

lemma replaceExt_append (fields ext : List UInt8) :
    replaceExt (fields ++ writeExt) ext = fields ++ (writeUint16 ext.length ++ ext) := by
  have hlen : (fields ++ writeExt).length - 2 = fields.length := by rw [List.length_append]; rfl
  rw [replaceExt, hlen, List.take_left]

structure Extensible {α : Type} (decode : List UInt8 → Option α) (encoding : List UInt8) (value : α)
    (fits : List UInt8 → Prop) : Prop where
  skips : ∀ ext, WellFormedExt ext → ext.length < 2 ^ 16 → fits (replaceExt encoding ext) →
    decode (replaceExt encoding ext) = some value
  rejects : ∀ ext, ¬WellFormedExt ext → ext.length < 2 ^ 16 → decode (replaceExt encoding ext) = none

lemma replaceExt_nil (fields : List UInt8) : replaceExt (fields ++ writeExt) [] = fields ++ writeExt := by
  rw [replaceExt_append, List.append_nil]
  rfl

section Extended

variable {α β : Type} {read : FieldReader β} {judge : β → Option α} {encoding : List UInt8} {value : α}
  {fields : Bool → β}

lemma exact_of_reads (hnil : replaceExt encoding [] = encoding)
    (h : ∀ ext, ext.length < 2 ^ 16 →
      Reads read (replaceExt encoding ext) (fields (skipFields (ext.length + 1) { mBytes := ext })))
    (htrue : judge (fields true) = some value) : Exact (decodeWith read judge) encoding value :=
  Reads.exact (hnil ▸ h [] (by decide)) htrue

lemma extensible_of_reads
    (h : ∀ ext, ext.length < 2 ^ 16 →
      Reads read (replaceExt encoding ext) (fields (skipFields (ext.length + 1) { mBytes := ext })))
    (htrue : judge (fields true) = some value) (hfalse : judge (fields false) = none) :
    Extensible (decodeWith read judge) encoding value fun _ => True where
  skips ext hext hlen _ := by
    rw [(h ext hlen).decodeWith_eq, (skipFields_iff ext).mpr hext, htrue]
  rejects ext hext hlen := by
    rw [(h ext hlen).decodeWith_eq, Bool.eq_false_iff.mpr fun hok => hext ((skipFields_iff ext).mp hok), hfalse]

end Extended

def readHello : FieldReader (ℕ × ℕ × ℕ × ℕ × ℕ × Text × Bool) :=
  both WireReader.u64 (both WireReader.u64 (both WireReader.u64 (both WireReader.u16 (both WireReader.u16
    (both WireReader.text skipExt)))))

def judgeHello : ℕ × ℕ × ℕ × ℕ × ℕ × Text × Bool → Option Hello
  | (fromInstance, toInstance, appIdHash, verMajor, verMinor, name, skipped) =>
    if !skipped || fromInstance == 0 then none
    else some {
      fromInstance := UInt64.ofNat fromInstance
      toInstance := UInt64.ofNat toInstance
      appIdHash := UInt64.ofNat appIdHash
      verMajor := UInt16.ofNat verMajor
      verMinor := UInt16.ofNat verMinor
      name := name }

lemma decodeHello_eq : decodeHello = decodeWith readHello judgeHello := by
  funext body
  rcases h₁ : WireReader.u64 { mBytes := body } with ⟨fromInstance, r₁⟩
  rcases h₂ : r₁.u64 with ⟨toInstance, r₂⟩
  rcases h₃ : r₂.u64 with ⟨appIdHash, r₃⟩
  rcases h₄ : r₃.u16 with ⟨verMajor, r₄⟩
  rcases h₅ : r₄.u16 with ⟨verMinor, r₅⟩
  rcases h₆ : r₅.text with ⟨name, r₆⟩
  rcases h₇ : skipExt r₆ with ⟨skipped, r₇⟩
  simp only [decodeHello, decodeWith, readHello, both, h₁, h₂, h₃, h₄, h₅, h₆, h₇]
  cases r₇.complete <;> cases skipped <;> simp [judgeHello]

def Hello.fields (hello : Hello) (ok : Bool) : ℕ × ℕ × ℕ × ℕ × ℕ × Text × Bool :=
  (hello.fromInstance.toNat, hello.toInstance.toNat, hello.appIdHash.toNat, hello.verMajor.toNat,
    hello.verMinor.toNat, hello.name, ok)

variable {hello : Hello} {ext : List UInt8}

lemma reads_hello (hname : hello.name.length ≤ 255)
    (hext : ext.length < 2 ^ 16) :
    Reads readHello (replaceExt hello.encode ext)
      (hello.fields (skipFields (ext.length + 1) { mBytes := ext })) := by
  have htail := (reads_text hname).both (reads_skipExt hext)
  have hversion := (reads_u16 hello.verMajor.toNat_lt).both ((reads_u16 hello.verMinor.toNat_lt).both htail)
  have hall := (reads_u64 hello.fromInstance.toNat_lt).both ((reads_u64 hello.toInstance.toNat_lt).both
    ((reads_u64 hello.appIdHash.toNat_lt).both hversion))
  rw [Hello.encode, replaceExt_append, readHello, Hello.fields]
  simp only [List.append_assoc]
  exact hall

lemma judgeHello_true (h : hello.fromInstance ≠ 0) :
    judgeHello (hello.fields true) = some hello := by
  have hne : hello.fromInstance.toNat ≠ 0 := fun h0 => h (UInt64.toNat_inj.mp h0)
  simp [judgeHello, Hello.fields, hne]

lemma hello_codec (h : hello.fromInstance ≠ 0) (hname : hello.name.length ≤ 255) :
    Exact decodeHello hello.encode hello ∧ Extensible decodeHello hello.encode hello fun _ => True := by
  rw [decodeHello_eq]
  exact ⟨exact_of_reads (replaceExt_nil _) (fun _ => reads_hello hname) (judgeHello_true h),
    extensible_of_reads (fun _ => reads_hello hname) (judgeHello_true h) rfl⟩

def judgeAccept : Text × Bool → Option Accept
  | (name, skipped) => if !skipped then none else some { name := name }

lemma decodeAccept_eq : decodeAccept = decodeWith (both WireReader.text skipExt) judgeAccept := by
  funext body
  have hread : decodeAccept body =
      if !(both WireReader.text skipExt { mBytes := body }).1.2 ||
        !(both WireReader.text skipExt { mBytes := body }).2.complete then none
      else some { name := (both WireReader.text skipExt { mBytes := body }).1.1 } := rfl
  rw [hread, decodeWith]
  generalize both WireReader.text skipExt { mBytes := body } = r
  obtain ⟨⟨name, skipped⟩, r⟩ := r
  cases r.complete <;> cases skipped <;> simp [judgeAccept]

def Accept.fields (accept : Accept) (ok : Bool) : Text × Bool := (accept.name, ok)

lemma reads_accept {accept : Accept} (hname : accept.name.length ≤ 255)
    (hext : ext.length < 2 ^ 16) : Reads (both WireReader.text skipExt) (replaceExt accept.encode ext)
    (accept.fields (skipFields (ext.length + 1) { mBytes := ext })) := by
  rw [Accept.encode, replaceExt_append, Accept.fields]
  exact (reads_text hname).both (reads_skipExt hext)

lemma accept_codec {accept : Accept} (hname : accept.name.length ≤ 255) :
    Exact decodeAccept accept.encode accept ∧ Extensible decodeAccept accept.encode accept fun _ => True := by
  rw [decodeAccept_eq]
  exact ⟨exact_of_reads (replaceExt_nil _) (fun _ => reads_accept hname) rfl,
    extensible_of_reads (fun _ => reads_accept hname) rfl rfl⟩

def judgeDecline : UInt8 × Text → Option Decline
  | (reason, text) => some {
      reason := if reason = DeclineReason.incompatible.toByte then .incompatible else .declined
      text := text }

lemma decodeDecline_eq : decodeDecline = decodeWith (both WireReader.u8 WireReader.text) judgeDecline := by
  funext body
  have hread : decodeDecline body =
      if !(both WireReader.u8 WireReader.text { mBytes := body }).2.complete then none
      else judgeDecline (both WireReader.u8 WireReader.text { mBytes := body }).1 := rfl
  rw [hread, decodeWith]
  cases (both WireReader.u8 WireReader.text { mBytes := body }).2.complete <;> rfl

lemma decline_codec {decline : Decline} (htext : decline.text.length ≤ 255) :
    Exact decodeDecline decline.encode decline := by
  rw [decodeDecline_eq]
  have hreads : Reads (both WireReader.u8 WireReader.text) decline.encode (decline.reason.toByte, decline.text) :=
    (reads_u8 _).both (reads_text htext)
  refine hreads.exact ?_
  obtain ⟨reason, text⟩ := decline
  cases reason <;> rfl

end NetLink.Session

namespace NetLink.Discovery

open Net (Text)
open Channel Session
open Channel.WireReader (both)

def readBeacon : FieldReader (ℕ × ℕ × ℕ × ℕ × UInt8 × Text × Bool) :=
  both WireReader.u64 (both WireReader.u64 (both WireReader.u16 (both WireReader.u16 (both WireReader.u8
    (both WireReader.text skipExt)))))

def judgeBeacon : ℕ × ℕ × ℕ × ℕ × UInt8 × Text × Bool → Option Beacon
  | (instanceId, appIdHash, verMajor, verMinor, flags, name, skipped) =>
    if (flags &&& ~~~BeaconReplyFlag) != 0 || !skipped || instanceId == 0 then none
    else some {
      instanceId := UInt64.ofNat instanceId
      appIdHash := UInt64.ofNat appIdHash
      version := { verMajor := UInt16.ofNat verMajor, verMinor := UInt16.ofNat verMinor }
      reply := (flags &&& BeaconReplyFlag) != 0
      name := name }

lemma decodeBeacon_eq (datagram : List UInt8) : decodeBeacon datagram =
    if !isBeacon datagram || datagram.length > MaxDatagramSize then none
    else decodeWith readBeacon judgeBeacon (datagram.drop BeaconPrefixSize) := by
  rcases h₁ : WireReader.u64 { mBytes := datagram.drop BeaconPrefixSize } with ⟨instanceId, r₁⟩
  rcases h₂ : r₁.u64 with ⟨appIdHash, r₂⟩
  rcases h₃ : r₂.u16 with ⟨verMajor, r₃⟩
  rcases h₄ : r₃.u16 with ⟨verMinor, r₄⟩
  rcases h₅ : r₄.u8 with ⟨flags, r₅⟩
  rcases h₆ : r₅.text with ⟨name, r₆⟩
  rcases h₇ : skipExt r₆ with ⟨skipped, r₇⟩
  simp only [decodeBeacon, decodeWith, readBeacon, both, h₁, h₂, h₃, h₄, h₅, h₆, h₇]
  cases r₇.complete <;> cases skipped <;> simp [judgeBeacon]

def beaconPrefix : List UInt8 :=
  writeUint16 ProtocolMagic ++ [ProtocolVersion, UInt8.ofNat PacketKind.beacon.toNat]

def Beacon.body (beacon : Beacon) : List UInt8 :=
  writeUint64 beacon.instanceId.toNat ++ (writeUint64 beacon.appIdHash.toNat ++
    (writeUint16 beacon.version.verMajor.toNat ++ (writeUint16 beacon.version.verMinor.toNat ++
      ([if beacon.reply then BeaconReplyFlag else 0] ++ writeText beacon.name))))

lemma encodeBeacon_eq (beacon : Beacon) : encodeBeacon beacon = beaconPrefix ++ (beacon.body ++ writeExt) := by
  simp only [encodeBeacon, beaconPrefix, Beacon.body, List.append_assoc]

lemma isBeacon_append (rest : List UInt8) : isBeacon (beaconPrefix ++ rest) = true := by
  have hlen : BeaconPrefixSize ≤ (beaconPrefix ++ rest).length := by
    rw [List.length_append]
    exact Nat.le_add_right 4 _
  have hmagic : readUint16 (beaconPrefix ++ rest) 0 = ProtocolMagic := by
    rw [beaconPrefix, List.append_assoc, readUint16_writeUint16]
    rfl
  rw [isBeacon, decide_eq_true hlen, hmagic]
  rfl

lemma decodeBeacon_append (rest : List UInt8) : decodeBeacon (beaconPrefix ++ rest) =
    if MaxDatagramSize < (beaconPrefix ++ rest).length then none else decodeWith readBeacon judgeBeacon rest := by
  have hdrop : (beaconPrefix ++ rest).drop BeaconPrefixSize = rest := rfl
  rw [decodeBeacon_eq, isBeacon_append, hdrop]
  simp

def Beacon.fields (beacon : Beacon) (ok : Bool) : ℕ × ℕ × ℕ × ℕ × UInt8 × Text × Bool :=
  (beacon.instanceId.toNat, beacon.appIdHash.toNat, beacon.version.verMajor.toNat, beacon.version.verMinor.toNat,
    if beacon.reply then BeaconReplyFlag else 0, beacon.name, ok)

variable {beacon : Beacon}

lemma reads_beacon (hname : beacon.name.length ≤ 255) {ext : List UInt8}
    (hext : ext.length < 2 ^ 16) :
    Reads readBeacon (replaceExt (beacon.body ++ writeExt) ext)
      (beacon.fields (skipFields (ext.length + 1) { mBytes := ext })) := by
  have htail := (reads_u8 (if beacon.reply then BeaconReplyFlag else 0)).both
    ((reads_text hname).both (reads_skipExt hext))
  have hversion := (reads_u16 beacon.version.verMajor.toNat_lt).both
    ((reads_u16 beacon.version.verMinor.toNat_lt).both htail)
  have hall := (reads_u64 beacon.instanceId.toNat_lt).both ((reads_u64 beacon.appIdHash.toNat_lt).both hversion)
  rw [replaceExt_append, Beacon.body, readBeacon, Beacon.fields]
  simp only [List.append_assoc]
  exact hall

lemma judgeBeacon_true (h : beacon.instanceId ≠ 0) :
    judgeBeacon (beacon.fields true) = some beacon := by
  have hne : beacon.instanceId.toNat ≠ 0 := fun h0 => h (UInt64.toNat_inj.mp h0)
  obtain ⟨instanceId, appIdHash, version, reply, name⟩ := beacon
  cases reply with
  | false => simp [judgeBeacon, Beacon.fields, hne]
  | true =>
    have hreply : BeaconReplyFlag ≠ 0 := by decide
    simp [judgeBeacon, Beacon.fields, hne, hreply]

lemma length_beacon_le (beacon : Beacon) :
    (beaconPrefix ++ (beacon.body ++ writeExt)).length ≤ MaxDatagramSize := by
  have htext := length_writeText_le beacon.name
  simp only [Beacon.body, List.length_append]
  change 4 + (8 + (8 + (2 + (2 + (1 + (writeText beacon.name).length)))) + 2) ≤ 1200
  omega

lemma replaceExt_beacon (beacon : Beacon) (ext : List UInt8) :
    replaceExt (encodeBeacon beacon) ext = beaconPrefix ++ replaceExt (beacon.body ++ writeExt) ext := by
  rw [encodeBeacon_eq, ← List.append_assoc, replaceExt_append, replaceExt_append, List.append_assoc]

lemma beacon_exact (h : beacon.instanceId ≠ 0) (hname : beacon.name.length ≤ 255) :
    Exact decodeBeacon (encodeBeacon beacon) beacon := by
  have hbody : Exact (decodeWith readBeacon judgeBeacon) (beacon.body ++ writeExt) beacon :=
    exact_of_reads (replaceExt_nil _) (fun _ => reads_beacon hname) (judgeBeacon_true h)
  rw [encodeBeacon_eq]
  refine ⟨?_, fun part hpart hne => ?_, fun extra => ?_⟩
  · rw [decodeBeacon_append, if_neg (not_lt.mpr (length_beacon_le beacon)), hbody.whole]
  · by_cases hlen : part.length < BeaconPrefixSize
    · rw [decodeBeacon_eq, isBeacon, decide_eq_false (not_le.mpr hlen)]
      rfl
    · obtain ⟨tail, rfl⟩ : beaconPrefix <+: part := by
        refine List.prefix_of_prefix_length_le (List.prefix_append ..) hpart (not_lt.mp hlen)
      have htail : tail <+: beacon.body ++ writeExt := (List.prefix_append_right_inj beaconPrefix).mp hpart
      rw [decodeBeacon_append, hbody.short tail htail fun he => hne (by rw [he])]
      split <;> rfl
  · rw [List.append_assoc, decodeBeacon_append, hbody.longer]
    split <;> rfl

lemma beacon_extensible (h : beacon.instanceId ≠ 0) (hname : beacon.name.length ≤ 255) :
    Extensible decodeBeacon (encodeBeacon beacon) beacon fun datagram => datagram.length ≤ MaxDatagramSize := by
  have hbody : Extensible (decodeWith readBeacon judgeBeacon) (beacon.body ++ writeExt) beacon fun _ => True :=
    extensible_of_reads (fun _ => reads_beacon hname) (judgeBeacon_true h) (by simp [judgeBeacon, Beacon.fields])
  refine ⟨fun ext hext hlen hfits => ?_, fun ext hext hlen => ?_⟩
  · rw [replaceExt_beacon] at hfits ⊢
    rw [decodeBeacon_append, if_neg (not_lt.mpr hfits), hbody.skips ext hext hlen trivial]
  · rw [replaceExt_beacon, decodeBeacon_append, hbody.rejects ext hext hlen]
    split <;> rfl

theorem message_codecs :
    (∀ beacon : Beacon, beacon.instanceId ≠ 0 → beacon.name.length ≤ 255 →
      Exact decodeBeacon (encodeBeacon beacon) beacon ∧
      Extensible decodeBeacon (encodeBeacon beacon) beacon fun datagram => datagram.length ≤ MaxDatagramSize) ∧
    (∀ hello : Hello, hello.fromInstance ≠ 0 → hello.name.length ≤ 255 →
      Exact decodeHello hello.encode hello ∧ Extensible decodeHello hello.encode hello fun _ => True) ∧
    (∀ accept : Accept, accept.name.length ≤ 255 →
      Exact decodeAccept accept.encode accept ∧ Extensible decodeAccept accept.encode accept fun _ => True) ∧
    (∀ decline : Decline, decline.text.length ≤ 255 → Exact decodeDecline decline.encode decline) ∧
    ∀ (ext : List UInt8) (rounds : ℕ), ext.length < rounds →
      skipFieldsChecked rounds { mBytes := ext } = some (skipFields (ext.length + 1) { mBytes := ext }) := by
  refine ⟨fun beacon h hname => ⟨beacon_exact h hname, beacon_extensible h hname⟩,
    fun hello h hname => hello_codec h hname, fun accept hname => accept_codec hname,
    fun decline htext => decline_codec htext, fun ext rounds hlt => ?_⟩
  obtain ⟨ok, hok, hiff⟩ := skipFieldsChecked_spec rounds ext hlt
  rw [hok, Option.some.injEq, Bool.eq_iff_iff, hiff, skipFields_iff]

/-- A Beacon and a Hello with a field of a later version, and a Hello whose field is cut off. -/
theorem message_codecs_extended :
    decodeBeacon (replaceExt (encodeBeacon { instanceId := 1, name := [65] }) [7, 2, 0, 0]) =
      some { instanceId := 1, name := [65] } ∧
    decodeHello (replaceExt ({ fromInstance := 1 } : Hello).encode [7, 2, 0, 0]) = some { fromInstance := 1 } ∧
    decodeHello (replaceExt ({ fromInstance := 1 } : Hello).encode [7, 2, 0]) = none ∧
    Exact decodeAccept ({ name := [65] } : Accept).encode { name := [65] } ∧
    Exact decodeDecline ({ text := [66] } : Decline).encode { text := [66] } ∧
    skipFieldsChecked 5 { mBytes := [7, 2, 0, 0] } = some true := by
  obtain ⟨hbeacon, hhello, haccept, hdecline, hskip⟩ := message_codecs
  have hwhole : WellFormedExt [7, 2, 0, 0] := ⟨[(7, [0, 0])], by decide, rfl⟩
  have hcut : ¬WellFormedExt [7, 2, 0] := by
    rw [wellFormedExt_cons]
    exact fun h => absurd h.1 (by decide)
  refine ⟨(hbeacon _ (by decide) (by decide)).2.skips _ hwhole (by decide) (by decide +kernel),
    (hhello _ (by decide) (by decide)).2.skips _ hwhole (by decide) trivial,
    (hhello _ (by decide) (by decide)).2.rejects _ hcut (by decide), (haccept _ (by decide)).1,
    hdecline _ (by decide), ?_⟩
  rw [hskip [7, 2, 0, 0] 5 (by decide), (skipFields_iff _).mpr hwhole]

end NetLink.Discovery
