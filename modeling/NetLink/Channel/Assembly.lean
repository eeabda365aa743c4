import NetLink.Channel.MessageAssembler
import NetLink.Channel.PacketFormat
import Mathlib.Data.List.Induction

/-! What an assembler makes of any packets: the parts of a message it returns follow each other, and the first one
has announced it. -/

namespace NetLink.Channel

lemma fragmentsOf_pos (length : ℕ) : 0 < fragmentsOf length := by
  unfold fragmentsOf
  split
  · exact Nat.one_pos
  · simp only [MaxFragmentBody, MaxDatagramSize, MaxHeaderSize, BaseHeaderSize, FragmentExtensionSize,
      TagExtensionSize, LengthExtensionSize]
    omega

lemma le_fragmentsOf_mul (length : ℕ) : length ≤ fragmentsOf length * MaxFragmentBody := by
  unfold fragmentsOf
  split
  · omega
  · simp only [MaxFragmentBody, MaxDatagramSize, MaxHeaderSize, BaseHeaderSize, FragmentExtensionSize,
      TagExtensionSize, LengthExtensionSize]
    omega

lemma mul_lt_of_lt_fragmentsOf {n i : ℕ} (hi : i < fragmentsOf n) (hp : 0 < i) :
    i * MaxFragmentBody < n := by
  unfold fragmentsOf at hi
  split at hi
  · omega
  · simp only [MaxFragmentBody, MaxDatagramSize, MaxHeaderSize, BaseHeaderSize, FragmentExtensionSize,
      TagExtensionSize, LengthExtensionSize] at hi ⊢
    omega

lemma fragmentsOf_lt {length : ℕ} (h : length ≤ MaxMessagePayload) : fragmentsOf length < 2 ^ 16 := by
  unfold fragmentsOf
  simp only [MaxMessagePayload] at h
  split
  · omega
  · simp only [MaxFragmentBody, MaxDatagramSize, MaxHeaderSize, BaseHeaderSize, FragmentExtensionSize,
      TagExtensionSize, LengthExtensionSize]
    omega

structure Packet.OnStream (p : Packet) : Prop where
  accepted : p.Accepted
  data : p.header.flags.kind = .data
  lane : p.header.flags.lane ≠ .media

lemma Packet.Accepted.wellFormed {p : Packet} (h : p.Accepted) :
    p.header.WellFormed ∧ isBodySizeValid p.header p.body.length = true := by
  obtain ⟨bytes, h⟩ := h
  obtain ⟨-, hw, -, -, hb⟩ := decodePacket_spec h
  exact ⟨hw, hb⟩

lemma decodePacket_data {h : PacketHeader} {body : List UInt8} (hw : h.WellFormed) (hwire : h.onWire = h)
    (hs : h.seq < 2 ^ 64) (hk : h.flags.kind = .data) (hbody : isBodySizeValid h body.length = true)
    (hsize : h.encodedSize + body.length ≤ MaxDatagramSize) :
    decodePacket (encodePacket h body) = some { header := h, body := body } := by
  have hlen : (encodePacket h body).length ≤ MaxDatagramSize := by
    rw [encodePacket, List.length_append, length_encodeHeader]
    exact hsize
  rw [decodePacket, if_neg (not_lt.mpr hlen), decodeHeader_encodePacket hw hwire hs, Option.bind_eq_bind,
    Option.bind_some]
  dsimp only
  rw [hbody, hk]
  rfl

namespace MessageAssembler

def Indexed (parts : List Packet) (count : ℕ) : Prop :=
  ∀ (i : ℕ) (p : Packet), parts[i]? = some p →
    p.header.flags.isFragmented = true ∧ p.header.fragIndex = i ∧ p.header.fragCount = count

def Announced (parts : List Packet) (tag : UInt32) (length : ℕ) : Prop :=
  ∃ p, parts.head? = some p ∧ p.header.tag = tag ∧ p.header.totalLength = length

structure Building (parts : List Packet) (a : MessageAssembler) : Prop where
  assembling : a.mAssembling = true
  next : a.mNextIndex = parts.length
  more : parts.length < a.mFragCount
  count : fragmentsOf a.mTotalLength = a.mFragCount
  body : a.mBody = parts.flatMap (·.body)
  full : a.mBody.length = parts.length * MaxFragmentBody
  indexed : Indexed parts a.mFragCount

structure Makes (parts : List Packet) (message : AssembledMessage) : Prop where
  indexed : Indexed parts parts.length
  body : message.body = parts.flatMap (·.body)
  announced : Announced parts message.tag message.body.length

variable {a : MessageAssembler} {parts : List Packet} {p : Packet}

lemma Building.length_le (h : Building parts a) : a.mBody.length ≤ a.mTotalLength := by
  have hmore := h.more
  rw [← h.count] at hmore
  rw [h.full]
  rcases Nat.eq_zero_or_pos parts.length with hz | hp
  · rw [hz, Nat.zero_mul]
    exact Nat.zero_le _
  · exact (mul_lt_of_lt_fragmentsOf hmore hp).le

lemma Indexed.concat {count : ℕ} (h : Indexed parts count) (hf : p.header.flags.isFragmented = true)
    (hi : p.header.fragIndex = parts.length) (hc : p.header.fragCount = count) : Indexed (parts ++ [p]) count := by
  intro i q hq
  rcases lt_trichotomy i parts.length with hlt | rfl | hgt
  · rw [List.getElem?_append_left hlt] at hq
    exact h i q hq
  · rw [List.getElem?_concat_length, Option.some.injEq] at hq
    subst hq
    exact ⟨hf, hi, hc⟩
  · rw [List.getElem?_eq_none (by rw [List.length_append, List.length_singleton]; omega)] at hq
    cases hq

lemma Building.append (h : Building parts a) (budget : Option AssemblyBudget) (hp : p.header.WellFormed)
    (hf : p.header.flags.isFragmented = true) (ha : Announced (parts ++ [p]) a.mTag a.mTotalLength) :
    (a.append budget p.header p.body).1 = {} ∧ (a.append budget p.header p.body).2.2 = none ∨
      Building (parts ++ [p]) (a.append budget p.header p.body).1 ∧
        (a.append budget p.header p.body).1.mTag = a.mTag ∧
        (a.append budget p.header p.body).1.mTotalLength = a.mTotalLength ∧
          (a.append budget p.header p.body).2.2 = none ∨
      (a.append budget p.header p.body).1 = {} ∧
        ∃ message, (a.append budget p.header p.body).2.2 = some message ∧ Makes (parts ++ [p]) message := by
  rw [MessageAssembler.append]
  split
  · exact .inl ⟨rfl, rfl⟩
  next hnext =>
  dsimp only
  generalize hexpected : (if p.header.flags.isLastFragment = true then a.mTotalLength - a.mBody.length
    else MaxFragmentBody) = expected
  split
  · exact .inl ⟨rfl, rfl⟩
  next hlen =>
  simp only [Bool.or_eq_true, Bool.not_eq_true', bne_iff_ne, ne_eq, not_or, not_not] at hnext hlen
  obtain ⟨⟨-, hcount⟩, hindex⟩ := hnext
  rw [h.next] at hindex
  have hlast := (hp.fragments hf).2.2
  have hle := h.length_le
  have hbody : a.mBody ++ p.body = (parts ++ [p]).flatMap (·.body) := by
    rw [List.flatMap_append, List.flatMap_singleton, h.body]
  have hindexed : Indexed (parts ++ [p]) a.mFragCount := h.indexed.concat hf hindex hcount
  have hsize : (parts ++ [p]).length = parts.length + 1 := List.length_append
  rw [hlast, hindex, hcount] at hexpected
  have hmore := h.more
  split
  · -- more fragments are to come, so this one was full
    next hgo =>
    rw [h.next] at hgo
    have hfull : p.body.length = MaxFragmentBody := by
      rw [hlen, ← hexpected, if_neg]
      rw [beq_iff_eq]
      omega
    refine .inr (.inl ⟨⟨h.assembling, ?_, ?_, h.count, hbody, ?_, hindexed⟩, rfl, rfl, rfl⟩)
    · rw [hsize]
      exact congrArg (· + 1) h.next
    · rw [hsize]
      exact hgo
    · rw [List.length_append, h.full, hfull, hsize, Nat.add_mul, Nat.one_mul]
  · -- the last one brings what is missing to the announced length
    next hdone =>
    rw [h.next] at hdone
    have hend : parts.length + 1 = a.mFragCount := by omega
    have hrest : p.body.length = a.mTotalLength - a.mBody.length := by
      rw [hlen, ← hexpected, if_pos]
      rw [beq_iff_eq]
      exact hend
    have htotal : (a.mBody ++ p.body).length = a.mTotalLength := by
      rw [List.length_append, hrest]
      omega
    refine .inr (.inr ⟨rfl, ⟨a.mTag, a.mBody ++ p.body⟩, rfl, ?_, hbody, ?_⟩)
    · rw [hsize, hend]
      exact hindexed
    · rw [htotal]
      exact ha

def Traces (fed : List Packet) (a : MessageAssembler) : Prop :=
  a.mAssembling = true →
    ∃ front parts, fed = front ++ parts ∧ Building parts a ∧ Announced parts a.mTag a.mTotalLength

def MadeFrom (fed : List Packet) (message : AssembledMessage) : Prop := ∃ front parts, fed = front ++ parts ∧
    Makes parts message

lemma traces_idle (fed : List Packet) : Traces fed {} := nofun

lemma Building.append_traces (h : Building parts a) (front : List Packet) (budget : Option AssemblyBudget)
    (hp : p.header.WellFormed) (hf : p.header.flags.isFragmented = true)
    (ha : Announced (parts ++ [p]) a.mTag a.mTotalLength) :
    Traces (front ++ parts ++ [p]) (a.append budget p.header p.body).1 ∧
      ∀ message, (a.append budget p.header p.body).2.2 = some message →
        MadeFrom (front ++ parts ++ [p]) message := by
  rcases h.append budget hp hf ha with ⟨he, hn⟩ | ⟨hb, htag, htotal, hn⟩ | ⟨he, message, hs, hm⟩
  · rw [he, hn]
    exact ⟨traces_idle _, nofun⟩
  · refine ⟨fun _ => ⟨front, parts ++ [p], List.append_assoc _ _ _, hb, ?_⟩, ?_⟩
    · rw [htag, htotal]
      exact ha
    · rw [hn]
      exact nofun
  · rw [he, hs]
    refine ⟨traces_idle _, fun m hm' => ⟨front, parts ++ [p], List.append_assoc _ _ _, ?_⟩⟩
    rw [← Option.some.inj hm']
    exact hm

lemma append_idle (budget : Option AssemblyBudget) (p : Packet) (ha : a.mAssembling = false) :
    (a.append budget p.header p.body).1 = {} ∧ (a.append budget p.header p.body).2.2 = none := by
  rw [append, ha]
  exact ⟨rfl, rfl⟩

lemma Announced.concat {tag : UInt32} {length : ℕ} (h : Announced parts tag length) (p : Packet) :
    Announced (parts ++ [p]) tag length := by
  obtain ⟨q, hq, hm⟩ := h
  refine ⟨q, ?_, hm⟩
  rw [List.head?_append, hq]
  rfl

lemma Traces.accept {fed : List Packet} (h : Traces fed a) (budget : Option AssemblyBudget)
    (hp : p.header.WellFormed) :
    Traces (fed ++ [p]) (a.accept budget p.header p.body).1 ∧ (p.header.flags.isFragmented = true →
      ∀ message, (a.accept budget p.header p.body).2.2 = some message → MadeFrom (fed ++ [p]) message) := by
  rw [MessageAssembler.accept]
  split
  · next hf =>
    rw [Bool.not_eq_true'] at hf
    refine ⟨traces_idle _, fun ht => ?_⟩
    rw [hf] at ht
    cases ht
  next hf =>
  rw [Bool.not_eq_true', Bool.not_eq_false] at hf
  split
  · -- a first fragment starts anew, whatever there was
    split
    · exact ⟨traces_idle _, nofun⟩
    next hlength =>
    rw [not_or, not_lt, not_not] at hlength
    split
    · exact ⟨traces_idle _, nofun⟩
    · next budget _ =>
      have hfresh : Building [] { mAssembling := true, mFragCount := p.header.fragCount, mTag := p.header.tag,
                                  mTotalLength := p.header.totalLength } := by
        refine ⟨rfl, rfl, ?_, hlength.2, rfl, rfl, nofun⟩
        rw [← hlength.2]
        exact fragmentsOf_pos _
      have hstep := hfresh.append_traces fed budget hp hf ⟨p, rfl, rfl, rfl⟩
      rw [List.append_nil] at hstep
      exact ⟨hstep.1, fun _ => hstep.2⟩
  · cases ha : a.mAssembling with
    | false =>
      obtain ⟨he, hn⟩ := append_idle budget p ha
      rw [he, hn]
      exact ⟨traces_idle _, nofun⟩
    | true =>
      obtain ⟨front, parts, rfl, hb, hann⟩ := h ha
      have hstep := hb.append_traces front budget hp hf (hann.concat p)
      exact ⟨hstep.1, fun _ => hstep.2⟩

def fedWith (fed : List (Option AssemblyBudget × Packet)) : MessageAssembler :=
  fed.foldl (fun a x => (a.accept x.1 x.2.header x.2.body).1) {}

lemma traces_fedWith {fed : List (Option AssemblyBudget × Packet)} (hfed : ∀ x ∈ fed, x.2.OnStream) :
    Traces (fed.map Prod.snd) (fedWith fed) := by
  induction fed using List.reverseRecOn with
  | nil => exact traces_idle _
  | append_singleton fed x ih =>
    have hx : x.2.OnStream := hfed x (by simp)
    have hfed : ∀ y ∈ fed, y.2.OnStream := fun y hy => hfed y (by simp [hy])
    rw [fedWith, List.foldl_append, List.map_append]
    exact ((ih hfed).accept x.1 hx.accepted.wellFormed.1).1

theorem delivers_announced (fed : List (Option AssemblyBudget × Packet)) (hfed : ∀ x ∈ fed, x.2.OnStream) :
    ((fedWith fed).mAssembling = true → (fedWith fed).mBody.length = (fedWith fed).mNextIndex * MaxFragmentBody ∧
      (fedWith fed).mBody.length ≤ (fedWith fed).mTotalLength) ∧
    ∀ (budget : Option AssemblyBudget) (p : Packet) (message : AssembledMessage), p.OnStream →
      ((fedWith fed).accept budget p.header p.body).2.2 = some message → p.header.flags.isFragmented = true →
        MadeFrom (fed.map Prod.snd ++ [p]) message := by
  have htraces := traces_fedWith hfed
  refine ⟨fun ha => ?_, fun budget p message hp hm hf => ?_⟩
  · obtain ⟨-, parts, -, hb, -⟩ := htraces ha
    rw [hb.next]
    exact ⟨hb.full, hb.length_le⟩
  · exact (htraces.accept budget hp.accepted.wellFormed.1).2 hf message hm

def secondFragment : PacketHeader where
  flags := (PacketFlags.data .bulk).setFragment true true
  srcStreamID := 7
  seq := 2
  fragIndex := 1
  fragCount := 2

lemma onStream_first : Packet.OnStream { header := firstFragment, body := List.replicate MaxFragmentBody 0 } := by
  refine ⟨⟨_, decodePacket_data ⟨⟨?_, ?_, ?_, ?_, ?_⟩, ?_, ?_⟩ ?_ ?_ ?_ ?_ ?_⟩, ?_, ?_⟩ <;>
    first
    | rw [List.length_replicate]
      decide
    | decide

lemma onStream_second : Packet.OnStream { header := secondFragment, body := [9] } := by
  refine ⟨⟨_, decodePacket_data ⟨⟨?_, ?_, ?_, ?_, ?_⟩, ?_, ?_⟩ ?_ ?_ ?_ ?_ ?_⟩, ?_, ?_⟩ <;> decide

theorem delivers_announced_pair : MadeFrom [{ header := firstFragment, body := List.replicate MaxFragmentBody 0 },
    { header := secondFragment, body := [9] }] ⟨5, List.replicate MaxFragmentBody 0 ++ [9]⟩ := by
  refine (delivers_announced [(none, { header := firstFragment, body := List.replicate MaxFragmentBody 0 })] ?_).2
    none
    { header := secondFragment, body := [9] } _ onStream_second (by decide +kernel) (by decide)
  intro x hx
  rw [List.mem_singleton.mp hx]
  exact onStream_first

end MessageAssembler

end NetLink.Channel
