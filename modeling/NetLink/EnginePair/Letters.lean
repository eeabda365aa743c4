import NetLink.Channel.LinkPair.Acks
import NetLink.Channel.PacketFormat
import NetLink.Discovery.MessageCodecs
import NetLink.Engine.Links

/-! What the packets an engine put on the wire tell about it: the link they come from, the link they are for, and
the Hello a link starts with. -/

namespace NetLink.Channel

open Session (ControlType)

section Bytes

variable {p q : Packet}

lemma encodePacket_whole {h : PacketHeader} {body : List UInt8} (hk : h.flags.kind = .data)
    (hf : h.flags.isFragmented = false) :
    encodePacket h body = h.baseBytes ++ (writeUint32 h.tag.toNat ++ body) := by
  rw [encodePacket, encodeHeader_eq]
  simp [PacketHeader.fragmentBytes, PacketHeader.tagBytes, PacketHeader.lengthBytes, PacketHeader.startsMessage,
    PacketHeader.startsFragmentedMessage, hk, hf]

lemma content_of_decode (h : decodePacket p.bytes = some q) (hk : q.header.flags.kind = .data)
    (hf : q.header.flags.isFragmented = false) : q.header.tag = p.header.tag ∧ q.body = p.body := by
  have hflags := flags_of_decode h
  have hbytes := encodePacket_of_decode h
  rw [encodePacket_whole hk hf, encodePacket_whole (hflags ▸ hk) (hflags ▸ hf)] at hbytes
  obtain ⟨-, hrest⟩ := List.append_inj hbytes rfl
  obtain ⟨htag, hbody⟩ := List.append_inj hrest rfl
  refine ⟨UInt32.toNat_inj.mp ?_, hbody⟩
  have hread := congrArg (fun bytes => readUint32 (bytes ++ []) 0) htag
  simpa only [readUint32_writeUint32, Nat.mod_eq_of_lt (UInt32.toNat_lt _)] using hread

end Bytes

namespace Host

variable {source : Lane → OutboundMessage → Prop} {incoming : Packet → Prop} {h : Host} {lane : Lane}

lemma sendContent (hl : lane ≠ .media) (hs : ∀ m, source lane m → m.body.length ≤ MaxMessagePayload)
    (hr : (system source incoming).Reachable h) (hf : h.link.mFailed = false) :
      SendContent (h.view.lane lane) := by
  have hall := hr.invariant (P := fun h => h.link.mFailed = false → SendContent (h.view.lane lane)) ?_ ?_
  · exact hall hf
  · rintro h ⟨timings, id, budget, rfl⟩ -
    exact .fresh
  · intro h h' hr ih ht hf
    rcases run_of_step ht (sound hr).offers with hfail | hrun
    · rw [hfail] at hf
      cases hf
    · have hinv := hrun.invariant (P := fun v => ViewInv v ∧ SendContent (v.lane lane))
        (fun v w hv hm => ⟨hv.1.move hm, hv.2.move hs (LinkView.lane_move hl hv.1 hm)⟩)
        ⟨(sound hr).view, ih (hrun.failed.symm.trans hf)⟩
      exact hinv.2

def Busy (v : LaneView) : Prop :=
  v.taken ≠ [] → v.stream.cursor.isSome ∨ ∃ seq, (v.stream.inFlight.find seq).isSome

lemma isSome_of_core {b b' : SequenceBuffer InFlight} {seq : ℕ}
    (h : (b'.find seq).map InFlight.core = (b.find seq).map InFlight.core) (hs : (b.find seq).isSome) :
    (b'.find seq).isSome := by
  rw [← Option.isSome_map (f := InFlight.core), h, Option.isSome_map]
  exact hs

lemma Busy.move {f : Feed} {v w : LaneView} (ha : ∀ seq, ¬f.acked lane seq) (h : Busy v)
    (hm : LaneMove f lane v w) :
    Busy w := by
  cases hm with
  | adjust t ht =>
    intro hne
    rcases h hne with hc | ⟨seq, hs⟩
    · exact .inl (by rwa [ht.cursor])
    · exact .inr ⟨seq, isSome_of_core (ht.inFlight seq) hs⟩
  | take m hs hc => exact fun _ => .inl rfl
  | recv ms t hm =>
    have ht : t.cursor = v.stream.cursor ∧ t.inFlight = v.stream.inFlight := by
      cases hm <;> exact ⟨rfl, rfl⟩
    intro hne
    simpa only [ht.1, ht.2] using h hne
  | transmit c t hc ht hn hf hr =>
    refine fun _ => .inr ⟨v.stream.nextSendSeq, ?_⟩
    rw [← Option.isSome_map (f := InFlight.core), hf, if_pos rfl]
    rfl
  | release seq e t hacked => exact absurd hacked (ha seq)

lemma busy_of_unacknowledged (hl : lane ≠ .media) (hi : ∀ p, incoming p → p.header.flags.kind ≠ .ack)
    (hr : (system source incoming).Reachable h) (hf : h.link.mFailed = false) : Busy (h.view.lane lane) := by
  have hacked : ∀ seq, ¬(feed source incoming).acked lane seq := by
    rintro seq ⟨p, hp, ha⟩
    exact hi p hp ha.1
  have hall := hr.invariant (P := fun h => h.link.mFailed = false → Busy (h.view.lane lane)) ?_ ?_
  · exact hall hf
  · rintro h ⟨timings, id, budget, rfl⟩ - hne
    exact absurd rfl hne
  · intro h h' hr ih ht hf
    rcases run_of_step ht (sound hr).offers with hfail | hrun
    · rw [hfail] at hf
      cases hf
    · have hinv := hrun.invariant (P := fun v => ViewInv v ∧ Busy (v.lane lane))
        (fun v w hv hm => ⟨hv.1.move hm, hv.2.move hacked (LinkView.lane_move hl hv.1 hm)⟩)
        ⟨(sound hr).view, ih (hrun.failed.symm.trans hf)⟩
      exact hinv.2

end Host

end NetLink.Channel

namespace NetLink.Channel

lemma message_of_genuine {taken : List OutboundMessage} {header : PacketHeader} {body : List UInt8}
    (hfit : ∀ m ∈ taken, m.body.length ≤ MaxMessagePayload) (h : Genuine taken header body)
    (hf : header.flags.isFragmented = false) : ∃ m ∈ taken, header.tag = m.tag ∧ body = m.body := by
  obtain ⟨e, he, hc⟩ := h
  obtain ⟨m, hm, hem⟩ := List.mem_flatMap.mp (List.mem_of_getElem? he)
  obtain ⟨i, hi, rfl⟩ := List.mem_map.mp hem
  have hi := List.mem_range.mp hi
  have hone : ¬1 < fragmentsOf m.body.length := by
    have hsingle := hc.fragmented
    rw [hf, fragmentAt_cursor (hfit m hm) hi] at hsingle
    simpa using hsingle
  obtain rfl : i = 0 := by omega
  exact ⟨m, hm, (hc.whole (hfit m hm) hone).2⟩

lemma not_busy_of_settled {h : Host} {lane : Lane} (hl : lane ≠ .media) (hi : ViewInv h.view)
    (hp : h.link.hasPending lane = false) (hb : Host.Busy (h.view.lane lane)) : h.taken lane = [] := by
  by_contra hne
  obtain ⟨hnone, hcursor⟩ := LinkPair.of_not_hasPending hl (hi.send lane).wf hp
  rcases hb hne with hc | ⟨seq, hs⟩
  · have hc : (h.link.streamFor lane).cursor.isSome := hc
    rw [hcursor] at hc
    cases hc
  · have hs : (h.link.streamFor lane).inFlight.contains seq = true := hs
    rw [hnone seq] at hs
    cases hs

end NetLink.Channel

namespace NetLink.NetworkEngine

open Channel (ReliableLink OutboundMessage Packet Host decodePacket MaxMessagePayload)
open Session (ControlType)

namespace Serves

variable {incoming : Packet → Prop} {queued : List OutboundMessage} {l : ReliableLink} {s : SessionView}
  {lane : Channel.Lane} {next : Option OutboundMessage} {p q : Packet}

lemma answered (h : Serves incoming queued l []) (hq : queued ≠ []) (hp : l.hasPending .control = false)
    (hf : l.mFailed = false) : ∃ p, incoming p ∧ p.header.flags.kind = .ack := by
  obtain ⟨-, host, hr, rfl, ht⟩ := h
  by_contra hnone
  have hsilent : ∀ p, incoming p → p.header.flags.kind ≠ .ack := fun p hp hk => hnone ⟨p, hp, hk⟩
  have hbusy := Host.busy_of_unacknowledged (show Channel.Lane.control ≠ .media by decide) hsilent hr hf
  have hnil := Channel.not_busy_of_settled (by decide) (Host.sound hr).view hp hbusy
  rw [List.append_nil] at ht
  exact hq (ht.symm.trans hnil)

lemma first (h : Serves incoming queued s.link s.control) (hn : s.Supplies lane next)
    (hp : (s.link.peek Host.single lane next).1 = some p) (hd : decodePacket p.bytes = some q)
    (hf : isFirstPacket q = true) : ∃ m ∈ queued, m.tag = ControlType.hello.tag ∧ m.body = q.body := by
  simp only [isFirstPacket, Bool.and_eq_true, beq_iff_eq, Bool.not_eq_true'] at hf
  obtain ⟨⟨⟨⟨hk, hlane⟩, -⟩, hwhole⟩, htag⟩ := hf
  obtain ⟨host, hr, hl, ht, ho⟩ := h.exists_peeked hn
  have hpeeked : host.link.mPeeked = p := by
    rw [hl]
    exact ReliableLink.mPeeked_peek hp
  rw [hp] at ho
  have hoffers := (Host.sound hr).offers lane ho
  have hcontent := Host.sendContent (show Channel.Lane.control ≠ .media by decide) (fun m hm =>
    hm rfl) hr hoffers.1
  have hflags := Channel.flags_of_decode hd
  have hgenuine := Channel.LinkPair.genuine_of_offers (show Channel.Lane.control ≠ .media by decide)
    hoffers hcontent
    (by rw [hpeeked, ← hflags, hlane])
  have hqueued : ∀ m ∈ host.taken .control, m ∈ queued := fun m hm => ht ▸ List.mem_append_left _ hm
  rw [hpeeked] at hgenuine
  obtain ⟨m, hm, hmt, hmb⟩ :=
    Channel.message_of_genuine (fun m hm => h.1 m (hqueued m hm)) hgenuine (hflags ▸ hwhole)
  obtain ⟨htag', hbody⟩ := Channel.content_of_decode hd hk hwhole
  exact ⟨m, hqueued m hm, by rw [← hmt, ← htag', htag], by rw [← hmb, ← hbody]⟩

end Serves

lemma instances_of_decodeHello {sent received : Session.Hello}
    (h : Session.decodeHello sent.encode = some received) :
    received.fromInstance = sent.fromInstance ∧ received.toInstance = sent.toInstance := by
  have hfrom := (Channel.reads_u64 sent.fromInstance.toNat_lt).whole
  have hto := (Channel.reads_u64 sent.toInstance.toNat_lt).whole
  simp only [Session.decodeHello, Session.Hello.encode, List.append_assoc, hfrom, hto] at h
  split at h
  · cases h
  · obtain rfl := Option.some.inj h
    exact ⟨UInt64.ofNat_toNat, UInt64.ofNat_toNat⟩

end NetLink.NetworkEngine
