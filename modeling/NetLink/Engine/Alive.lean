import NetLink.Channel.ReliableLink.Aside
import NetLink.Engine.Records

/-! A link that was given up ends its session in the same step. -/

namespace NetLink.Channel.ReliableLink

variable {l : ReliableLink} {lane : Lane}

lemma failed_makeAck : (l.makeAck lane).2.mFailed = l.mFailed := by
  rw [makeAck]
  dsimp only
  split
  · next hs =>
    obtain ⟨s, ms, budget, stats, due, -, hr⟩ := retryRefused_received (p := fun _ _ => True) hs
    rw [hr]
    rfl
  · rfl

lemma failed_fillAcks : l.fillAcks.mFailed = l.mFailed := by
  rw [fillAcks]
  generalize StreamLanes = lanes
  induction lanes generalizing l with
  | nil => rfl
  | cons lane lanes ih =>
    have hping : ((l.fillAck lane).fillPing lane).mFailed = (l.fillAck lane).mFailed := by
      rw [fillPing]
      split <;> rfl
    rw [List.foldl_cons, ih, hping, fillAck]
    split
    · exact failed_makeAck
    · rfl

lemma failed_peekAck : l.peekAck.2.mFailed = l.mFailed := by
  rw [peekAck]
  split
  · rfl
  dsimp only
  split
  · exact failed_fillAcks
  · rfl

end NetLink.Channel.ReliableLink

namespace NetLink.NetworkEngine

open Channel (TimePoint ReliableLink)

variable {T : Terms} {k : Stage} {e e' : NetworkEngine} {j : PeerId}

def AliveAt (e : NetworkEngine) (j : PeerId) : Prop := ∀ p, e.find j = some p → p.ended = false →
    p.link.mFailed = false

lemma AliveAt.of_find (h : e.AliveAt j) (hf : e'.find j = e.find j) : e'.AliveAt j := fun p hp => h p (hf ▸ hp)

lemma AliveAt.of_some {p : Peer} (hf : e.find j = some p) (hp : p.ended = false → p.link.mFailed = false) :
    e.AliveAt j := by
  intro q hq
  obtain rfl := Option.some.inj (hf.symm.trans hq)
  exact hp

lemma AliveAt.of_none (hf : e.find j = none) : e.AliveAt j := fun p hp => by simp [hf] at hp

lemma failed_attends {f : ReliableLink → ReliableLink} (hf : Attends f) (l : ReliableLink) :
    (f l).mFailed = l.mFailed := by
  cases hf with
  | takeDelivered => rfl
  | peekAck => exact ReliableLink.failed_peekAck
  | commitAck => rfl

lemma failed_newLink (e : NetworkEngine) (now : TimePoint) : (e.newLink now).mFailed = false := by
  rw [newLink]
  cases e.mPaused <;> rfl

lemma Peer.Fresh.alive {p : Peer} {now : TimePoint} (h : p.Fresh e now) : p.link.mFailed = false := by
  obtain ⟨budget, hl⟩ := h.link
  rw [hl]
  exact failed_newLink e now

lemma aside_offering (e : NetworkEngine) (id : PeerId) (p : Peer) (lane : Channel.Lane) :
    (e.offering id p lane).link.aside = (e.lend p).aside := by
  have ha : ((e.lend p).peek Channel.Host.single lane (e.supply id lane)).2.1.aside = (e.lend p).aside :=
    ReliableLink.aside_peek _ _
  exact ha

lemma failed_offering {p : Peer} (lane : Channel.Lane) : (e.offering j p lane).link.mFailed = p.link.mFailed :=
  congrArg ReliableLink.Aside.failed (aside_offering e j p lane)

lemma failed_commit (l : ReliableLink) (lane : Channel.Lane) (now : TimePoint) :
    (l.commit lane now).mFailed = l.mFailed := by
  obtain ⟨n, sent, resent, hn⟩ := ReliableLink.aside_commit l lane now
  exact congrArg ReliableLink.Aside.failed hn

lemma Act.alive (h : Act T k (some j) e e') (ha : e.AliveAt j) : e'.AliveAt j ∨ k = .collect ∧
    j ∈ e'.mTouched := by
  have htouched : ∀ e : NetworkEngine, j ∈ (e.touch j).mTouched := by simp [touch]
  cases hf : e.find j with
  | none =>
    rcases h.of_none hf with hn | ⟨-, now, -, ⟨p, hp, hfresh, -⟩, -⟩
    · exact .inl (.of_none hn.find)
    · exact .inl (.of_some hp fun _ => hfresh.alive)
  | some p =>
    have hp := ha p hf
    cases h with
    | report _ _ reason => exact .inl (.of_some (find_report e hf reason) hp)
    | note _ _ f hn =>
      refine .inl (.of_some (find_modified e hf f) ?_)
      have hv := hn.view p
      have hl : (f p).link = p.link := congrArg SessionView.link hv
      have he : (f p).ended = p.ended := congrArg SessionView.ended hv
      rwa [hl, he]
    | sendDecline _ _ q now => exact .inl (.of_some (find_sendDecline e hf now) hp)
    | sendClose _ _ q now =>
      refine .inl (.of_some (find_sendClose e hf now) ?_)
      split
      · intro he
        simp at he
      · exact hp
    | erase => exact .inl (.of_none (find_erase e))
    | sendAccept => exact .inl (.of_some (find_sendAccept e hf) hp)
    | drain => exact .inl (.of_some (find_modified e hf _) hp)
    | openSession _ _ now h => simp [h] at hf
    | admitPeer _ origin hello crossing now h => simp [h] at hf
    | pause => exact .inr ⟨rfl, htouched _⟩
    | timer => exact .inr ⟨rfl, htouched _⟩
    | packet => exact .inr ⟨rfl, htouched _⟩
    | overtaken => exact .inr ⟨rfl, htouched _⟩
    | ready => exact .inr ⟨rfl, htouched _⟩
    | endPeer => exact .inl (.of_some (find_endPeer e hf) (by simp))
    | call _ _ f hc => exact .inl (.of_some (find_onLink e hf f) (by rwa [failed_attends hc]))
    | setConnected => exact .inl (.of_some (find_setConnected e hf) hp)
    | settle => exact .inl (.of_some hf hp)
    | peek _ _ lane => exact .inl (.of_some (find_peek e hf lane) (by rwa [Peer.peeked, failed_offering]))
    | schedule _ _ lane =>
      have hadded : find { e with mScheduler := e.mScheduler.add lane j } j = some p := hf
      exact .inl (.of_some (find_setScheduled _ hadded lane true) hp)
    | sendOne _ now lane =>
      refine .inl (.of_some (find_sendOne e hf now lane) ?_)
      split
      · rwa [Peer.peeked, failed_offering]
      · rwa [Peer.peeked, failed_offering]
      · rwa [Peer.committed, Peer.peeked, failed_commit, failed_offering]
      · rwa [Peer.committed, Peer.peeked, failed_commit, failed_offering]

lemma Acts.alive (h : Acts T k e e') (hk : k ≠ .collect) (ha : e.AliveAt j) : e'.AliveAt j := by
  refine h.invariant (P := fun e => e.AliveAt j) (fun e e' who ha h => ?_) ha
  by_cases hj : who = some j
  · subst hj
    exact (h.alive ha).resolve_right fun hc => hk hc.1
  · rcases h.elsewhere hj with he | hg
    · exact ha.of_find he.find
    · exact .of_none hg.find

variable (e)

lemma alive_collect (world : World) (now : TimePoint) (hs : Sound e.view) (ha : e.Alive) (j : PeerId) :
    (e.collect world now).AliveAt j ∨ j ∈ (e.collect world now).mTouched := by
  have hacts : Acts .all .collect (e.beginStep world) (e.collect world now) :=
    acts_collect e world now hs
  refine hacts.invariant (P := fun e => ∀ j, e.AliveAt j ∨ j ∈ e.mTouched) (fun e e' who ha h j => ?_)
    (fun j => .inl (ha j)) j
  rcases ha j with ha | ht
  · by_cases hj : who = some j
    · subst hj
      rcases h.alive ha with ha | ⟨-, ht⟩
      · exact .inl ha
      · exact .inr ht
    · rcases h.elsewhere hj with he | hg
      · exact .inl (ha.of_find he.find)
      · exact .inl (.of_none hg.find)
  · exact .inr (h.touched j ht)

lemma alive_advance (now : TimePoint) : (e.advance j now).AliveAt j := by
  cases hf : e.find j with
  | none =>
    rw [advance, hf]
    exact .of_none hf
  | some p =>
    by_cases he : p.ended = true
    · refine (acts_advance (T := .all) e trivial now).alive (by decide) (.of_some hf ?_)
      simp [he]
    by_cases hl : p.link.mFailed = true
    · simp only [advance, hf, he, hl, if_true]
      exact .of_some (find_finish e hf .lost) (by simp)
    · refine (acts_advance (T := .all) e trivial now).alive (by decide) (.of_some hf fun _ => ?_)
      simpa using hl

lemma alive_serve (now : TimePoint) : (serve now e j).AliveAt j := by
  have hserved : ((e.advance j now).sendAcks j).AliveAt j :=
    (acts_sendAcks (T := .all) (e.advance j now) trivial).alive (by decide) (alive_advance e now)
  rw [serve]
  split
  · next hn => exact .of_none (by simpa using hn)
  · dsimp only
    split
    · exact (Acts.foldl (fun e lane => acts_scheduleLane (T := .all) e trivial lane) _ _).alive (by decide) hserved
    · exact hserved

lemma alive_serveTouched (now : TimePoint) (ha : ∀ j, e.AliveAt j ∨ j ∈ e.mTouched) :
    (e.serveTouched now).Alive := by
  have hserved : ∀ (ids : List PeerId) (e : NetworkEngine), (∀ j, e.AliveAt j ∨ j ∈ ids) →
      (ids.foldl (serve now) e).Alive := by
    intro ids
    induction ids with
    | nil =>
      intro e ha j
      exact (ha j).resolve_right (by simp)
    | cons id ids ih =>
      intro e ha
      refine ih _ fun j => ?_
      by_cases hj : j = id
      · rw [hj]
        exact .inl (alive_serve e now)
      · rcases ha j with ha | hm
        · exact .inl ((acts_serve (T := .all) e trivial now id).alive (by decide) ha)
        · exact .inr ((List.mem_cons.mp hm).resolve_left hj)
  have hserved := hserved e.mTouched e ha
  rw [serveTouched]
  split
  · exact hserved
  · exact fun j => (acts_sendData (T := .all) _ trivial now).alive (by decide) (hserved j)

def served (e : NetworkEngine) (world : World) (now : TimePoint) : NetworkEngine :=
  let e := (e.collect world now).serveTouched now
  e.mTouched.foldl settlePeer e

def swept (e : NetworkEngine) : NetworkEngine := e.mEnded.foldl eraseEnded { e with mEnded := [] }

lemma round_eq (world : World) (now : TimePoint) :
    e.round world now = (e.served world now).swept.finishStep now := rfl

lemma alive_served (world : World) (now : TimePoint) (hs : Sound e.view) (ha : e.Alive) :
    (e.served world now).Alive :=
  (alive_serveTouched _ now (alive_collect e world now hs ha)).of_view (view_foldl view_settlePeer _ _)

lemma acts_served (world : World) (now : TimePoint) (hs : Sound e.view) (ha : e.Alive) :
    Acts .all .serve (e.collect world now) (e.served world now) :=
  (acts_serveTouched _ trivial now).trans
    (acts_settlePeers _ (alive_serveTouched _ now (alive_collect e world now hs ha)) _)

lemma acts_swept : Acts T .sweep { e with mEnded := [] } e.swept :=
  .foldl (fun e id => .ite (.single (.erase e id)) .refl) _ _

lemma alive_round (world : World) (now : TimePoint) (hs : Sound e.view) (ha : e.Alive) :
    (e.round world now).Alive := by
  have hserved := alive_served e world now hs ha
  exact fun j => ((acts_swept (T := .all) _).trans (acts_finishStep _ now)).alive (by decide) (hserved j)

variable {e}

lemma round_keeps {P : NetworkEngine → Prop} (hact : ∀ k e e' who, P e → Act .all k who e e' → P e')
    (hswept : ∀ e, P e → P { e with mEnded := [] }) (hs : Sound e.view) (ha : e.Alive) (world : World)
      (now : TimePoint)
    (hp : P (e.beginStep world)) : P (e.round world now) := by
  have hcollect := (acts_collect e world now hs).invariant (hact .collect) hp
  have hserved := (acts_served e world now hs ha).invariant (hact .serve) hcollect
  have hgone : Acts .all .sweep { e.served world now with mEnded := [] } (e.served world now).swept := acts_swept _
  exact (hgone.trans (acts_finishStep _ now)).invariant (hact .sweep) (hswept _ hserved)

end NetLink.NetworkEngine
