import Mathlib.Logic.Relation
import NetLink.Channel.Broadcast

/-! What one peer has in a mailbox, and what other threads do to it. -/

namespace NetLink.Channel.Mailbox

structure Entry where
  peer : Option Peer
  session : Option Session

def entry (m : Mailbox) (id : PeerId) : Entry := ⟨m.mPeers[id]?, m.mSessions[id]?⟩

def Peer.shut (p : Peer) : Peer := { p.setLane .media {} with isSealed := true }

inductive Entry.Outside : Entry → Entry → Prop
  | enqueue (p : Peer) (s : Option Session) (lane : Lane) (mail : Mail) (ho : p.isSealed = false)
      (hl : lane ≠ .control) : Outside ⟨some p, s⟩ ⟨some (p.enqueue lane mail), s⟩
  | shut (p : Peer) (s : Option Session) : Outside ⟨some p, s⟩ ⟨some p.shut, some .pending⟩
  | stats (p : Peer) (s : Option Session) (stats : PeerStats) :
    Outside ⟨some p, s⟩ ⟨some { p with stats := stats }, s⟩

def Entry.Mails : Entry → Entry → Prop := Relation.ReflTransGen Entry.Outside

variable (m : Mailbox) (id : PeerId) {lane : Lane}

lemma wireLane_ne_control (lane : NetLink.Lane) : wireLane lane ≠ .control := by cases lane <;> decide

lemma entry_of_ne {j : PeerId} (h : j ≠ id) (p : Peer) : (m.mPeers.insert j p)[id]? = m.mPeers[id]? := by
  simp [Std.TreeMap.getElem?_insert, h]

lemma mails_enqueue {j : PeerId} {p : Peer} (hp : m.mPeers[j]? = some p) (ho : p.isSealed = false)
    (hl : lane ≠ .control) (mail : Mail) : (m.entry id).Mails ((m.enqueue j p lane mail).2.entry id) := by
  by_cases hj : j = id
  · subst hj
    have he : (m.enqueue j p lane mail).2.entry j = ⟨some (p.enqueue lane mail), m.mSessions[j]?⟩ := by
      simp [entry, enqueue]
    rw [he, entry, hp]
    exact .single (.enqueue p _ lane mail ho hl)
  · have he : (m.enqueue j p lane mail).2.entry id = m.entry id := by
      simp [entry, enqueue, entry_of_ne m id hj]
    rw [he]
    exact .refl

lemma mails_push (j : PeerId) (hl : lane ≠ .control) (mail : Mail) :
    (m.entry id).Mails ((m.push j lane mail).2.2.entry id) := by
  rcases push_cases m j lane mail with ⟨he, -⟩ | ⟨p, hp, ho, -, he⟩
  · rw [he]
    exact .refl
  · rw [he]
    exact mails_enqueue m id hp ho hl mail

lemma mails_pushToAll (hl : lane ≠ .control) (mail : Mail) :
    (m.entry id).Mails ((m.pushToAll lane mail).2.2.entry id) := by
  refine pushToAll_keeps (P := fun m' => (m.entry id).Mails (m'.entry id)) ?_ .refl
  exact fun m' j h => h.trans (mails_push m' id j hl mail)

lemma mails_sealPeer (j : PeerId) : (m.entry id).Mails ((m.sealPeer j).entry id) := by
  rw [sealPeer]
  split
  · exact .refl
  next p hp =>
  by_cases hj : j = id
  · subst hj
    simp only [entry, hp, Std.TreeMap.getElem?_insert_self]
    exact .single (.shut p _)
  · simp only [entry, Std.TreeMap.getElem?_insert, hj, Std.LawfulEqCmp.compare_eq_iff_eq, if_false]
    exact .refl

lemma mails_call (c : Call) : (m.entry id).Mails ((m.call c).entry id) := by
  cases c with
  | post command peer => exact .refl
  | push peer lane mail => exact mails_push m id peer (wireLane_ne_control lane) mail
  | pushToAll lane mail => exact mails_pushToAll m id (wireLane_ne_control lane) mail
  | sealPeer peer => exact mails_sealPeer m id peer

lemma mails_calls (cs : List Call) : (m.entry id).Mails ((cs.foldl call m).entry id) := by
  induction cs generalizing m with
  | nil => exact .refl
  | cons c cs ih => exact (mails_call m id c).trans (ih (m.call c))

@[simp] lemma entry_close_self : (m.close id).entry id = ⟨none, none⟩ := by simp [entry, close]

@[simp] lemma entry_openPeer_self :
    (m.openPeer id).entry id = ⟨some { epoch := m.mEpochs + 1 }, some .connected⟩ := by
  simp [entry, openPeer]

@[simp] lemma entry_publishSession_self (session : Session) :
    (m.publishSession id session).entry id = ⟨m.mPeers[id]?, some session⟩ := by
  simp [entry, publishSession]

section

variable {id} {j : PeerId} (h : j ≠ id)
include h

lemma entry_close : (m.close j).entry id = m.entry id := by
  simp [entry, close, Std.TreeMap.getElem?_erase, h]

lemma entry_openPeer : (m.openPeer j).entry id = m.entry id := by
  simp [entry, openPeer, Std.TreeMap.getElem?_insert, h]

lemma entry_publishSession (session : Session) : (m.publishSession j session).entry id = m.entry id := by
  simp [entry, publishSession, Std.TreeMap.getElem?_insert, h]

lemma entry_take (lane : Lane) : (m.take j lane).2.entry id = m.entry id := by
  rw [take]
  split
  · rfl
  split
  · rfl
  · simp [entry, Std.TreeMap.getElem?_insert, h]

lemma entry_settle : (m.settle j).2.entry id = m.entry id := by
  rw [settle]
  split
  · rfl
  split
  · rfl
  · simp [entry, Std.TreeMap.getElem?_insert, h]

end

lemma mails_publishStats (j : PeerId) (stats : PeerStats) :
    (m.entry id).Mails ((m.publishStats j stats).entry id) := by
  by_cases hj : j = id
  · subst hj
    cases hp : m.mPeers[j]? with
    | none =>
      have he : (m.publishStats j stats).entry j = m.entry j := by simp [entry, publishStats, hp]
      rw [he]
      exact .refl
    | some p =>
      have he : (m.publishStats j stats).entry j = ⟨some { p with stats := stats }, m.mSessions[j]?⟩ := by
        simp [entry, publishStats, hp]
      rw [he, entry, hp]
      exact .single (.stats p _ stats)
  · have he : (m.publishStats j stats).entry id = m.entry id := by
      simp [entry, publishStats, Std.TreeMap.getElem?_modify, hj]
    rw [he]
    exact .refl

end NetLink.Channel.Mailbox
