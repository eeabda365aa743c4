import NetLink.Engine.Alive

/-! The turn of one peer, up to the question which of its lanes have something to send. -/

namespace NetLink.NetworkEngine

open Net (SocketAddress)
open Channel (TimePoint ReliableLink Packet Mailbox SendScheduler DeliveredMessage)

variable {id : PeerId} (e : NetworkEngine) {e' e'' : NetworkEngine} {p : Peer}

lemma turn_onControl (message : DeliveredMessage) : Turn id e (e.onControl id message) := by
  rw [onControl]
  split
  · exact .refl e
  split
  · exact .refl e
  split
  · exact .refl e
  · exact .refl e
  · refine .ite ?_ (.refl e)
    exact .trans (.ite (.refl e) (turn_modifyPeer e (by exact fun _ => rfl))) (turn_setConnected _)
  · exact .ite (turn_finish e _) (.refl e)
  · exact turn_finish e _

lemma turn_deliver (message : DeliveredMessage) : Turn id e (e.deliver id message) := by
  have hpushed : Turn id e (e.pushMedia id message) := by
    rw [pushMedia]
    exact .trans (turn_modifyPeer e (by exact fun _ => rfl))
      (.of_quiet (.of_fields rfl rfl rfl rfl rfl rfl rfl rfl .refl))
  rw [deliver]
  apply Turn.ite (turn_onControl e message)
  apply Turn.ite (.refl e)
  exact .ite (hpushed.trans (.of_quiet (quiet_emit _ rfl))) (.of_quiet (quiet_emit e rfl))

lemma turn_finishClosing (p : Peer) (now : TimePoint) (expired : Bool) :
    Turn id e (e.finishClosing id p now expired) := by
  have hclosed : ∀ e : NetworkEngine, Turn id e ((e.report id .localEnd).sendClose id now) :=
    fun e => (turn_report e _).trans (turn_sendClose _ now)
  rw [finishClosing]
  cases expired with
  | true => exact hclosed e
  | false =>
    rw [if_neg Bool.false_ne_true]
    by_cases hp : (p.link.hasPending .reliable || p.link.hasPending .bulk) = true
    · rw [if_pos hp]
      exact .refl e
    · rw [if_neg hp]
      exact .ite ((turn_settle e).trans (hclosed _)) (turn_settle e)

lemma turn_advanceState (now : TimePoint) : Turn id e (e.advanceState id now) := by
  rw [advanceState]
  split
  · exact .refl e
  next p h =>
  apply Turn.ite (.refl e)
  split
  · exact .ite (turn_setConnected e) (.refl e)
  · exact .ite (turn_sendDecline e now) (.refl e)
  · exact .refl e
  · exact .ite (.ite (turn_endPeer e) (.refl e)) (turn_finishClosing e p now _)

lemma turn_advance (now : TimePoint) : Turn id e (e.advance id now) := by
  rw [advance]
  split
  · exact .refl e
  next p h =>
  apply Turn.ite (.refl e)
  apply Turn.ite (turn_finish e .lost)
  exact ((turn_putLink e _).trans (.foldl (fun e m => turn_deliver e m) _ _)).trans (turn_advanceState _ now)

lemma turn_hold : Turn id e { e with mAcksHeldBack := e.mAcksHeldBack ++ [id] } :=
  ⟨⟨fun _ _ => .of_fields rfl rfl rfl, .refl _, fun _ h => List.mem_append_left _ h, fun _ h => h⟩, rfl, rfl⟩

lemma turn_sendAcks : Turn id e (e.sendAcks id) :=
  sendAcks_keeps e (fun e => .refl e) .trans (fun e => turn_onLink e _)
    (fun e p ack _ _ => turn_transmit e p.address ack) (fun e => turn_onLink e _) (fun e => turn_hold e)
    fun e => .of_quiet (quiet_spend e)

lemma turn_settlePeer : Turn id e (e.settlePeer id) := by
  refine settlePeer_keeps e (fun e => .refl e) .trans (fun e => turn_modifyPeer e fun _ => rfl)
    (fun e _ => (turn_settle e).trans (turn_modifyPeer _ fun _ => rfl)) (fun e => turn_modifyPeer e fun p => ?_)
    fun e _ => turn_withMailbox e (fun m => .publishStats m id _) fun m j _ => m.mails_publishStats j id _
  rw [Peer.noteMedia]
  dsimp only
  split <;> rfl

lemma beside_scheduleLane (lane : Channel.Lane) : Beside id e (scheduleLane id e lane) := by
  have hpeek : Beside id e (e.peek id lane).2 := (turn_peek e lane).toBeside
  refine scheduleLane_keeps e (.refl e) hpeek ((hpeek.trans ?_).trans (beside_setScheduled _ lane true))
  exact ⟨fun _ _ => .of_fields rfl rfl rfl, .refl _, fun _ h => h, fun _ h => h⟩

lemma beside_serve (now : TimePoint) (id : PeerId) : Beside id e (serve now e id) := by
  have hserved : Beside id e ((e.advance id now).sendAcks id) :=
    ((turn_advance e now).trans (turn_sendAcks _)).toBeside
  rw [serve]
  split
  · exact .refl e
  · dsimp only
    split
    · exact hserved.trans (.foldl (fun e lane => beside_scheduleLane e lane) _ _)
    · exact hserved

end NetLink.NetworkEngine
