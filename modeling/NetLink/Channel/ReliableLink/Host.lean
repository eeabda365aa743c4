import NetLink.Channel.ReliableLink.Frame
import NetLink.Lib.System

/-! A link in the hands of its owner: the calls it receives, and a record of the messages it took, the
datagrams it gave to the network and the messages it handed over. -/

namespace NetLink.Channel

structure Host where
  link : ReliableLink
  offered : Option Lane := none
  taken : Lane → List OutboundMessage := fun _ => []
  wire : List Packet := []
  handed : List DeliveredMessage := []

namespace Host

def single : MessageSource (Option OutboundMessage) := fun source _ => (source, none)

def noteTaken (h : Host) (lane : Lane) (next rest : Option OutboundMessage) : Host :=
  { h with taken := Function.update h.taken lane (h.taken lane ++ (if rest.isNone then next.toList else [])) }

def peek (h : Host) (lane : Lane) (next : Option OutboundMessage) : Host :=
  match h.link.peek single lane next with
  | (packet, link, rest) =>
    { h.noteTaken lane next rest with link := link, offered := packet.map fun _ => lane }

def commit (h : Host) (lane : Lane) (now : TimePoint) : Host :=
  { h with link := h.link.commit lane now, offered := none, wire := h.wire ++ [h.link.mPeeked] }

def peekAck (h : Host) : Host := { h with link := h.link.peekAck.2, offered := none }

def commitAck (h : Host) : Host :=
  { h with
    link := h.link.commitAck
    offered := none
    wire := h.wire ++ h.link.mPendingAcks.head?.toList }

def onPacket (h : Host) (packet : Packet) (now : TimePoint) : Host :=
  { h with link := h.link.onPacket packet now, offered := none }

def setPaused (h : Host) (paused : Bool) : Host :=
  { h with link := h.link.setPaused paused, offered := none }

def onTimer (h : Host) (now : TimePoint) : Host := { h with link := h.link.onTimer now, offered := none }

def supervise (h : Host) (now : TimePoint) : Host :=
  { h with link := h.link.supervise now, offered := none }

def takeDelivered (h : Host) : Host :=
  { h with
    link := h.link.takeDelivered.2
    offered := none
    handed := h.handed ++ h.link.takeDelivered.1 }

/-- The owner shares one budget among its links; the others may have reserved or released something. -/
def exchangeBudget (h : Host) (budget : AssemblyBudget) : Host :=
  { h with link := { h.link with mBudget := some budget }, offered := none }

def delivered (h : Host) (lane : Lane) : List DeliveredMessage :=
  (h.handed ++ h.link.mDelivered).filter (·.lane == lane)

/-- One call of the owner. Messages come from `source`, packets from `incoming`; `commit` follows its
`peek` directly. -/
inductive Step (source : Lane → OutboundMessage → Prop) (incoming : Packet → Prop) : Host → Host → Prop
  | peek (h : Host) (lane : Lane) (next : Option OutboundMessage) (hs : ∀ m ∈ next, source lane m) :
      Step source incoming h (h.peek lane next)
  | commit (h : Host) (lane : Lane) (now : TimePoint) (ho : h.offered = some lane) :
      Step source incoming h (h.commit lane now)
  | peekAck (h : Host) : Step source incoming h h.peekAck
  | commitAck (h : Host) : Step source incoming h h.commitAck
  | onPacket (h : Host) (packet : Packet) (now : TimePoint) (hp : incoming packet) :
      Step source incoming h (h.onPacket packet now)
  | setPaused (h : Host) (paused : Bool) : Step source incoming h (h.setPaused paused)
  | onTimer (h : Host) (now : TimePoint) : Step source incoming h (h.onTimer now)
  | supervise (h : Host) (now : TimePoint) : Step source incoming h (h.supervise now)
  | takeDelivered (h : Host) : Step source incoming h h.takeDelivered
  | exchangeBudget (h : Host) (budget : AssemblyBudget) : Step source incoming h (h.exchangeBudget budget)

def Initial (h : Host) : Prop := ∃ timings id budget, h = { link := .new timings id budget }

def system (source : Lane → OutboundMessage → Prop) (incoming : Packet → Prop) : Lib.System Host where
  init := Initial
  step := Step source incoming

lemma steps_mono {source : Lane → OutboundMessage → Prop} {incoming incoming' : Packet → Prop} {h h' : Host}
    (hi : ∀ p, incoming p → incoming' p) (hr : (system source incoming).Steps h h') :
    (system source incoming').Steps h h' := by
  refine Relation.ReflTransGen.mono (fun a b hab => ?_) _ _ hr
  cases hab with
  | peek lane next hs => exact .peek a lane next hs
  | commit lane now ho => exact .commit a lane now ho
  | peekAck => exact .peekAck a
  | commitAck => exact .commitAck a
  | onPacket p now hp => exact .onPacket a p now (hi p hp)
  | setPaused paused => exact .setPaused a paused
  | onTimer now => exact .onTimer a now
  | supervise now => exact .supervise a now
  | takeDelivered => exact .takeDelivered a
  | exchangeBudget budget => exact .exchangeBudget a budget

end Host

end NetLink.Channel
