import NetLink.Channel.ReliableLink.State

/-! What a link does with the Data packets it receives. -/

namespace NetLink.Channel.ReliableLink

def deliver (l : ReliableLink) (lane : Lane) (message : AssembledMessage) : ReliableLink :=
  { l with
    mDelivered := l.mDelivered ++ [{ lane := lane, tag := message.tag, body := message.body }]
    mStats := { l.mStats with
      bytesReceived := l.mStats.bytesReceived + (if lane ≠ .control then message.body.length else 0)
      delivered := l.mStats.delivered + 1 } }

def acceptInOrder (l : ReliableLink) (lane : Lane) (stream : Stream) (header : PacketHeader)
    (body : List UInt8) : Bool × ReliableLink :=
  if !MessageAssembler.hasRoomFor l.mBudget header then
    (false, l.setStream lane { stream with budgetPaused := true, refusedLength := header.totalLength })
  else
    match stream.assembler.accept l.mBudget header body with
    | (assembler, budget, message) =>
      let l := { l with mBudget := budget }.setStream lane { stream with assembler := assembler }
      (true, match message with
        | none => l
        | some message => l.deliver lane message)

/-- The `while` loop of the source: it erases an entry in every round but the last one, so it ends
within as many rounds as there are entries. -/
def drainLoop (lane : Lane) : ℕ → ReliableLink → ReliableLink
  | 0, l => l
  | n + 1, l =>
    let stream := l.streamFor lane
    match stream.reorder.find stream.nextExpected with
    | none => l
    | some buffered =>
      match l.acceptInOrder lane stream buffered.header buffered.body with
      | (false, l) => l
      | (true, l) =>
        let stream := l.streamFor lane
        drainLoop lane n (l.setStream lane { stream with
          reorder := stream.reorder.erase stream.nextExpected
          nextExpected := stream.nextExpected + 1 })

def drainReorderBuffer (l : ReliableLink) (lane : Lane) : ReliableLink :=
  drainLoop lane (l.streamFor lane).reorder.entries.length l

def retryRefused (l : ReliableLink) (lane : Lane) : ReliableLink :=
  let stream := l.streamFor lane
  if !stream.budgetPaused || l.mBudget.any (fun b => !b.fits stream.refusedLength) then l
  else ((l.setStream lane { stream with budgetPaused := false }).drainReorderBuffer lane).dueAck lane

def handleData (l : ReliableLink) (lane : Lane) (header : PacketHeader) (body : List UInt8) :
    ReliableLink :=
  let l := l.checkIndex lane
  let l := (l.setStream lane (l.streamFor lane)).retryRefused lane
  let stream := l.streamFor lane
  let seq := header.seq
  if seq ≥ stream.nextExpected + stream.reorder.capacity then
    { l with mStats := { l.mStats with outOfWindowDropped := l.mStats.outOfWindowDropped + 1 } }
  else
    let l := l.dueAck lane
    if seq < stream.nextExpected ∨ stream.reorder.contains seq then
      { l with mStats := { l.mStats with duplicatesReceived := l.mStats.duplicatesReceived + 1 } }
    else if seq ≠ stream.nextExpected then
      l.setStream lane { stream with reorder := stream.reorder.insert seq ⟨header, body⟩ }
    else
      match l.acceptInOrder lane stream header body with
      | (false, l) => l
      | (true, l) =>
        let stream := l.streamFor lane
        (l.setStream lane { stream with nextExpected := stream.nextExpected + 1 }).drainReorderBuffer lane

def handleMedia (l : ReliableLink) (header : PacketHeader) (body : List UInt8) : ReliableLink :=
  let l := { l with
    mMediaReceived := (l.mMediaReceived + 1) % 2 ^ 32
    mStats := { l.mStats with mediaReceived := l.mStats.mediaReceived + 1 } }
  match (l.mMediaAssembler.getD {}).accept header body with
  | (assembler, message) =>
    let l := { l with mMediaAssembler := some assembler }
    match message with
    | none => l
    | some message => l.deliver .media message

end NetLink.Channel.ReliableLink
