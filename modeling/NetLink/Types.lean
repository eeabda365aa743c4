import Mathlib.Data.Rat.Defs
import NetLink.Channel.Constants
import NetLink.Net.Address

/-! The public types of the library. A `PeerId` is its value. -/

namespace NetLink

open Net (Text)

def MaxDisplayName : ℕ := 64
def MaxPeers : ℕ := 256

abbrev PeerId := UInt64

structure PeerInfo where
  id : PeerId := 0
  displayName : Text := []
  address : Text := []
  port : UInt16 := 0
  appVersion : Text := []
  deriving DecidableEq, Repr

inductive Lane
  | reliable | bulk | media
  deriving DecidableEq, Repr

inductive DisconnectReason
  | localEnd | remoteEnd | declined | incompatible | lost | networkError | shutdown
  deriving DecidableEq, Repr

structure PeerStats where
  rtt : ℤ := 0
  bytesQueued : ℕ := 0
  bytesSent : ℕ := 0
  bytesReceived : ℕ := 0
  retransmissions : ℕ := 0
  mediaSent : ℕ := 0
  mediaDropped : ℕ := 0
  mediaIncomplete : ℕ := 0
  mediaLoss : ℚ := 0
  deriving DecidableEq

structure Message where
  type : UInt32 := 0
  data : List UInt8 := []
  deriving DecidableEq, Repr

end NetLink
