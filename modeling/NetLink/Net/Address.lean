import Mathlib.Data.Nat.Notation
import Mathlib.Tactic.Lemma

/-! Addresses and errors of the socket layer. Texts are the bytes of the source's strings. -/

namespace NetLink.Net

abbrev Text := List UInt8

def decimal (n : ℕ) : Text := (Nat.toDigits 10 n).map fun c => UInt8.ofNat c.toNat

structure IPv4Address where
  mValue : UInt32 := 0
  deriving DecidableEq, Repr

namespace IPv4Address

def toHostOrder (a : IPv4Address) : UInt32 := a.mValue

def broadcast : IPv4Address := ⟨0xFFFFFFFF⟩

def dot : UInt8 := 46

def toString (a : IPv4Address) : Text :=
  decimal ((a.mValue >>> 24) &&& 0xFF).toNat ++ [dot] ++ decimal ((a.mValue >>> 16) &&& 0xFF).toNat ++ [dot] ++
    decimal ((a.mValue >>> 8) &&& 0xFF).toNat ++ [dot] ++ decimal (a.mValue &&& 0xFF).toNat

def isNetmask (a : IPv4Address) : Bool :=
  a.mValue != 0 && (~~~a.mValue &&& (~~~a.mValue + 1)) == 0

end IPv4Address

def subnetBroadcast (address mask : IPv4Address) : IPv4Address :=
  ⟨address.toHostOrder ||| ~~~mask.toHostOrder⟩

def sameSubnet (first second mask : IPv4Address) : Bool :=
  (first.toHostOrder &&& mask.toHostOrder) == (second.toHostOrder &&& mask.toHostOrder)

structure SocketAddress where
  ip : IPv4Address := {}
  port : UInt16 := 0
  deriving DecidableEq, Repr

inductive SocketError
  | timeout | wouldBlock | cancelled | closed | connectionRefused | connectionReset | connectionAborted
  | notConnected | addressInUse | addressNotAvailable | permissionDenied | invalidArgument
  | networkUnreachable | networkDown | messageTooLarge | notInitialized | unknown
  deriving DecidableEq, Repr

end NetLink.Net
