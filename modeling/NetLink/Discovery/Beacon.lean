import NetLink.Session.ControlMessage

/-! The datagram an engine announces itself with. -/

namespace NetLink.Discovery

open Net (Text decimal)
open Channel (WireReader readUint16 writeUint16 writeUint64 writeText byteAt ProtocolMagic ProtocolVersion
  PacketKind MaxDatagramSize)

def hashAppId (appId : Text) : UInt64 :=
  appId.foldl (fun hash c => (hash ^^^ c.toUInt64) * 0x100000001B3) 0xCBF29CE484222325

structure AppVersion where
  verMajor : UInt16 := 0
  verMinor : UInt16 := 0
  deriving DecidableEq, Repr

def dot : UInt8 := 46

def AppVersion.toString (v : AppVersion) : Text := decimal v.verMajor.toNat ++ [dot] ++ decimal v.verMinor.toNat

def isDigit (c : UInt8) : Bool := 48 ≤ c && c ≤ 57

/-- `std::from_chars` into a `uint16_t`, 0 where it reports an error. -/
def number (text : Text) : UInt16 :=
  let value := (text.takeWhile isDigit).foldl (fun value c => value * 10 + (c.toNat - 48)) 0
  if value < 2 ^ 16 then UInt16.ofNat value else 0

def parseAppVersion (version : Text) : AppVersion :=
  let rest := (version.dropWhile (· != dot)).drop 1
  { verMajor := number (version.takeWhile (· != dot)), verMinor := number (rest.takeWhile (· != dot)) }

structure Beacon where
  instanceId : UInt64 := 0
  appIdHash : UInt64 := 0
  version : AppVersion := {}
  reply : Bool := false
  name : Text := []
  deriving DecidableEq, Repr

def BeaconPrefixSize : ℕ := 4
def BeaconReplyFlag : UInt8 := 0x01

def isBeacon (datagram : List UInt8) : Bool :=
  BeaconPrefixSize ≤ datagram.length && readUint16 datagram 0 == ProtocolMagic &&
    byteAt datagram 2 == ProtocolVersion && (byteAt datagram 3).toNat == PacketKind.beacon.toNat

def encodeBeacon (beacon : Beacon) : List UInt8 :=
  writeUint16 ProtocolMagic ++ [ProtocolVersion, UInt8.ofNat PacketKind.beacon.toNat] ++
    writeUint64 beacon.instanceId.toNat ++ writeUint64 beacon.appIdHash.toNat ++
    writeUint16 beacon.version.verMajor.toNat ++ writeUint16 beacon.version.verMinor.toNat ++
    [if beacon.reply then BeaconReplyFlag else 0] ++ writeText beacon.name ++ Session.writeExt

def decodeBeacon (datagram : List UInt8) : Option Beacon :=
  if !isBeacon datagram || datagram.length > MaxDatagramSize then none
  else
    let (instanceId, r) := WireReader.u64 { mBytes := datagram.drop BeaconPrefixSize }
    let (appIdHash, r) := r.u64
    let (verMajor, r) := r.u16
    let (verMinor, r) := r.u16
    let (flags, r) := r.u8
    let (name, r) := r.text
    let (skipped, r) := Session.skipExt r
    if (flags &&& ~~~BeaconReplyFlag) != 0 || !skipped || !r.complete || instanceId == 0 then none
    else some {
      instanceId := UInt64.ofNat instanceId
      appIdHash := UInt64.ofNat appIdHash
      version := { verMajor := UInt16.ofNat verMajor, verMinor := UInt16.ofNat verMinor }
      reply := (flags &&& BeaconReplyFlag) != 0
      name := name }

end NetLink.Discovery
