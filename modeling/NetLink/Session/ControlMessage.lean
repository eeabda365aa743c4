import NetLink.Channel.WireBuffer

/-! The messages two engines open and end a session with. -/

namespace NetLink.Session

open Net (Text)
open Channel (WireReader writeUint16 writeUint64 writeText)

inductive ControlType
  | hello | accept | decline | close
  deriving DecidableEq, Repr

def ControlType.tag : ControlType → UInt32
  | .hello => 1
  | .accept => 2
  | .decline => 3
  | .close => 4

def ControlType.ofTag (tag : UInt32) : Option ControlType :=
  if tag = 1 then some .hello
  else if tag = 2 then some .accept
  else if tag = 3 then some .decline
  else if tag = 4 then some .close
  else none

inductive DeclineReason
  | declined | incompatible
  deriving DecidableEq, Repr

def DeclineReason.toByte : DeclineReason → UInt8
  | .declined => 0
  | .incompatible => 1

structure Hello where
  fromInstance : UInt64 := 0
  toInstance : UInt64 := 0
  appIdHash : UInt64 := 0
  verMajor : UInt16 := 0
  verMinor : UInt16 := 0
  name : Text := []
  deriving DecidableEq, Repr

structure Accept where
  name : Text := []
  deriving DecidableEq, Repr

structure Decline where
  reason : DeclineReason := .declined
  text : Text := []
  deriving DecidableEq, Repr

def writeExt : List UInt8 := writeUint16 0

/-- The loop of `skipExt`: every round but a failing one reads at least two bytes. -/
def skipFields : ℕ → WireReader → Bool
  | 0, _ => true
  | n + 1, fields =>
    if fields.complete then true
    else
      let (_, fields) := fields.u8
      let (size, fields) := fields.u8
      let (_, fields) := fields.next size.toNat
      if fields.mFailed then false else skipFields n fields

def skipExt (r : WireReader) : Bool × WireReader :=
  let (size, r) := r.u16
  let (field, r) := r.next size
  (if r.mFailed then false else skipFields (field.length + 1) { mBytes := field }, r)

def Hello.encode (hello : Hello) : List UInt8 :=
  writeUint64 hello.fromInstance.toNat ++ writeUint64 hello.toInstance.toNat ++
    writeUint64 hello.appIdHash.toNat ++ writeUint16 hello.verMajor.toNat ++
    writeUint16 hello.verMinor.toNat ++ writeText hello.name ++ writeExt

def decodeHello (body : List UInt8) : Option Hello :=
  let (fromInstance, r) := WireReader.u64 { mBytes := body }
  let (toInstance, r) := r.u64
  let (appIdHash, r) := r.u64
  let (verMajor, r) := r.u16
  let (verMinor, r) := r.u16
  let (name, r) := r.text
  let (skipped, r) := skipExt r
  if !skipped || !r.complete || fromInstance == 0 then none
  else some {
    fromInstance := UInt64.ofNat fromInstance
    toInstance := UInt64.ofNat toInstance
    appIdHash := UInt64.ofNat appIdHash
    verMajor := UInt16.ofNat verMajor
    verMinor := UInt16.ofNat verMinor
    name := name }

def Accept.encode (accept : Accept) : List UInt8 := writeText accept.name ++ writeExt

def decodeAccept (body : List UInt8) : Option Accept :=
  let (name, r) := WireReader.text { mBytes := body }
  let (skipped, r) := skipExt r
  if !skipped || !r.complete then none else some { name := name }

def Decline.encode (decline : Decline) : List UInt8 := decline.reason.toByte :: writeText decline.text

def decodeDecline (body : List UInt8) : Option Decline :=
  let (reason, r) := WireReader.u8 { mBytes := body }
  let (text, r) := r.text
  if !r.complete then none
  else some {
    reason := if reason = DeclineReason.incompatible.toByte then .incompatible else .declined
    text := text }

def encodeClose (reason : UInt8) : List UInt8 := [reason]

end NetLink.Session
