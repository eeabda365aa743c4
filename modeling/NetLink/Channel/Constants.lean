import Mathlib.Algebra.Ring.Nat
import Mathlib.Data.Int.Notation
import Mathlib.Tactic.Lemma

/-! The fixed numbers of the transport. Times are nanoseconds of the steady clock; the durations of
`LinkTimings` are milliseconds, those of the round-trip estimator microseconds. -/

namespace NetLink.Channel

abbrev TimePoint := ℤ

def fromMillis (d : ℤ) : ℤ := d * 1000000
def fromMicros (d : ℤ) : ℤ := d * 1000

def MaxMessagePayload : ℕ := 16 * 1024 * 1024
def MaxMediaPayload : ℕ := 64 * 1024
def MaxDatagramSize : ℕ := 1200

def ControlWindow : ℕ := 32
def ReliableWindow : ℕ := 256
def BulkWindow : ℕ := 256

def MinCongestionWindow : ℕ := 8
def MaxCongestionWindow : ℕ := 256
def InitialCongestionWindow : ℕ := 32

def FastRetransmitThreshold : ℕ := 3
def MaxBackoffSteps : ℕ := 16
def MinPauseProbeInterval : ℤ := 50

def MediaQueueMessages : ℕ := 32
def MediaAssemblySlots : ℕ := 4

def BacklogPauseBytes : ℕ := 32 * 1024 * 1024
def BacklogResumeBytes : ℕ := 16 * 1024 * 1024
def AssemblyBudgetBytes : ℕ := 256 * 1024 * 1024
def DefaultSendQueueBytes : ℕ := 64 * 1024 * 1024
def DefaultMaxSendRate : ℕ := 80000

structure LinkTimings where
  initialRto : ℤ := 100
  minRto : ℤ := 20
  maxRto : ℤ := 1000
  peerTimeout : ℤ := 5000
  keepAlive : ℤ := 1000
  initialCwnd : ℕ := InitialCongestionWindow
  fixedCwnd : ℕ := 0
  deriving DecidableEq, Repr

end NetLink.Channel
