import NetLink.Channel.Constants

/-! Round-trip time estimation and retransmission timeout, in microseconds. -/

namespace NetLink.Channel

structure RttEstimator where
  mInitialRto : ℤ
  mMinRto : ℤ
  mMaxRto : ℤ
  mRto : ℤ
  mSrtt : ℤ := 0
  mRttVar : ℤ := 0
  mHasSample : Bool := false
  deriving DecidableEq, Repr

namespace RttEstimator

def clampTo (lo hi value : ℤ) : ℤ := if value < lo then lo else if hi < value then hi else value

def clamp (r : RttEstimator) (value : ℤ) : ℤ := clampTo r.mMinRto r.mMaxRto value

def new (initialRto minRto maxRto : ℤ) : RttEstimator where
  mInitialRto := initialRto * 1000
  mMinRto := minRto * 1000
  mMaxRto := maxRto * 1000
  mRto := clampTo (minRto * 1000) (maxRto * 1000) (initialRto * 1000)

def addSample (r : RttEstimator) (rtt : ℤ) : RttEstimator :=
  if rtt < 0 then r
  else
    let r := if !r.mHasSample then
        { r with mSrtt := rtt, mRttVar := rtt.tdiv 2, mHasSample := true }
      else
        let delta := if r.mSrtt > rtt then r.mSrtt - rtt else rtt - r.mSrtt
        { r with mRttVar := (r.mRttVar * 3 + delta).tdiv 4, mSrtt := (r.mSrtt * 7 + rtt).tdiv 8 }
    { r with mRto := r.clamp (r.mSrtt + max 1000 (r.mRttVar * 4)) }

def reset (r : RttEstimator) : RttEstimator :=
  { r with mHasSample := false, mSrtt := 0, mRttVar := 0, mRto := r.clamp r.mInitialRto }

def backOff (maxRto : ℤ) : ℕ → ℤ → ℤ
  | 0, timeout => timeout
  | n + 1, timeout => if timeout < maxRto then backOff maxRto n (timeout * 2) else timeout

def timeoutFor (r : RttEstimator) (attempt : ℕ) : ℤ := r.clamp (backOff r.mMaxRto attempt r.mRto)

def rto (r : RttEstimator) : ℤ := r.mRto
def srtt (r : RttEstimator) : ℤ := r.mSrtt
def rttVar (r : RttEstimator) : ℤ := r.mRttVar

end RttEstimator

end NetLink.Channel
