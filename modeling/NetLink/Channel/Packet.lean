import NetLink.Channel.Constants

/-! Packet flags and headers. Fields that are only compared keep the width of the source; the numbers
a link calculates with are natural numbers, cut to their width where the source casts or writes them. -/

namespace NetLink.Channel

inductive PacketKind
  | data | ack | ping | beacon
  deriving DecidableEq, Repr

inductive Lane
  | control | reliable | bulk | media
  deriving DecidableEq, Repr

def PacketKind.toNat : PacketKind → ℕ
  | .data => 0
  | .ack => 1
  | .ping => 2
  | .beacon => 3

def Lane.toNat : Lane → ℕ
  | .control => 0
  | .reliable => 1
  | .bulk => 2
  | .media => 3

structure PacketFlags where
  mBits : UInt8 := 0
  deriving DecidableEq, Repr

namespace PacketFlags

def KindMask : UInt8 := 0x03
def LaneMask : UInt8 := 0x0C
def LaneShift : UInt8 := 2

def Fragmented : UInt8 := (1 : UInt8) <<< 4
def LastFragment : UInt8 := (1 : UInt8) <<< 5
def Paused : UInt8 := (1 : UInt8) <<< 6
def Encrypted : UInt8 := (1 : UInt8) <<< 7

def kind (f : PacketFlags) : PacketKind :=
  match (f.mBits &&& KindMask).toNat with
  | 0 => .data
  | 1 => .ack
  | 2 => .ping
  | _ => .beacon

def lane (f : PacketFlags) : Lane :=
  match ((f.mBits &&& LaneMask) >>> LaneShift).toNat with
  | 0 => .control
  | 1 => .reliable
  | 2 => .bulk
  | _ => .media

def has (f : PacketFlags) (bit : UInt8) : Bool := (f.mBits &&& bit) != 0

def isFragmented (f : PacketFlags) : Bool := f.has Fragmented
def isLastFragment (f : PacketFlags) : Bool := f.has LastFragment
def isPaused (f : PacketFlags) : Bool := f.has Paused

def setKind (f : PacketFlags) (kind : PacketKind) : PacketFlags :=
  ⟨(f.mBits &&& ~~~KindMask) ||| UInt8.ofNat kind.toNat⟩

def setLane (f : PacketFlags) (lane : Lane) : PacketFlags :=
  ⟨(f.mBits &&& ~~~LaneMask) ||| (UInt8.ofNat lane.toNat <<< LaneShift)⟩

def set (f : PacketFlags) (bit : UInt8) (on : Bool) : PacketFlags :=
  if on then ⟨f.mBits ||| bit⟩ else ⟨f.mBits &&& ~~~bit⟩

def setFragment (f : PacketFlags) (fragmented last : Bool) : PacketFlags :=
  (f.set Fragmented fragmented).set LastFragment (fragmented && last)

def isValid (f : PacketFlags) : Bool :=
  if f.has Encrypted then false
  else if f.isLastFragment && !f.isFragmented then false
  else if f.isFragmented && f.kind != .data then false
  else if f.isPaused && f.kind != .ack then false
  else if (f.kind == .ack || f.kind == .ping) && f.lane == .media then false
  else if f.kind == .beacon && (f.mBits &&& ~~~KindMask) != 0 then false
  else true

def data (lane : Lane) : PacketFlags := (({} : PacketFlags).setKind .data).setLane lane
def ack (lane : Lane) (paused : Bool) : PacketFlags :=
  ((({} : PacketFlags).setKind .ack).setLane lane).set Paused paused
def ping (lane : Lane) : PacketFlags := (({} : PacketFlags).setKind .ping).setLane lane

@[simp] lemma kind_data (l : Lane) : (data l).kind = .data := by cases l <;> decide
@[simp] lemma lane_data (l : Lane) : (data l).lane = l := by cases l <;> decide
@[simp] lemma isFragmented_data (l : Lane) : (data l).isFragmented = false := by cases l <;> decide
@[simp] lemma isLastFragment_data (l : Lane) : (data l).isLastFragment = false := by
  cases l <;> decide

@[simp] lemma kind_fragment (l : Lane) (b : Bool) : ((data l).setFragment true b).kind = .data := by
  cases l <;> cases b <;> decide
@[simp] lemma lane_fragment (l : Lane) (b : Bool) : ((data l).setFragment true b).lane = l := by
  cases l <;> cases b <;> decide
@[simp] lemma isFragmented_fragment (l : Lane) (b : Bool) :
    ((data l).setFragment true b).isFragmented = true := by
  cases l <;> cases b <;> decide
@[simp] lemma isLastFragment_fragment (l : Lane) (b : Bool) :
    ((data l).setFragment true b).isLastFragment = b := by
  cases l <;> cases b <;> decide

@[simp] lemma kind_ack (l : Lane) (b : Bool) : (ack l b).kind = .ack := by
  cases l <;> cases b <;> decide
@[simp] lemma lane_ack (l : Lane) (b : Bool) : (ack l b).lane = l := by
  cases l <;> cases b <;> decide
@[simp] lemma kind_ping (l : Lane) : (ping l).kind = .ping := by cases l <;> decide
@[simp] lemma lane_ping (l : Lane) : (ping l).lane = l := by cases l <;> decide

lemma lane_ne_media_of_isValid {f : PacketFlags} (hv : f.isValid = true)
    (hk : f.kind = .ack ∨ f.kind = .ping) : f.lane ≠ .media := by
  intro hl
  simp only [isValid, hl] at hv
  rcases hk with hk | hk <;> simp [hk] at hv

end PacketFlags

def BaseHeaderSize : ℕ := 20
def FragmentExtensionSize : ℕ := 4
def TagExtensionSize : ℕ := 4
def LengthExtensionSize : ℕ := 4
def MaxHeaderSize : ℕ :=
  BaseHeaderSize + FragmentExtensionSize + TagExtensionSize + LengthExtensionSize

def MaxFragmentBody : ℕ := MaxDatagramSize - MaxHeaderSize

def fragmentsOf (length : ℕ) : ℕ :=
  if length = 0 then 1 else (length + MaxFragmentBody - 1) / MaxFragmentBody

def maxMessageSize (lane : Lane) : ℕ :=
  if lane = .media then MaxMediaPayload else MaxMessagePayload

structure PacketHeader where
  flags : PacketFlags := {}
  srcStreamID : UInt32 := 0
  dstStreamID : UInt32 := 0
  seq : ℕ := 0
  fragIndex : ℕ := 0
  fragCount : ℕ := 0
  tag : UInt32 := 0
  totalLength : ℕ := 0
  deriving DecidableEq, Repr

def PacketHeader.startsMessage (h : PacketHeader) : Bool :=
  h.flags.kind == .data && (!h.flags.isFragmented || h.fragIndex == 0)

def PacketHeader.startsFragmentedMessage (h : PacketHeader) : Bool :=
  h.flags.isFragmented && h.fragIndex == 0

def PacketHeader.onWire (h : PacketHeader) : PacketHeader :=
  { h with
    fragIndex := if h.flags.isFragmented then h.fragIndex else 0
    fragCount := if h.flags.isFragmented then h.fragCount else 0
    tag := if h.startsMessage then h.tag else 0
    totalLength := if h.startsFragmentedMessage then h.totalLength else 0 }

def PacketHeader.encodedSize (h : PacketHeader) : ℕ :=
  BaseHeaderSize + (if h.flags.isFragmented then FragmentExtensionSize else 0) +
    (if h.startsMessage then TagExtensionSize else 0) +
    (if h.startsFragmentedMessage then LengthExtensionSize else 0)

end NetLink.Channel
