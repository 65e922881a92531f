import CongestionResponse.Quic.Units
import CongestionResponse.Quic.DataIO

/-! The frames of `MyQuicFramer`, what it tells its visitor, and the bit fields of a
frame's type byte, all as under `QUIC_VERSION_43` with incremental ack processing, the
only setting the experiment constructs. A `uint8_t` of flags is a `Nat`. -/
namespace CongestionResponse.Framer
open Lib Quic

/-! ### Packet number lengths -/

inductive QuicPacketNumberLength where
  | oneByte | twoByte | fourByte | sixByte | eightByte
deriving DecidableEq

def QuicPacketNumberLength.bytes : QuicPacketNumberLength → Nat
  | .oneByte => 1
  | .twoByte => 2
  | .fourByte => 4
  | .sixByte => 6
  | .eightByte => 8

def getMinPacketNumberLength (packetNumber : Nat) : QuicPacketNumberLength :=
  if packetNumber < 2 ^ 8 then .oneByte
  else if packetNumber < 2 ^ 16 then .twoByte
  else if packetNumber < 2 ^ 32 then .fourByte
  else .sixByte

def getPacketNumberFlags : QuicPacketNumberLength → Nat
  | .oneByte => 0
  | .twoByte => 1
  | .fourByte => 2
  | .sixByte | .eightByte => 3

def readAckPacketNumberLength (flags : Nat) : QuicPacketNumberLength :=
  match flags &&& 3 with
  | 3 => .sixByte
  | 2 => .fourByte
  | 1 => .twoByte
  | _ => .oneByte

/-- The shortest length holds every number below 2^48. -/
theorem lt_getMinPacketNumberLength {n : Nat} (h : n < 2 ^ 48) :
    n < 256 ^ (getMinPacketNumberLength n).bytes := by
  unfold getMinPacketNumberLength
  split
  · assumption
  · split
    · assumption
    · split
      · assumption
      · exact h

/-! ### Flags -/

def getMaskFromNumBits (numBits : Nat) : Nat := 1 <<< numBits - 1

def extractBits (flags numBits offset : Nat) : Nat :=
  (flags >>> offset) &&& getMaskFromNumBits numBits

def extractBit (flags offset : Nat) : Bool := decide (extractBits flags 1 offset ≠ 0)

def setBits (flags val offset : Nat) : Nat := flags ||| (val <<< offset)

def setBit (flags : Nat) (val : Bool) (offset : Nat) : Nat :=
  setBits flags (if val then 1 else 0) offset

def kQuicFrameTypeSpecialMask : Nat := 0b11100000
def kQuicFrameTypeStreamMaskPre40 : Nat := 0b10000000
def kQuicFrameTypeStreamMask : Nat := 0b11000000
def kQuicFrameTypeAckMaskPre40 : Nat := 0b01000000
def kQuicFrameTypeAckMask : Nat := 0b10100000
def kQuicSequenceNumberLengthNumBits : Nat := 2
def kActBlockLengthOffset : Nat := 0
def kLargestAckedOffset : Nat := 2
def kQuicHasMultipleAckBlocksOffsetPre40 : Nat := 5

/-! ### Frames -/

/-- An interval of packet numbers, without its upper end. -/
structure Interval where
  min : Nat
  max : Nat
  nonempty : min < max
deriving DecidableEq

def Interval.length (i : Interval) : Nat := i.max - i.min

theorem Interval.length_pos (i : Interval) : 0 < i.length := Nat.sub_pos_of_lt i.nonempty

/-- Acknowledged packets: intervals in ascending order that neither meet nor touch. -/
structure PacketNumberQueue where
  intervals : List Interval
  separated : intervals.Pairwise fun i j => i.max < j.min

structure QuicAckFrame where
  largestAcked : Nat
  ackDelayTime : Int
  packets : PacketNumberQueue

structure QuicStreamFrame where
  streamId : Nat
  fin : Bool
  offset : Nat
  data : List UInt8
  dataLength : Nat
deriving DecidableEq

structure QuicRstStreamFrame where
  streamId : Nat
  byteOffset : Nat
  errorCode : Nat
deriving DecidableEq

structure QuicConnectionCloseFrame where
  errorCode : Nat
  errorDetails : List UInt8
deriving DecidableEq

structure QuicGoAwayFrame where
  errorCode : Nat
  lastGoodStreamId : Nat
  reasonPhrase : List UInt8
deriving DecidableEq

structure QuicWindowUpdateFrame where
  streamId : Nat
  byteOffset : Nat
deriving DecidableEq

/-! ### The visitor -/

/-- A call of the framer's visitor. -/
inductive Call where
  | onAckFrameStart (largestAcked : Nat) (ackDelayTime : Int)
  | onAckRange (start stop : Nat) (lastRange : Bool)
  | onStreamFrame (frame : QuicStreamFrame)
  | onPaddingFrame (numPaddingBytes : Nat)
  | onRstStreamFrame (frame : QuicRstStreamFrame)
  | onConnectionCloseFrame (frame : QuicConnectionCloseFrame)
  | onGoAwayFrame (frame : QuicGoAwayFrame)
  | onWindowUpdateFrame (frame : QuicWindowUpdateFrame)
  | onBlockedFrame (streamId : Nat)
  | onStopWaitingFrame (leastUnacked : Nat)
  | onPingFrame
deriving DecidableEq

/-- Whether a visitor accepts a call, after the calls it has seen. -/
def Visitor : Type := List Call → Call → Bool

/-- A visitor that never stops the framer, as the senders and receivers here are. -/
def Visitor.Accepts (visitor : Visitor) : Prop := ∀ calls call, visitor calls call = true

inductive QuicErrorCode where
  | missingPayload | invalidFrameData | invalidStreamData | invalidAckData | invalidRstStreamData
  | invalidConnectionCloseData | invalidGoawayData | invalidWindowUpdateData | invalidBlockedData
  | invalidStopWaitingData | invalidPacketHeader
deriving DecidableEq

/-- What `RaiseError` leaves behind. -/
structure FramerError where
  error : QuicErrorCode
  detailedError : String
deriving DecidableEq

end CongestionResponse.Framer
