import CongestionResponse.Framer.Parser
import CongestionResponse.NsQuic.Datagrams

/-! `NsQuicSender` on the way back: what it does with an ack datagram.

The sender skips the header, hands the rest to the frame parser and is itself the parser's
visitor. It passes what it hears on to its `QuicSentPacketManager`, so the calls of the
manager are part of its state; of the manager's answers it uses only the least unacked
number, which is a parameter here. -/
namespace CongestionResponse.NsQuic
open Lib Quic Framer

/-- A call of `sent_packet_manager_`. -/
inductive ManagerCall where
  | onAckFrameStart (largestAcked : Nat) (ackDelayTime ackReceiveTime : Int)
  | onAckRange (start stop : Nat)
  | onAckFrameEnd (ackReceiveTime : Int)
deriving DecidableEq

structure NsQuicSender where
  sentPacketManager : List ManagerCall
  timeOfLastReceivedPacket : Int
  running : Bool
  stopWaitingCount : Nat
  largestAcked : Nat
deriving DecidableEq

namespace NsQuicSender

def new (now : Int) : NsQuicSender := ⟨[], now, true, 0, 1⟩

/-- Call the packet manager. -/
def manage (s : NsQuicSender) (call : ManagerCall) : NsQuicSender :=
  {s with sentPacketManager := s.sentPacketManager ++ [call]}

def onAckFrameStart (s : NsQuicSender) (largestAcked : Nat) (ackDelayTime : Int) : NsQuicSender :=
  let told := s.manage (.onAckFrameStart largestAcked ackDelayTime s.timeOfLastReceivedPacket)
  {told with largestAcked := if s.largestAcked ≤ largestAcked then largestAcked else s.largestAcked}

def postProcessAfterAckFrame (s : NsQuicSender) (sendStopWaiting : Bool) : NsQuicSender :=
  {s with stopWaitingCount := if sendStopWaiting then s.stopWaitingCount + 1 else 0}

section Visitor
variable (leastUnacked : List ManagerCall → Nat)

def onAckRange (s : NsQuicSender) (start stop : Nat) (lastRange : Bool) : NsQuicSender :=
  let told := s.manage (.onAckRange start stop)
  if lastRange then
    let ended := told.manage (.onAckFrameEnd s.timeOfLastReceivedPacket)
    ended.postProcessAfterAckFrame (decide (start < leastUnacked ended.sentPacketManager))
  else told

/-- The other calls are those of `AbstractQuicFramerVisitor`, which does nothing. -/
def hear (s : NsQuicSender) : Call → NsQuicSender
  | .onAckFrameStart largestAcked ackDelayTime => s.onAckFrameStart largestAcked ackDelayTime
  | .onAckRange start stop lastRange => s.onAckRange leastUnacked start stop lastRange
  | _ => s

end Visitor

/-- Neither the sender nor `AbstractQuicFramerVisitor` ever stops the parser. -/
def visitor : Visitor := fun _ _ => true

theorem visitor_accepts : visitor.Accepts := fun _ _ => rfl

/-- A header as it is constructed, with no field set. -/
def unusedHeader : QuicPacketHeader := ⟨0, .fourByte⟩

def headerLen (data : List UInt8) : Nat :=
  1 + (readSequenceNumberLength
    ((readOrZero 1 data).1 >>> kPublicHeaderSequenceNumberShift)).bytes

/-- The bytes behind the header. The datagram is copied into a buffer of fixed size, and the
length of what follows the header is computed, both unchecked: where the buffer is too small
or the header is cut short, the source leaves its buffer and nothing can be said. -/
def frameBytes (data : List UInt8) : Option (List UInt8) :=
  if data.length ≤ kMaxBufferSize ∧ headerLen data ≤ data.length then
    some (data.drop (headerLen data))
  else none

/-- What `ProcessFrameData` returns for a datagram, and the calls it makes on the way. -/
def parse (data : List UInt8) : Option (Except FramerError Unit × List Call) :=
  (frameBytes data).map fun bytes =>
    let parsed := processFrameData visitor unusedHeader ⟨bytes, []⟩
    (parsed.1, parsed.2.calls)

def onIncomingData (leastUnacked : List ManagerCall → Nat) (s : NsQuicSender) (now : Int)
    (data : List UInt8) : Option NsQuicSender :=
  if s.running then
    (parse data).map fun parsed =>
      parsed.2.foldl (hear leastUnacked) {s with timeOfLastReceivedPacket := now}
  else some s

/-- `ProcessFrameData` returns true. -/
def accepts (data : List UInt8) : Bool :=
  match parse data with
  | some (.ok _, _) => true
  | _ => false

theorem frameBytes_header (seq : Nat) {bytes : List UInt8}
    (hlength : (headerBytes seq ++ bytes).length ≤ kMaxBufferSize) :
    frameBytes (headerBytes seq ++ bytes) = some bytes := by
  obtain ⟨hflags, hseqLen⟩ := readSequenceNumberLength_publicFlags seq
  have hlen : headerLen (headerBytes seq ++ bytes) = (headerBytes seq).length := by
    rw [headerLen, headerBytes, List.cons_append, readOrZero_byte hflags, hseqLen,
      List.length_cons, length_bigEndian, Nat.add_comm]
  have hle : headerLen (headerBytes seq ++ bytes) ≤ (headerBytes seq ++ bytes).length := by
    rw [hlen, List.length_append]
    exact Nat.le_add_right _ _
  rw [frameBytes, if_pos ⟨hlength, hle⟩, hlen, List.drop_left]

end NsQuicSender
end CongestionResponse.NsQuic
