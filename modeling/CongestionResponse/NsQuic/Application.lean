import CongestionResponse.NsQuic.Receiver
import CongestionResponse.NsQuic.AckEffects
import CongestionResponse.SentPackets.Credits

/-! `NsQuicSender` as a whole, with its packet manager.

At a heart beat the sender sends the data of lost packets again, as long as the congestion
controller lets it, then a stop-waiting frame if it is time for one, and then a new packet. Every
datagram with data takes the next number. What the sender hears from the frame parser it passes
on to its packet manager.

The stream frame of a new packet is known here by the number of that packet; which packet carried
which frames is recorded on the side (`carried`). Where the manager would leave its deque there is
no result, and neither is there one where the sender would leave its buffer. -/
namespace CongestionResponse.NsQuic.Application
open Lib Quic Framer SentPackets

structure NsQuicSender (σ : Type) where
  sentPacketManager : QuicSentPacketManager Nat σ
  timeOfLastReceivedPacket : Int
  lastRateTs : Int
  running : Bool
  seq : Nat
  stopWaitingCount : Nat
  largestAcked : Nat
  /-- The packets that were sent, with their frames. -/
  carried : List (Nat × List Nat)

namespace NsQuicSender
variable {σ : Type}

def new (lossAlgorithm : GeneralLossAlgorithm) (sendAlgorithm : σ) (now : Int) :
    NsQuicSender σ where
  sentPacketManager := .new lossAlgorithm sendAlgorithm
  timeOfLastReceivedPacket := now
  lastRateTs := 0
  running := true
  seq := 1
  stopWaitingCount := 0
  largestAcked := 1
  carried := []

variable (c : Config Nat σ) (s : NsQuicSender σ)

/-! ### Sending -/

/-- The length the manager is told for a packet: the header and the type are not counted. -/
def payload (seq : Nat) : UInt16 :=
  UInt16.ofNat (kPaddingSize - (1 + (getMinSeqLength seq).bytes + 1))

/-- The manager hears of a packet, and the next number is up. -/
def sendPacket (frames : List Nat) (originalPacketNumber : Nat) (now : Int)
    (transmissionType : TransmissionType) : Option (NsQuicSender σ) := do
  let manager ← s.sentPacketManager.onPacketSent c ⟨s.seq, payload s.seq, frames⟩
    originalPacketNumber now transmissionType true
  return {s with
    sentPacketManager := manager
    seq := s.seq + 1
    carried := s.carried ++ [(s.seq, frames)]}

def sendFakePacket (now : Int) : Option (NsQuicSender σ × List Output) := do
  let sent ← s.sendPacket c [s.seq] 0 now .notRetransmission
  return (sent, [.toNetwork (NsQuic.sendFakePacket s.seq now)])

def onRetransPacket (pending : QuicSentPacketManager.QuicPendingRetransmission Nat) (now : Int) :
    Option (NsQuicSender σ × List Output) := do
  let sent ← s.sendPacket c pending.retransmittableFrames pending.packetNumber now
    .lossRetransmission
  return (sent, [.toNetwork (NsQuic.onRetransPacket s.seq now)])

/-- The loop of `SendRetransmission`, for at most so many rounds. -/
def sendRetransmissions (now : Int) : Nat → NsQuicSender σ →
    Option (NsQuicSender σ × List Output)
  | 0, _ => none
  | rounds + 1, s =>
    if s.sentPacketManager.timeUntilSend c = 0 ∧
        s.sentPacketManager.hasPendingRetransmissions = true then do
      let pending ← s.sentPacketManager.nextPendingRetransmission
      let sent ← s.onRetransPacket c pending now
      let others ← sendRetransmissions now rounds sent.1
      return (others.1, sent.2 ++ others.2)
    else some (s, [])

/-- Every round takes one of the packets that wait. -/
def sendRetransmission (now : Int) : Option (NsQuicSender σ × List Output) :=
  sendRetransmissions c now (s.sentPacketManager.pendingRetransmissions.length + 1) s

def sendStopWaitingFrame : NsQuicSender σ × List Output :=
  ({s with stopWaitingCount := 0},
    [.toNetwork (NsQuic.sendStopWaitingFrame s.seq s.sentPacketManager.getLeastUnacked)])

/-! ### Heart beats -/

def bandwidthEstimate : QuicBandwidth :=
  c.algorithm.bandwidthEstimate s.sentPacketManager.unackedPackets s.sentPacketManager.rttStats
    s.sentPacketManager.sendAlgorithm

def recordRate (now : Int) : NsQuicSender σ × List Output :=
  if s.lastRateTs = 0 then ({s with lastRateTs := now + Delta.fromMilliseconds 100}, [])
  else if s.lastRateTs < now then
    ({s with lastRateTs := now + Delta.fromMilliseconds 100},
      [.traceRate (toU32 (s.bandwidthEstimate c).toKBitsPerSecond)])
  else (s, [])

def maybeSendStopWaitingFrame : NsQuicSender σ × List Output :=
  if 2 < s.stopWaitingCount then s.sendStopWaitingFrame else (s, [])

def maybeSendFakePacket (now : Int) : Option (NsQuicSender σ × List Output) :=
  if s.sentPacketManager.timeUntilSend c = 0 then s.sendFakePacket c now else some (s, [])

def heartBeat (now : Int) : Option (NsQuicSender σ × List Output) :=
  if s.running then do
    let rate := s.recordRate c now
    let again ← rate.1.sendRetransmission c now
    let stopWaiting := again.1.maybeSendStopWaitingFrame
    let fake ← stopWaiting.1.maybeSendFakePacket c now
    return (fake.1, rate.2 ++ (again.2 ++ (stopWaiting.2 ++ fake.2)))
  else some (s, [])

/-! ### Acks -/

def onAckFrameStart (largestAcked : Nat) (ackDelayTime : Int) : NsQuicSender σ :=
  {s with
    sentPacketManager := s.sentPacketManager.onAckFrameStart c largestAcked ackDelayTime
      s.timeOfLastReceivedPacket
    largestAcked := if s.largestAcked ≤ largestAcked then largestAcked else s.largestAcked}

def postProcessAfterAckFrame (sendStopWaiting : Bool) : NsQuicSender σ :=
  {s with stopWaitingCount := if sendStopWaiting then s.stopWaitingCount + 1 else 0}

/-- The clock has not moved since the datagram was received. -/
def onAckRange (start stop : Nat) (lastRange : Bool) : Option (NsQuicSender σ) :=
  let told := {s with sentPacketManager := s.sentPacketManager.onAckRange start stop}
  if lastRange then do
    let manager ← told.sentPacketManager.onAckFrameEnd c s.timeOfLastReceivedPacket
      s.timeOfLastReceivedPacket
    return {told with sentPacketManager := manager}.postProcessAfterAckFrame
      (decide (start < manager.getLeastUnacked))
  else some told

def hear : Call → Option (NsQuicSender σ)
  | .onAckFrameStart largestAcked ackDelayTime =>
    some (s.onAckFrameStart c largestAcked ackDelayTime)
  | .onAckRange start stop lastRange => s.onAckRange c start stop lastRange
  | _ => some s

def onIncomingData (now : Int) (data : List UInt8) : Option (NsQuicSender σ) :=
  if s.running then do
    let parsed ← NsQuic.NsQuicSender.parse data
    parsed.2.foldlM (hear c) {s with timeOfLastReceivedPacket := now}
  else some s

end NsQuicSender
end CongestionResponse.NsQuic.Application
