import CongestionResponse.Quic.PacketQueue
import CongestionResponse.Quic.Units

/-! `BandwidthSampler`: the sampler of the QUIC library, from which `MySampler` was taken.

What it logs is left out. -/
namespace CongestionResponse.Quic

inductive HasRetransmittableData where
  | noRetransmittableData | hasRetransmittableData
deriving DecidableEq

structure BandwidthSample where
  bandwidth : QuicBandwidth
  rtt : Int
  isAppLimited : Bool

def BandwidthSample.empty : BandwidthSample := ⟨.zero, 0, false⟩

/-- The snapshot taken when a packet is sent. -/
structure ConnectionStateOnSentPacket where
  sentTime : Int
  size : Nat
  totalBytesSent : Nat
  totalBytesSentAtLastAckedPacket : Nat
  lastAckedPacketSentTime : Int
  lastAckedPacketAckTime : Int
  totalBytesAckedAtTheLastAckedPacket : Nat
  isAppLimited : Bool

structure BandwidthSampler where
  totalBytesSent : Nat
  totalBytesAcked : Nat
  totalBytesSentAtLastAckedPacket : Nat
  lastAckedPacketSentTime : Int
  lastAckedPacketAckTime : Int
  lastSentPacket : Nat
  isAppLimited : Bool
  endOfAppLimitedPhase : Nat
  connectionStateMap : PacketNumberIndexedQueue ConnectionStateOnSentPacket

namespace BandwidthSampler

def new : BandwidthSampler := ⟨0, 0, 0, 0, 0, 0, false, 0, .empty⟩

variable (s : BandwidthSampler)

/-- The snapshot constructor of `ConnectionStateOnSentPacket`. -/
def snapshot (sentTime : Int) (size : Nat) : ConnectionStateOnSentPacket where
  sentTime := sentTime
  size := size
  totalBytesSent := s.totalBytesSent
  totalBytesSentAtLastAckedPacket := s.totalBytesSentAtLastAckedPacket
  lastAckedPacketSentTime := s.lastAckedPacketSentTime
  lastAckedPacketAckTime := s.lastAckedPacketAckTime
  totalBytesAckedAtTheLastAckedPacket := s.totalBytesAcked
  isAppLimited := s.isAppLimited

/-- If there are no packets in flight, the time at which the new transmission opens can be
treated as the last acknowledgement. -/
def openTransmission (sentTime : Int) (bytesInFlight : Nat) : BandwidthSampler :=
  if bytesInFlight = 0 then
    {s with
      lastAckedPacketAckTime := sentTime
      totalBytesSentAtLastAckedPacket := s.totalBytesSent
      lastAckedPacketSentTime := sentTime}
  else s

def onPacketSent (sentTime : Int) (packetNumber bytes bytesInFlight : Nat)
    (retransmittable : HasRetransmittableData) : BandwidthSampler :=
  let s := {s with lastSentPacket := packetNumber}
  if retransmittable ≠ .hasRetransmittableData then s
  else
    let s := {s with totalBytesSent := s.totalBytesSent + bytes}
    let s := s.openTransmission sentTime bytesInFlight
    {s with
      connectionStateMap :=
        (s.connectionStateMap.emplace packetNumber (s.snapshot sentTime bytes)).2}

/-- The sample of an acknowledged packet, once its bytes are counted in. -/
def sampleOf (ackTime : Int) (sentPacket : ConnectionStateOnSentPacket) : BandwidthSample :=
  -- There might have been no packets acknowledged at the moment when the packet was sent.
  if sentPacket.lastAckedPacketSentTime = 0 then .empty
  else
    let sendRate :=
      if sentPacket.lastAckedPacketSentTime < sentPacket.sentTime then
        QuicBandwidth.fromBytesAndTimeDelta
          (subU64 sentPacket.totalBytesSent sentPacket.totalBytesSentAtLastAckedPacket)
          (sentPacket.sentTime - sentPacket.lastAckedPacketSentTime)
      else .infinite
    -- The ack time has to be larger than that of the previous packet.
    if ackTime ≤ sentPacket.lastAckedPacketAckTime then .empty
    else
      let ackRate := QuicBandwidth.fromBytesAndTimeDelta
        (subU64 s.totalBytesAcked sentPacket.totalBytesAckedAtTheLastAckedPacket)
        (ackTime - sentPacket.lastAckedPacketAckTime)
      { bandwidth := min sendRate ackRate
        rtt := ackTime - sentPacket.sentTime
        isAppLimited := sentPacket.isAppLimited }

/-- Exit the app-limited phase once a packet sent after it is acknowledged. -/
def leaveAppLimited (packetNumber : Nat) : BandwidthSampler :=
  if s.isAppLimited ∧ s.endOfAppLimitedPhase < packetNumber then {s with isAppLimited := false}
  else s

def onPacketAcknowledgedInner (ackTime : Int) (packetNumber : Nat)
    (sentPacket : ConnectionStateOnSentPacket) : BandwidthSample × BandwidthSampler :=
  let s := {s with
    totalBytesAcked := s.totalBytesAcked + sentPacket.size
    totalBytesSentAtLastAckedPacket := sentPacket.totalBytesSent
    lastAckedPacketSentTime := sentPacket.sentTime
    lastAckedPacketAckTime := ackTime}
  let s := s.leaveAppLimited packetNumber
  (s.sampleOf ackTime sentPacket, s)

def onPacketAcknowledged (ackTime : Int) (packetNumber : Nat) :
    BandwidthSample × BandwidthSampler :=
  match s.connectionStateMap.getEntry packetNumber with
  | none => (.empty, s)
  | some sentPacket =>
    let (sample, s) := s.onPacketAcknowledgedInner ackTime packetNumber sentPacket
    (sample, {s with connectionStateMap := (s.connectionStateMap.remove packetNumber).2})

def onPacketLost (packetNumber : Nat) : BandwidthSampler :=
  {s with connectionStateMap := (s.connectionStateMap.remove packetNumber).2}

def onAppLimited : BandwidthSampler :=
  {s with isAppLimited := true, endOfAppLimitedPhase := s.lastSentPacket}

end BandwidthSampler
end CongestionResponse.Quic
