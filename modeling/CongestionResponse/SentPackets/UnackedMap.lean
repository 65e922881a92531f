import CongestionResponse.Lib.NumberedQueue
import CongestionResponse.Quic.Units

/-! `QuicUnackedPacketMap`: the packets that were sent and are still of use.

A packet is of use while it is in flight, while its data may have to be sent again, or while
its ack would measure the round trip. Data that is sent again moves to the new packet, and the
old one keeps a link to it; so the transmissions of one piece of data form a chain, the last of
which holds the frames. The map is used as the sender of the experiment has it: no packet
carries handshake data and the session does not decide what to write.

Where the source would read outside its deque, or follow links for ever, the functions here
have no result. -/
namespace CongestionResponse.SentPackets
open Lib Quic

inductive TransmissionType where
  | notRetransmission | handshakeRetransmission | allUnackedRetransmission
  | allInitialRetransmission | lossRetransmission | rtoRetransmission | tlpRetransmission
  | probingRetransmission
deriving DecidableEq

inductive SentPacketState where
  | outstanding | neverSent | acked | unackable | handshakeRetransmitted | lost
  | tlpRetransmitted | rtoRetransmitted | probeRetransmitted
deriving DecidableEq

def isAckable (state : SentPacketState) : Bool :=
  decide (state ≠ .neverSent ∧ state ≠ .acked ∧ state ≠ .unackable)

/-- A packet that was sent, with frames of type `φ`. -/
structure QuicTransmissionInfo (φ : Type) where
  retransmittableFrames : List φ
  bytesSent : UInt16
  sentTime : Int
  transmissionType : TransmissionType
  inFlight : Bool
  state : SentPacketState
  /-- The number of the packet its data was sent again in, or 0. -/
  retransmission : Nat

def QuicTransmissionInfo.new {φ : Type} (transmissionType : TransmissionType) (sentTime : Int)
    (bytesSent : UInt16) : QuicTransmissionInfo φ :=
  ⟨[], bytesSent, sentTime, transmissionType, false, .outstanding, 0⟩

/-- The info of a number that was skipped. -/
def QuicTransmissionInfo.neverSent {φ : Type} : QuicTransmissionInfo φ :=
  ⟨[], 0, 0, .notRetransmission, false, .neverSent, 0⟩

structure SerializedPacket (φ : Type) where
  packetNumber : Nat
  encryptedLength : UInt16
  retransmittableFrames : List φ

structure QuicUnackedPacketMap (φ : Type) where
  largestSentPacket : Nat
  largestSentRetransmittablePacket : Nat
  largestAcked : Nat
  /-- The deque, whose first packet is `least_unacked_`. -/
  unackedPackets : NumberedQueue (QuicTransmissionInfo φ)
  bytesInFlight : Nat

namespace QuicUnackedPacketMap
variable {φ : Type}

def new : QuicUnackedPacketMap φ := ⟨0, 0, 0, ⟨1, []⟩, 0⟩

variable (m : QuicUnackedPacketMap φ)

def getLeastUnacked : Nat := m.unackedPackets.first

/-- `GetTransmissionInfo`, for a number of the deque. -/
def getTransmissionInfo (packetNumber : Nat) : Option (QuicTransmissionInfo φ) :=
  m.unackedPackets.get? packetNumber

def modify (packetNumber : Nat) (f : QuicTransmissionInfo φ → QuicTransmissionInfo φ) :
    QuicUnackedPacketMap φ :=
  {m with unackedPackets := m.unackedPackets.modify packetNumber f}

/-! ### Use of a packet -/

def hasRetransmittableFrames (info : QuicTransmissionInfo φ) : Bool :=
  !info.retransmittableFrames.isEmpty

def isPacketUsefulForMeasuringRtt (packetNumber : Nat) (info : QuicTransmissionInfo φ) : Bool :=
  isAckable info.state && decide (m.largestAcked < packetNumber)

def isPacketUsefulForCongestionControl (info : QuicTransmissionInfo φ) : Bool := info.inFlight

def isPacketUsefulForRetransmittableData (info : QuicTransmissionInfo φ) : Bool :=
  decide (m.largestAcked < info.retransmission) || hasRetransmittableFrames info

def isPacketUseless (packetNumber : Nat) (info : QuicTransmissionInfo φ) : Bool :=
  !m.isPacketUsefulForMeasuringRtt packetNumber info &&
    !isPacketUsefulForCongestionControl info && !m.isPacketUsefulForRetransmittableData info

def isUnacked (packetNumber : Nat) : Bool :=
  match m.getTransmissionInfo packetNumber with
  | some info => !m.isPacketUseless packetNumber info
  | none => false

def removeObsoletePackets : QuicUnackedPacketMap φ :=
  {m with unackedPackets := m.unackedPackets.dropWhile m.isPacketUseless}

/-! ### Sending -/

/-- What is left of a packet whose data is sent again as the packet `newPacketNumber`. It is not
linked to the new packet where the version or the encryption changed. -/
def handOver (newPacketNumber : Nat) (transmissionType : TransmissionType) (frames : List φ)
    (old : QuicTransmissionInfo φ) : QuicTransmissionInfo φ :=
  let swapped := {old with retransmittableFrames := frames}
  if transmissionType = .allInitialRetransmission ∨ transmissionType = .allUnackedRetransmission
  then {swapped with state := .unackable}
  else {swapped with retransmission := newPacketNumber}

/-- The frames move to the new packet, and the old one is linked to it. -/
def transferRetransmissionInfo (oldPacketNumber newPacketNumber : Nat)
    (transmissionType : TransmissionType) (info : QuicTransmissionInfo φ) :
    Option (QuicUnackedPacketMap φ × QuicTransmissionInfo φ) :=
  if oldPacketNumber < m.getLeastUnacked then some (m, info)
  else if m.largestSentPacket < oldPacketNumber then some (m, info)
  else do
    let old ← m.getTransmissionInfo oldPacketNumber
    let transferred := m.modify oldPacketNumber
      (handOver newPacketNumber transmissionType info.retransmittableFrames)
    return (transferred.removeObsoletePackets,
      {info with retransmittableFrames := old.retransmittableFrames})

/-- The start of `AddSentPacket`: the numbers before the new packet's are skipped. -/
def skip (packetNumber : Nat) : QuicUnackedPacketMap φ :=
  {m with unackedPackets := m.unackedPackets.fill .neverSent packetNumber}

/-- The end of `AddSentPacket`: the new packet enters the deque. -/
def enter (packet : SerializedPacket φ) (setInFlight : Bool) (info : QuicTransmissionInfo φ) :
    QuicUnackedPacketMap φ :=
  {m with
    largestSentPacket := packet.packetNumber
    largestSentRetransmittablePacket :=
      if setInFlight then packet.packetNumber else m.largestSentRetransmittablePacket
    bytesInFlight :=
      if setInFlight then (m.bytesInFlight + packet.encryptedLength.toNat) % 2 ^ 64
      else m.bytesInFlight
    unackedPackets := m.unackedPackets.push {info with inFlight := setInFlight}}

def addSentPacket (packet : SerializedPacket φ) (oldPacketNumber : Nat)
    (transmissionType : TransmissionType) (sentTime : Int) (setInFlight : Bool) :
    Option (QuicUnackedPacketMap φ) := do
  let filled := m.skip packet.packetNumber
  let info := QuicTransmissionInfo.new transmissionType sentTime packet.encryptedLength
  let transferred ←
    if 0 < oldPacketNumber then
      filled.transferRetransmissionInfo oldPacketNumber packet.packetNumber transmissionType info
    else some (filled, info)
  return transferred.1.enter packet setInFlight
    (if oldPacketNumber = 0 then
      {transferred.2 with retransmittableFrames := packet.retransmittableFrames}
    else transferred.2)

/-! ### Settling -/

def increaseLargestAcked (largestAcked : Nat) : QuicUnackedPacketMap φ :=
  {m with largestAcked := largestAcked}

def removeFromInFlight (packetNumber : Nat) : QuicUnackedPacketMap φ :=
  match m.getTransmissionInfo packetNumber with
  | some info =>
    if info.inFlight then
      {m.modify packetNumber fun info => {info with inFlight := false} with
        bytesInFlight := subU64 m.bytesInFlight info.bytesSent.toNat}
    else m
  | none => m

/-- The loop of `RemoveRetransmittability` along the links, with a bound on their number. -/
def removeRetransmittabilityFrom : Nat → QuicUnackedPacketMap φ → Nat →
    Option (QuicUnackedPacketMap φ)
  | 0, _, _ => none
  | rounds + 1, m, packetNumber => do
    let info ← m.getTransmissionInfo packetNumber
    if info.retransmission ≠ 0 then
      removeRetransmittabilityFrom rounds
        (m.modify packetNumber fun info => {info with retransmission := 0}) info.retransmission
    else return m.modify packetNumber fun info => {info with retransmittableFrames := []}

/-- There are no more links than packets. -/
def removeRetransmittability (packetNumber : Nat) : Option (QuicUnackedPacketMap φ) :=
  removeRetransmittabilityFrom m.unackedPackets.items.length m packetNumber

/-- The loop of `GetNewestRetransmission`, with a bound on the number of links. -/
def newestRetransmissionFrom : Nat → Nat → Option Nat
  | 0, _ => none
  | rounds + 1, packetNumber => do
    let info ← m.getTransmissionInfo packetNumber
    if info.retransmission ≠ 0 then newestRetransmissionFrom rounds info.retransmission
    else return packetNumber

def getNewestRetransmission (packetNumber : Nat) : Option Nat :=
  m.newestRetransmissionFrom m.unackedPackets.items.length packetNumber

/-! ### Asking -/

def hasUnackedRetransmittableFrames : Bool :=
  m.unackedPackets.items.any fun info => info.inFlight && hasRetransmittableFrames info

end QuicUnackedPacketMap
end CongestionResponse.SentPackets
