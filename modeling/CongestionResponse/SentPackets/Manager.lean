import CongestionResponse.SentPackets.LossDetection
import CongestionResponse.NsQuic.ReceivedPackets

/-! `QuicSentPacketManager`: acks, losses, timeouts and what has to be sent again.

The manager keeps the unacked packets, the packets whose data waits to be sent again, and the
numbers the peer has acked so far. It is configured as the sender of the experiment leaves it
after its construction: the handshake is confirmed, no packet carries handshake data, no packet
is paced and no session is told. The congestion controller and the smoothing of round trip
times are only called, so they are parameters; what the controller is told is part of the
state. Where the source would leave its deque, there is no result. -/
namespace CongestionResponse.SentPackets
open Quic Framer

/-- A call of `OnCongestionEvent`. -/
structure CongestionEvent where
  rttUpdated : Bool
  priorInFlight : Nat
  eventTime : Int
  ackedPackets : List AckedPacket
  lostPackets : List LostPacket

/-- The congestion controller, with a state of type `σ`: it may look at the unacked packets and
the round trip times whenever it is called. -/
structure SendAlgorithm (φ σ : Type) where
  onPacketSent : QuicUnackedPacketMap φ → RttStats → (sentTime : Int) → (bytesInFlight : Nat) →
    (packetNumber : Nat) → (bytes : UInt16) → (hasRetransmittableData : Bool) → σ → σ
  onCongestionEvent : QuicUnackedPacketMap φ → RttStats → CongestionEvent → σ → σ
  onRetransmissionTimeout : QuicUnackedPacketMap φ → RttStats → (packetsRetransmitted : Bool) →
    σ → σ
  canSend : QuicUnackedPacketMap φ → RttStats → (bytesInFlight : Nat) → σ → Bool
  bandwidthEstimate : QuicUnackedPacketMap φ → RttStats → σ → QuicBandwidth

/-- What does not change: the congestion controller, the smoothing of `RttStats::UpdateRtt`, and
the flags and limits. -/
structure Config (φ σ : Type) where
  algorithm : SendAlgorithm φ σ
  updateRtt : RttStats → (sendDelta ackDelay now : Int) → RttStats
  maxTailLossProbes : Nat
  maxRtoPackets : Nat
  useNewRto : Bool
  optimizeInflightCheck : Bool
  fixAdaptiveTimeLoss : Bool
  fixMarkForLossRetransmission : Bool

structure QuicSentPacketManager (φ σ : Type) where
  unackedPackets : QuicUnackedPacketMap φ
  /-- In the order they were put in. -/
  pendingRetransmissions : List (Nat × TransmissionType)
  sendAlgorithm : σ
  rttStats : RttStats
  lossAlgorithm : GeneralLossAlgorithm
  firstRtoTransmission : Nat
  consecutiveRtoCount : Nat
  consecutiveTlpCount : Nat
  pendingTimerTransmissionCount : Nat
  packetsAcked : List AckedPacket
  largestNewlyAcked : Nat
  lastAckFrame : QuicAckFrame
  rttUpdated : Bool
  /-- The intervals of `last_ack_frame_` from the iterator on, the newest first. -/
  ackedPacketsIter : List Interval
  /-- What the congestion controller was told, the oldest first. -/
  congestionEvents : List CongestionEvent

namespace QuicSentPacketManager
variable {φ σ : Type}

def new (lossAlgorithm : GeneralLossAlgorithm) (sendAlgorithm : σ) : QuicSentPacketManager φ σ where
  unackedPackets := .new
  pendingRetransmissions := []
  sendAlgorithm := sendAlgorithm
  rttStats := ⟨0, 0, 0⟩
  lossAlgorithm := lossAlgorithm
  firstRtoTransmission := 0
  consecutiveRtoCount := 0
  consecutiveTlpCount := 0
  pendingTimerTransmissionCount := 0
  packetsAcked := []
  largestNewlyAcked := 0
  lastAckFrame := ⟨0, Delta.infinite, .empty⟩
  rttUpdated := false
  ackedPacketsIter := []
  congestionEvents := []

variable (c : Config φ σ) (s : QuicSentPacketManager φ σ)

def getLeastUnacked : Nat := s.unackedPackets.getLeastUnacked

def setUnacked (unackedPackets : QuicUnackedPacketMap φ) : QuicSentPacketManager φ σ :=
  {s with unackedPackets := unackedPackets}

/-! ### Sending -/

def erasePending (packetNumber : Nat) (pending : List (Nat × TransmissionType)) :
    List (Nat × TransmissionType) :=
  pending.filter fun entry => entry.1 != packetNumber

def onPacketSent (packet : SerializedPacket φ) (originalPacketNumber : Nat) (sentTime : Int)
    (transmissionType : TransmissionType) (hasRetransmittableData : Bool) :
    Option (QuicSentPacketManager φ σ) := do
  let sendAlgorithm := c.algorithm.onPacketSent s.unackedPackets s.rttStats sentTime
    s.unackedPackets.bytesInFlight packet.packetNumber packet.encryptedLength
    hasRetransmittableData s.sendAlgorithm
  let unackedPackets ← s.unackedPackets.addSentPacket packet originalPacketNumber transmissionType
    sentTime hasRetransmittableData
  return {s with
    pendingRetransmissions :=
      if originalPacketNumber ≠ 0 then erasePending originalPacketNumber s.pendingRetransmissions
      else s.pendingRetransmissions
    pendingTimerTransmissionCount := s.pendingTimerTransmissionCount - 1
    sendAlgorithm := sendAlgorithm
    unackedPackets := unackedPackets}

def hasPendingRetransmissions : Bool := !s.pendingRetransmissions.isEmpty

structure QuicPendingRetransmission (φ : Type) where
  packetNumber : Nat
  transmissionType : TransmissionType
  retransmittableFrames : List φ

def nextPendingRetransmission : Option (QuicPendingRetransmission φ) := do
  let next ← s.pendingRetransmissions.head?
  let info ← s.unackedPackets.getTransmissionInfo next.1
  return ⟨next.1, next.2, info.retransmittableFrames⟩

def timeUntilSend : Int :=
  if 0 < s.pendingTimerTransmissionCount then 0
  else if c.algorithm.canSend s.unackedPackets s.rttStats s.unackedPackets.bytesInFlight
    s.sendAlgorithm then 0
  else Delta.infinite

/-! ### Losses -/

def retransmissionLeavesBytesInFlight (transmissionType : TransmissionType) : Bool :=
  decide (transmissionType = .tlpRetransmission ∨ transmissionType = .probingRetransmission ∨
    transmissionType = .rtoRetransmission)

/-- Put a packet behind those that wait, unless it waits already. -/
def addPending (packetNumber : Nat) (transmissionType : TransmissionType)
    (pending : List (Nat × TransmissionType)) : List (Nat × TransmissionType) :=
  if pending.any fun entry => entry.1 == packetNumber then pending
  else pending ++ [(packetNumber, transmissionType)]

def markForRetransmission (packetNumber : Nat) (transmissionType : TransmissionType) :
    Option (QuicSentPacketManager φ σ) := do
  let info ← s.unackedPackets.getTransmissionInfo packetNumber
  let removed :=
    if retransmissionLeavesBytesInFlight transmissionType then s
    else s.setUnacked (s.unackedPackets.removeFromInFlight packetNumber)
  if c.fixMarkForLossRetransmission && !QuicUnackedPacketMap.hasRetransmittableFrames info then
    return removed
  return {removed with
    pendingRetransmissions := addPending packetNumber transmissionType s.pendingRetransmissions}

/-- The loop of `InvokeLossDetection`. -/
def handleLoss (packet : LostPacket) : Option (QuicSentPacketManager φ σ) := do
  let info ← s.unackedPackets.getTransmissionInfo packet.packetNumber
  if c.fixMarkForLossRetransmission || QuicUnackedPacketMap.hasRetransmittableFrames info then
    s.markForRetransmission c packet.packetNumber .lossRetransmission
  else
    -- It will not be sent again: its data was acked or is on its way in a later packet.
    return s.setUnacked (s.unackedPackets.removeFromInFlight packet.packetNumber)

/-- The number `InvokeLossDetection` goes by. -/
def largestOf : Nat :=
  (s.packetsAcked.getLast?.map AckedPacket.packetNumber).getD s.largestNewlyAcked

/-- The packets that were lost are returned, as `packets_lost_` is empty at every other time. -/
def invokeLossDetection (time : Int) :
    Option (QuicSentPacketManager φ σ × List LostPacket) := do
  let detected ← s.lossAlgorithm.detectLosses
    ⟨s.unackedPackets, time, s.rttStats, s.largestOf⟩ s.packetsAcked
  let handled ← detected.2.foldlM (handleLoss c)
    {s with largestNewlyAcked := s.largestOf, lossAlgorithm := detected.1}
  return (handled, detected.2)

def maybeInvokeCongestionEvent (rttUpdated : Bool) (priorInFlight : Nat) (eventTime : Int)
    (packetsLost : List LostPacket) : QuicSentPacketManager φ σ :=
  if !rttUpdated && s.packetsAcked.isEmpty && packetsLost.isEmpty then s
  else
    let event := ⟨rttUpdated, priorInFlight, eventTime, s.packetsAcked, packetsLost⟩
    {s with
      sendAlgorithm :=
        c.algorithm.onCongestionEvent s.unackedPackets s.rttStats event s.sendAlgorithm
      packetsAcked := []
      congestionEvents := s.congestionEvents ++ [event]}

/-! ### Acks -/

def maybeUpdateRTT (largestAcked : Nat) (ackDelayTime ackReceiveTime : Int) : Bool × RttStats :=
  if s.unackedPackets.isUnacked largestAcked then
    match s.unackedPackets.getTransmissionInfo largestAcked with
    | some info =>
      if info.sentTime = 0 then (false, s.rttStats)
      else (true, c.updateRtt s.rttStats (ackReceiveTime - info.sentTime) ackDelayTime
        ackReceiveTime)
    | none => (false, s.rttStats)
  else (false, s.rttStats)

def onAckFrameStart (largestAcked : Nat) (ackDelayTime ackReceiveTime : Int) :
    QuicSentPacketManager φ σ :=
  let updated := s.maybeUpdateRTT c largestAcked ackDelayTime ackReceiveTime
  {s with
    rttUpdated := updated.1
    rttStats := updated.2
    lastAckFrame := {s.lastAckFrame with ackDelayTime := ackDelayTime}
    ackedPacketsIter := s.lastAckFrame.packets.intervals.reverse}

/-- The numbers from `start` to `stop`, the largest first. -/
def descending (start stop : Nat) : List Nat := (List.range' start (stop - start)).reverse

/-- The loop of `OnAckRange` over the intervals that were acked before: the numbers between them
are new, and the intervals the next range has to look at are left. -/
def newlyAcked (start : Nat) : List Interval → Nat → List Nat × List Interval
  | [], stop => (descending start stop, [])
  | i :: older, stop =>
    let above := descending (max start i.max) stop
    if i.min < start then (above, i :: older)
    else
      let stop' := min stop i.min
      if start < stop' then
        let below := newlyAcked start older stop'
        (above ++ below.1, below.2)
      else (above, older)

def increaseLargestAcked (largestAcked : Nat) : QuicSentPacketManager φ σ :=
  {s with
    unackedPackets := s.unackedPackets.increaseLargestAcked largestAcked
    lastAckFrame := {s.lastAckFrame with largestAcked := largestAcked}}

/-- `OnAckRange` once the largest acked number is up to date. -/
def addNewlyAcked (start stop : Nat) : QuicSentPacketManager φ σ :=
  if stop ≤ s.getLeastUnacked then s
  else
    let found := newlyAcked (max start s.getLeastUnacked) s.ackedPacketsIter stop
    {s with
      packetsAcked := s.packetsAcked ++ found.1.map fun n => ⟨n, 0⟩
      ackedPacketsIter := found.2}

def onAckRange (start stop : Nat) : QuicSentPacketManager φ σ :=
  let raised :=
    if s.lastAckFrame.largestAcked + 1 < stop then s.increaseLargestAcked (stop - 1) else s
  raised.addNewlyAcked start stop

/-- `RecordSpuriousRetransmissions`, without its statistics. -/
def recordSpuriousRetransmissions (now : Int) (info : QuicTransmissionInfo φ) :
    Option GeneralLossAlgorithm := do
  let retransmission ← s.unackedPackets.getTransmissionInfo info.retransmission
  if retransmission.transmissionType = .lossRetransmission then
    s.lossAlgorithm.spuriousRetransmitDetected c.fixAdaptiveTimeLoss s.unackedPackets now
      s.rttStats info.retransmission
  else return s.lossAlgorithm

/-- An ack for a packet that was sent again tells that this was not needed. -/
def checkSpurious (now : Int) (packetNumber newestTransmission : Nat)
    (info : QuicTransmissionInfo φ) : Option GeneralLossAlgorithm :=
  if newestTransmission = packetNumber then some s.lossAlgorithm
  else s.recordSpuriousRetransmissions c now info

def settled (info : QuicTransmissionInfo φ) : QuicTransmissionInfo φ := {info with state := .acked}

def markPacketHandled (now : Int) (packetNumber : Nat) : Option (QuicSentPacketManager φ σ) := do
  let info ← s.unackedPackets.getTransmissionInfo packetNumber
  let newestTransmission ← s.unackedPackets.getNewestRetransmission packetNumber
  let lossAlgorithm ← s.checkSpurious c now packetNumber newestTransmission info
  let forgotten ←
    (s.unackedPackets.removeFromInFlight packetNumber).removeRetransmittability packetNumber
  return {s with
    pendingRetransmissions := erasePending newestTransmission s.pendingRetransmissions
    lossAlgorithm := lossAlgorithm
    unackedPackets := forgotten.modify packetNumber settled}

def addAcked (packetNumber : Nat) : QuicSentPacketManager φ σ :=
  {s with lastAckFrame :=
    {s.lastAckFrame with packets := s.lastAckFrame.packets.add packetNumber}}

/-- The loop of `OnAckFrameEnd`; the acked packets are returned with their bytes. -/
def handleAcked (now : Int) (state : QuicSentPacketManager φ σ × List AckedPacket)
    (acked : AckedPacket) : Option (QuicSentPacketManager φ σ × List AckedPacket) := do
  let s := state.1
  let info ← s.unackedPackets.getTransmissionInfo acked.packetNumber
  if isAckable info.state then
    let s := s.addAcked acked.packetNumber
    let s := if info.inFlight then s else {s with largestNewlyAcked := acked.packetNumber}
    let handled ← s.markPacketHandled c now acked.packetNumber
    return (handled, state.2 ++
      [if info.inFlight then {acked with bytesAcked := info.bytesSent.toNat} else acked])
  else return (s, state.2 ++ [acked])

/-- `RttStats::ExpireSmoothedMetrics`. -/
def expireSmoothedMetrics (rttStats : RttStats) : RttStats :=
  {rttStats with smoothedRtt := max rttStats.smoothedRtt rttStats.latestRtt}

/-- A new round trip time ends a series of timeouts. -/
def resetTimeouts : QuicSentPacketManager φ σ :=
  if s.rttUpdated then
    let ended :=
      if 0 < s.consecutiveRtoCount then
        if s.lastAckFrame.largestAcked < s.firstRtoTransmission then
          {s with rttStats := expireSmoothedMetrics s.rttStats}
        else if !c.useNewRto then
          {s with sendAlgorithm :=
            c.algorithm.onRetransmissionTimeout s.unackedPackets s.rttStats true s.sendAlgorithm}
        else s
      else s
    {ended with consecutiveRtoCount := 0, consecutiveTlpCount := 0}
  else s

/-- The end of `PostProcessAfterMarkingPacketHandled`. -/
def dropObsolete : QuicSentPacketManager φ σ :=
  let cleared := (s.setUnacked s.unackedPackets.removeObsoletePackets).resetTimeouts c
  {cleared with lastAckFrame := {cleared.lastAckFrame with
    packets := (cleared.lastAckFrame.packets.removeUpTo cleared.getLeastUnacked).2}}

def postProcessAfterMarkingPacketHandled (ackReceiveTime : Int) (priorBytesInFlight : Nat) :
    Option (QuicSentPacketManager φ σ) := do
  let detected ← s.invokeLossDetection c ackReceiveTime
  let packetsLost := if 0 < s.consecutiveRtoCount ∧ !c.useNewRto then [] else detected.2
  let told := detected.1.maybeInvokeCongestionEvent c s.rttUpdated priorBytesInFlight
    ackReceiveTime packetsLost
  return told.dropObsolete c

def onAckFrameEnd (ackReceiveTime now : Int) : Option (QuicSentPacketManager φ σ) := do
  let priorBytesInFlight := s.unackedPackets.bytesInFlight
  let handled ← s.packetsAcked.reverse.foldlM (handleAcked c now) (s, [])
  {handled.1 with packetsAcked := handled.2}.postProcessAfterMarkingPacketHandled c
    ackReceiveTime priorBytesInFlight

/-! ### Timeouts -/

inductive RetransmissionTimeoutMode where
  | rtoMode | tlpMode | lossMode
deriving DecidableEq

def getRetransmissionMode : RetransmissionTimeoutMode :=
  if s.lossAlgorithm.lossDetectionTimeout ≠ 0 then .lossMode
  else if s.consecutiveTlpCount < c.maxTailLossProbes ∧
    (c.optimizeInflightCheck || s.unackedPackets.hasUnackedRetransmittableFrames) then .tlpMode
  else .rtoMode

/-- The loop of `RetransmitRtoPackets`. -/
def handleRto (packetNumber : Nat) : Option (QuicSentPacketManager φ σ) := do
  let info ← s.unackedPackets.getTransmissionInfo packetNumber
  let hasFrames := QuicUnackedPacketMap.hasRetransmittableFrames info
  let marked ←
    if hasFrames && decide (s.pendingTimerTransmissionCount < c.maxRtoPackets) then do
      let marked ← s.markForRetransmission c packetNumber .rtoRetransmission
      pure {marked with
        pendingTimerTransmissionCount := s.pendingTimerTransmissionCount + 1}
    else pure s
  -- Data that is in flight and cannot be sent again is abandoned.
  if info.inFlight && decide (info.retransmission = 0) && !hasFrames then
    return marked.setUnacked (marked.unackedPackets.removeFromInFlight packetNumber)
  else return marked

def packetNumbers (m : QuicUnackedPacketMap φ) : List Nat :=
  List.range' m.getLeastUnacked m.unackedPackets.items.length

def retransmitRtoPackets : Option (QuicSentPacketManager φ σ) := do
  let s ← (packetNumbers s.unackedPackets).foldlM (handleRto c) s
  if 0 < s.pendingTimerTransmissionCount then
    return {s with
      firstRtoTransmission :=
        if s.consecutiveRtoCount = 0 then s.unackedPackets.largestSentPacket + 1
        else s.firstRtoTransmission
      consecutiveRtoCount := s.consecutiveRtoCount + 1}
  else return s

def onRetransmissionTimeout (now : Int) : Option (QuicSentPacketManager φ σ) :=
  match s.getRetransmissionMode c with
  | .lossMode => do
    let detected ← s.invokeLossDetection c now
    return detected.1.maybeInvokeCongestionEvent c false s.unackedPackets.bytesInFlight now
      detected.2
  | .tlpMode =>
    some {s with
      consecutiveTlpCount := s.consecutiveTlpCount + 1
      pendingTimerTransmissionCount := 1}
  | .rtoMode => s.retransmitRtoPackets c

/-- The packet `MaybeRetransmitOldestPacket` finds. -/
def oldestRetransmittable : Option Nat :=
  (packetNumbers s.unackedPackets).find? fun n =>
    match s.unackedPackets.getTransmissionInfo n with
    | some info => info.inFlight && QuicUnackedPacketMap.hasRetransmittableFrames info
    | none => false

def maybeRetransmitTailLossProbe : Option (Bool × QuicSentPacketManager φ σ) :=
  if s.pendingTimerTransmissionCount = 0 then some (false, s)
  else
    match s.oldestRetransmittable with
    | some packetNumber =>
      (s.markForRetransmission c packetNumber .tlpRetransmission).map fun marked => (true, marked)
    | none =>
      if c.optimizeInflightCheck then
        ({s with pendingTimerTransmissionCount := 0}.retransmitRtoPackets c).map
          fun abandoned => (false, abandoned)
      else some (false, s)

end QuicSentPacketManager
end CongestionResponse.SentPackets
