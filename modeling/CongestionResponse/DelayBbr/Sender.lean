import CongestionResponse.Lib.Run
import CongestionResponse.Quic.Bbr
import CongestionResponse.Quic.WindowedFilter
import CongestionResponse.DelayBbr.Sampler

/-! `MyBbrSenderV5`: the delay-constrained BBR sender.

The class's members, under their own names, are grouped by what writes them:
`Ledger` (packets and bytes in flight, with the sampler), `RttRecord`, `Rounds`,
`BandwidthRecord`, `Control` (the mode machine and the gain cycle) and `Rates`.
Two fields are not in the source and nothing reads them: `modeLog` records every
assignment to `mode_`, `rateLog` every rate change that is reported.

`onAck` is cut where the source calls a helper. Three helpers are cut once more,
`UpdateRttAndInflight`, `MaybeEnterOrExitDecrease` and `MaybeExitStartupOrDrain`,
each into its two halves. What `onAck` does after the sampler has returned is
`manage`. -/
namespace CongestionResponse.DelayBbr
open Lib Quic

/-! ### Constants -/

def kPacingGain : List BinaryFloat :=
  [hundredths 111, hundredths 90, .one, .one, .one, .one, .one, .one]
def kBandwidthWindowSize : Nat := kGainCycleLength + 2
def kDefaultHighGain : BinaryFloat := ⟨2, 0⟩
/-- `1.0 / kDefaultHighGain`. -/
def kDrainGain : BinaryFloat := ⟨1, -1⟩
def kStartupGrowthTarget : BinaryFloat := hundredths 125
def kRoundTripsWithoutGrowthBeforeExitingStartup : Nat := 3
def kInitialCongestionWindow : Nat := 10 * 1000
def kTolerableDelayFactor : BinaryFloat := hundredths 120
def kSmoothRttNum : Int := 95
def kSmoothRttDen : Int := 100
def ccDelay : Nat := 2

/-! ### State -/

inductive Mode where
  | start | drain | increase | decrease
deriving DecidableEq

structure PerPacket where
  sentTs : Int
  bytes : Nat

/-- One assignment to `mode_`: from what, to what, and `is_at_full_bandwidth_` at the time. -/
structure ModeChange where
  old : Mode
  new : Mode
  atFullBandwidth : Bool
deriving DecidableEq

structure Ledger where
  lastSentPacket : Nat
  lastAckSeq : Nat
  sentPacketsMap : OrderedMap Nat PerPacket
  bytesInFlight : Nat
  sampler : MySampler

structure RttRecord extends MinRtt where
  sRtt : Int
  baseLineRtt : Int
  baseLineRttTimestamp : Int
  seqAtBackoff : Nat
  minRttInDecrease : Int
  minRttTimestampInDecrease : Int
  minRttRecord : Int

structure Rounds where
  currentRoundTripEnd : Nat
  roundTripCount : Nat

structure BandwidthRecord where
  maxBandwidth : WindowedFilter QuicBandwidth
  isAtFullBandwidth : Bool
  roundsWithoutBandwidthGain : Nat
  bandwidthAtLastRound : QuicBandwidth
  maxBwInIncrease : QuicBandwidth

structure Control where
  mode : Mode
  pacingGain : BinaryFloat
  cycleCurrentOffset : Nat
  lastCycleStart : Int
  random : MyQuicRandom
  exitProbeRttAt : Int
  minRttExpired : Bool
  bdp : Nat
  lastBackoffCount : Nat
  congestionBackoffFlag : Bool
  congestionRecvSeq : Nat
  congestionRecvCutSeq : Nat
  modeLog : List ModeChange

structure Rates where
  minBw : QuicBandwidth
  pacingRate : QuicBandwidth
  referenceRate : QuicBandwidth
  /-- What the trace callback is given: the rate in bits per second and the state's name. -/
  rateLog : List (Nat × String)

structure MyBbrSenderV5 where
  ledger : Ledger
  rtt : RttRecord
  rounds : Rounds
  bandwidth : BandwidthRecord
  control : Control
  rates : Rates

/-- The constructor; `EnterStartUpMode` sets the mode and the gain. `high_gain_`,
`drain_gain_`, `num_startup_rtts_` and `initial_congestion_window_` keep the
constants they are set to here. -/
def MyBbrSenderV5.new (minBps : Nat) (random : MyQuicRandom) : MyBbrSenderV5 where
  ledger := ⟨0, 0, .empty, 0, .new⟩
  rtt := ⟨⟨0, 0⟩, 0, Delta.infinite, 0, 0, Delta.infinite, 0, 0⟩
  rounds := ⟨0, 0⟩
  bandwidth := ⟨.new kBandwidthWindowSize .zero 0, false, 0, .zero, .zero⟩
  control := ⟨.start, kDefaultHighGain, 0, 0, random, 0, false, 0, 0, false, 0, 0, []⟩
  rates := ⟨.fromBitsPerSecond minBps, .zero, .zero, []⟩

/-! ### Packets and bytes in flight -/

namespace Ledger
variable (l : Ledger)

/-- `OnPacketSent`, with `AddPacketInfo`. -/
def onPacketSent (eventTime : Int) (packetNumber bytes : Nat) : Ledger :=
  if packetNumber ≤ l.lastSentPacket then l
  else
    {l with
      lastSentPacket := packetNumber
      sampler := l.sampler.onPacketSent eventTime packetNumber bytes l.bytesInFlight
      bytesInFlight := l.bytesInFlight + bytes
      sentPacketsMap := l.sentPacketsMap.insert packetNumber ⟨eventTime, bytes⟩}

/-- The gap before an acknowledged packet is lost to the sampler. -/
def onGap (packetNumber : Nat) : Ledger :=
  let i := l.lastAckSeq + 1
  {l with
    sampler := l.sampler.onPacketsLost i (packetNumber - i)
    lastAckSeq := packetNumber}

/-- Everything up to the acknowledged packet is no longer in flight. -/
def updateInflight (packetNumber : Nat) : Ledger :=
  let popped := l.sentPacketsMap.popWhile (fun k => decide (k ≤ packetNumber))
    (fun inFlight e => subU64 inFlight e.2.bytes) l.bytesInFlight
  {l with bytesInFlight := popped.1, sentPacketsMap := popped.2}

end Ledger

/-! ### The round trip time -/

namespace RttRecord
variable (r : RttRecord)

def updateMinRtt (now rtt : Int) : RttRecord := {r with toMinRtt := r.toMinRtt.update now rtt}

/-- In `ST_DECREASE` a minimum of its own is kept. -/
def updateMinRttInDecrease (mode : Mode) (now rtt : Int) : RttRecord :=
  if mode = .decrease ∧ rtt ≤ r.minRttInDecrease then
    {r with minRttInDecrease := rtt, minRttTimestampInDecrease := now}
  else r

def lowerBaseLine (now rtt : Int) : RttRecord :=
  if rtt < r.baseLineRtt then {r with baseLineRtt := rtt, sRtt := rtt, baseLineRttTimestamp := now}
  else r

def smooth (rtt : Int) : RttRecord :=
  if r.sRtt = 0 then {r with sRtt := rtt}
  else
    let oldMs := Delta.toMilliseconds r.sRtt
    let newMs := Delta.toMilliseconds rtt
    let smoothMs := ((kSmoothRttDen - kSmoothRttNum) * oldMs + kSmoothRttNum * newMs).tdiv
      kSmoothRttDen
    {r with sRtt := Delta.fromMilliseconds smoothMs}

/-- In `ST_INCREASE` the base line and the smoothed value follow the packets sent
after the last back-off. -/
def updateSmoothedRtt (mode : Mode) (now : Int) (packetNumber : Nat) (rtt : Int) : RttRecord :=
  if mode = .increase ∧ r.seqAtBackoff < packetNumber then (r.lowerBaseLine now rtt).smooth rtt
  else r

/-- The first half of `UpdateRttAndInflight`, for a packet found in the map. -/
def update (mode : Mode) (now : Int) (packetNumber : Nat) (rtt : Int) : RttRecord :=
  ((r.updateMinRtt now rtt).updateMinRttInDecrease mode now rtt).updateSmoothedRtt mode now
    packetNumber rtt

/-- What entering `ST_DECREASE` resets. -/
def backOff (lastSentPacket : Nat) : RttRecord :=
  {r with
    seqAtBackoff := lastSentPacket
    sRtt := 0
    baseLineRtt := Delta.infinite
    minRttRecord := r.minRtt
    minRttInDecrease := Delta.infinite}

/-- On the way out of an expiry the minimum seen in `ST_DECREASE` takes over, or the
recorded one is dated anew. -/
def restore (now : Int) : RttRecord :=
  if r.minRttInDecrease = Delta.infinite then
    {r with minRtt := r.minRttRecord, minRttTimestamp := now}
  else {r with minRtt := r.minRttInDecrease, minRttTimestamp := r.minRttTimestampInDecrease}

def getMinRtt : Int := if r.minRtt ≠ 0 then r.minRtt else Delta.fromMilliseconds 200

end RttRecord

/-! ### Bandwidth -/

namespace BandwidthRecord
variable (b : BandwidthRecord)

def bandwidthEstimate : QuicBandwidth := b.maxBandwidth.getBest

def checkIfFullBandwidthReached : BandwidthRecord :=
  let target := b.bandwidthAtLastRound.mulFloat kStartupGrowthTarget
  if target ≤ b.bandwidthEstimate then
    {b with bandwidthAtLastRound := b.bandwidthEstimate, roundsWithoutBandwidthGain := 0}
  else
    let rounds := b.roundsWithoutBandwidthGain + 1
    {b with
      roundsWithoutBandwidthGain := rounds
      isAtFullBandwidth :=
        b.isAtFullBandwidth || decide (kRoundTripsWithoutGrowthBeforeExitingStartup ≤ rounds)}

def updateMaxBw : BandwidthRecord :=
  if b.maxBwInIncrease < b.bandwidthEstimate then {b with maxBwInIncrease := b.bandwidthEstimate}
  else b

/-- The filter takes the sample of a round update, dated before the update. -/
def update (mode : Mode) (bw : QuicBandwidth) (currentRound : Nat) : BandwidthRecord :=
  let b := {b with maxBandwidth := b.maxBandwidth.update maxFilter bw currentRound}
  if mode = .increase then b.updateMaxBw else b

end BandwidthRecord

/-! ### Modes and the gain cycle -/

namespace Control
variable (c : Control)

def setMode (mode : Mode) (atFullBandwidth : Bool) : Control :=
  {c with mode := mode, modeLog := c.modeLog ++ [⟨c.mode, mode, atFullBandwidth⟩]}

/-- `EnterIncreaseMode`. -/
def enterIncreaseMode (atFullBandwidth : Bool) (now : Int) : Control :=
  let draw := c.random.randUint64
  {c.setMode .increase atFullBandwidth with
    random := draw.2
    cycleCurrentOffset := drawOffset draw.1
    lastCycleStart := now
    pacingGain := kPacingGain.getD (drawOffset draw.1) .one}

/-- What entering `ST_DECREASE` sets. -/
def enterDecrease (atFullBandwidth minRttExpired : Bool) (bdp round : Nat) : Control :=
  {c.setMode .decrease atFullBandwidth with
    exitProbeRttAt := 0
    pacingGain := hundredths 75
    bdp := bdp
    minRttExpired := minRttExpired
    lastBackoffCount := round}

def updateGainCyclePhase (minRtt now : Int) : Control :=
  if minRtt < now - c.lastCycleStart then
    let offset := (c.cycleCurrentOffset + 1) % kGainCycleLength
    {c with
      cycleCurrentOffset := offset
      lastCycleStart := now
      pacingGain := kPacingGain.getD offset .one}
  else c

/-- The loss part of `CheckIfCongestion`: its verdict is commented out in the source, so
only its two sequence numbers move. -/
def trackLoss (lastSentPacket packetNumber : Nat) : Control :=
  {c with
    congestionRecvCutSeq :=
      if c.congestionRecvSeq + 1 < packetNumber ∧ c.congestionRecvCutSeq < packetNumber then
        lastSentPacket
      else c.congestionRecvCutSeq
    congestionRecvSeq :=
      if c.congestionRecvSeq + 1 ≤ packetNumber then packetNumber else c.congestionRecvSeq}

def getStateString : String :=
  match c.mode with
  | .start => "start"
  | .drain => "drain"
  | .increase => "increase"
  | .decrease => "decrease"

end Control

/-! ### The sender -/

/-- `gain * bytes`, computed in `float` and truncated to a byte count. -/
def scaleBytes (gain : BinaryFloat) (bytes : Nat) : Nat :=
  (gain.mul BinaryFloat.single (BinaryFloat.ofNat BinaryFloat.single bytes)).truncate

namespace MyBbrSenderV5
variable (s : MyBbrSenderV5)

def bandwidthEstimate : QuicBandwidth := s.bandwidth.bandwidthEstimate

def paceRate : QuicBandwidth :=
  if s.rates.pacingRate = .zero then s.rates.minBw.mulFloat kDefaultHighGain else s.rates.pacingRate

def getReferenceRate : QuicBandwidth :=
  if s.rates.pacingRate = .zero ∨ s.rates.referenceRate = .zero then s.rates.minBw
  else s.rates.referenceRate

def getTargetCongestionWindow (gain : BinaryFloat) : Nat :=
  let bdp := s.bandwidthEstimate.toBytesPerPeriod s.rtt.getMinRtt
  let congestionWindow := scaleBytes gain bdp
  -- The product is zero if no bandwidth samples are available yet.
  if congestionWindow = 0 then scaleBytes gain kInitialCongestionWindow else congestionWindow

/-- The pacing and the reference rate `CalculatePacingRate` arrives at. -/
def targetRates : QuicBandwidth × QuicBandwidth :=
  let bw := s.bandwidthEstimate
  let scaled := bw.mulFloat s.control.pacingGain
  let rate :=
    if scaled = .zero then
      QuicBandwidth.fromBytesAndTimeDelta kInitialCongestionWindow s.rtt.getMinRtt
    else scaled
  if s.control.mode = .increase ∧ s.control.pacingGain.eq .one ∧ rate < s.rates.minBw then
    (s.rates.minBw, s.rates.minBw)
  else (rate, bw)

/-- `CalculatePacingRate`. A changed rate is reported to the trace and to the observer. -/
def calculatePacingRate : MyBbrSenderV5 :=
  let target := s.targetRates
  let log :=
    if target.1 ≠ s.rates.pacingRate then
      [(target.1.toKBitsPerSecond * 1000, s.control.getStateString)]
    else []
  {s with rates := {s.rates with
    pacingRate := target.1
    referenceRate := target.2
    rateLog := s.rates.rateLog ++ log}}

def onPacketSent (eventTime : Int) (packetNumber bytes : Nat) : MyBbrSenderV5 :=
  {s with ledger := s.ledger.onPacketSent eventTime packetNumber bytes}

/-- The round trip time of a packet in the map: its sample, if it is tracked. -/
def rttSample (now : Int) (packetNumber : Nat) : Option Int :=
  (s.ledger.sentPacketsMap.find? packetNumber).map fun packet => now - packet.sentTs

def updateRttAndInflight (now : Int) (packetNumber : Nat) : MyBbrSenderV5 :=
  {s with
    rtt := match s.rttSample now packetNumber with
      | none => s.rtt
      | some rtt => s.rtt.update s.control.mode now packetNumber rtt
    ledger := s.ledger.updateInflight packetNumber}

def updateRoundTripCounter (lastAckedPacket : Nat) : Bool × MyBbrSenderV5 :=
  if s.rounds.currentRoundTripEnd < lastAckedPacket then
    (true, {s with rounds := ⟨s.ledger.lastSentPacket, s.rounds.roundTripCount + 1⟩})
  else (false, s)

/-- The verdict of `CheckIfCongestion` on the smoothed delay. -/
def isDelayed : Bool :=
  decide (s.rtt.baseLineRtt ≠ Delta.infinite ∧
    Delta.mulDouble s.rtt.baseLineRtt kTolerableDelayFactor < s.rtt.sRtt ∧
    s.control.mode = .increase)

def checkIfCongestion (packetNumber : Nat) : Nat × MyBbrSenderV5 :=
  (if s.isDelayed then ccDelay else 0,
    {s with control := s.control.trackLoss s.ledger.lastSentPacket packetNumber})

def enterIncreaseMode (now : Int) : MyBbrSenderV5 :=
  {s with control := s.control.enterIncreaseMode s.bandwidth.isAtFullBandwidth now}

def exitStartup : MyBbrSenderV5 :=
  if s.control.mode = .start ∧ s.bandwidth.isAtFullBandwidth then
    {s with control :=
      {s.control.setMode .drain s.bandwidth.isAtFullBandwidth with pacingGain := kDrainGain}}
  else s

def exitDrain (now : Int) : MyBbrSenderV5 :=
  if s.control.mode = .drain ∧ s.ledger.bytesInFlight ≤ s.getTargetCongestionWindow .one then
    s.enterIncreaseMode now
  else s

def maybeExitStartupOrDrain (now : Int) : MyBbrSenderV5 := s.exitStartup.exitDrain now

/-- The first half of `MaybeEnterOrExitDecrease`. -/
def enterDecrease (minRttExpired : Bool) (congestionReason round : Nat) : MyBbrSenderV5 :=
  if s.control.mode ≠ .decrease ∧ (minRttExpired ∨ congestionReason ≠ 0) then
    {s with
      rtt := s.rtt.backOff s.ledger.lastSentPacket
      bandwidth := {s.bandwidth with maxBwInIncrease := .zero}
      control := s.control.enterDecrease s.bandwidth.isAtFullBandwidth minRttExpired
        (s.getTargetCongestionWindow .one) round}
  else s

/-- The time since which `ST_DECREASE` lasts. -/
def decreaseSince (now : Int) : Int :=
  if s.control.exitProbeRttAt = 0 then now else s.control.exitProbeRttAt

/-- Whether `ST_DECREASE` ends at `now`: the expiry has had four round trips, or the
excess is drained. -/
def isDecreaseOver (now : Int) : Bool :=
  decide ((s.control.minRttExpired ∧ 4 * s.rtt.minRttRecord < now - s.decreaseSince now) ∨
    s.ledger.bytesInFlight ≤ s.control.bdp)

/-- The second half of `MaybeEnterOrExitDecrease`. -/
def exitDecrease (now : Int) : MyBbrSenderV5 :=
  if s.control.mode = .decrease then
    let control := {s.control with exitProbeRttAt := s.decreaseSince now}
    if s.isDecreaseOver now then
      let control := {control with minRttExpired := false, congestionBackoffFlag := false}
      {s with
        rtt := if s.control.minRttExpired then s.rtt.restore now else s.rtt
        control := control.enterIncreaseMode s.bandwidth.isAtFullBandwidth now}
    else {s with control := control}
  else s

def maybeEnterOrExitDecrease (now : Int) (minRttExpired : Bool) (congestionReason round : Nat) :
    MyBbrSenderV5 :=
  (s.enterDecrease minRttExpired congestionReason round).exitDecrease now

/-- What a round update does to the bandwidth estimate. -/
def updateBandwidth (isRoundUpdate : Bool) (bw : QuicBandwidth) (currentRound : Nat) :
    MyBbrSenderV5 :=
  if isRoundUpdate then
    let b := s.bandwidth.update s.control.mode bw currentRound
    {s with bandwidth := if b.isAtFullBandwidth then b else b.checkIfFullBandwidthReached}
  else s

def updateGainCyclePhase (now : Int) : MyBbrSenderV5 :=
  {s with control := s.control.updateGainCyclePhase s.rtt.getMinRtt now}

/-- `OnAck` up to the round counter: the gap, the round trip time, the bytes in flight. -/
def receive (eventTime : Int) (packetNumber : Nat) : MyBbrSenderV5 :=
  {s with ledger := s.ledger.onGap packetNumber}.updateRttAndInflight eventTime packetNumber

/-- Only `ST_INCREASE` looks for congestion. -/
def congestionReason (packetNumber : Nat) : Nat × MyBbrSenderV5 :=
  if s.control.mode = .increase then s.checkIfCongestion packetNumber else (0, s)

/-- Only `ST_INCREASE` cycles its gain. -/
def cycleGain (now : Int) : MyBbrSenderV5 :=
  if s.control.mode = .increase then s.updateGainCyclePhase now else s

/-- `OnAck` after the sampler's answer, outside the first round. -/
def manageModes (eventTime : Int) (packetNumber currentRound : Nat) (isRoundUpdate : Bool)
    (bw : QuicBandwidth) : MyBbrSenderV5 :=
  let reason := s.congestionReason packetNumber
  let s := reason.2.maybeEnterOrExitDecrease eventTime (s.rtt.isExpired eventTime) reason.1
    currentRound
  let s := s.updateBandwidth isRoundUpdate bw currentRound
  (s.maybeExitStartupOrDrain eventTime).cycleGain eventTime

/-- `OnAck` after the sampler's answer. -/
def manage (eventTime : Int) (packetNumber currentRound : Nat) (isRoundUpdate : Bool)
    (bw : QuicBandwidth) : MyBbrSenderV5 :=
  if currentRound = 0 then s.calculatePacingRate
  else (s.manageModes eventTime packetNumber currentRound isRoundUpdate bw).calculatePacingRate

/-- The call of the sampler's `OnPacketAcknowledged`. -/
def sample (eventTime : Int) (packetNumber : Nat) (isRoundUpdate : Bool) :
    QuicBandwidth × MyBbrSenderV5 :=
  let ack := s.ledger.sampler.onPacketAcknowledged eventTime packetNumber isRoundUpdate
  (ack.1, {s with ledger := {s.ledger with sampler := ack.2}})

/-- `OnAck` up to the sampler's answer: whether a round ended, the answer, the state. -/
def answer (eventTime : Int) (packetNumber : Nat) : Bool × QuicBandwidth × MyBbrSenderV5 :=
  let round := (s.receive eventTime packetNumber).updateRoundTripCounter packetNumber
  (round.1, round.2.sample eventTime packetNumber round.1)

/-- An acknowledgement above `last_ack_seq_`. The current round is the one before the
counter moved. -/
def acceptAck (eventTime : Int) (packetNumber : Nat) : MyBbrSenderV5 :=
  let answer := s.answer eventTime packetNumber
  answer.2.2.manage eventTime packetNumber s.rounds.roundTripCount answer.1 answer.2.1

def onAck (eventTime : Int) (packetNumber : Nat) : MyBbrSenderV5 :=
  if packetNumber ≤ s.ledger.lastAckSeq then s else s.acceptAck eventTime packetNumber

/-! ### Footprints

What each part of `OnAck` writes, as an equation: everything else is `s`. -/

theorem maybeExitStartupOrDrain_eq (now : Int) : s.maybeExitStartupOrDrain now =
    {s with control := (s.maybeExitStartupOrDrain now).control} := by
  have hstart : s.exitStartup = {s with control := s.exitStartup.control} := by
    unfold exitStartup
    split <;> rfl
  have hdrain : ∀ s : MyBbrSenderV5, s.exitDrain now =
      {s with control := (s.exitDrain now).control} := by
    intro s
    unfold exitDrain
    split <;> rfl
  rw [maybeExitStartupOrDrain, hdrain]
  rw [hstart]

theorem enterDecrease_eq (expired : Bool) (reason round : Nat) :
    s.enterDecrease expired reason round =
      {s with
        rtt := (s.enterDecrease expired reason round).rtt
        bandwidth := {s.bandwidth with
          maxBwInIncrease := (s.enterDecrease expired reason round).bandwidth.maxBwInIncrease}
        control := (s.enterDecrease expired reason round).control} := by
  unfold enterDecrease
  split <;> rfl

theorem exitDecrease_eq (now : Int) : s.exitDecrease now =
    {s with rtt := (s.exitDecrease now).rtt, control := (s.exitDecrease now).control} := by
  unfold exitDecrease
  split
  · simp only
    split <;> rfl
  · rfl

theorem maybeEnterOrExitDecrease_eq (now : Int) (expired : Bool) (reason round : Nat) :
    s.maybeEnterOrExitDecrease now expired reason round =
      {s with
        rtt := (s.maybeEnterOrExitDecrease now expired reason round).rtt
        bandwidth := {s.bandwidth with
          maxBwInIncrease := (s.enterDecrease expired reason round).bandwidth.maxBwInIncrease}
        control := (s.maybeEnterOrExitDecrease now expired reason round).control} := by
  rw [maybeEnterOrExitDecrease, exitDecrease_eq]
  rw [enterDecrease_eq]

theorem updateBandwidth_eq (isRoundUpdate : Bool) (bw : QuicBandwidth) (round : Nat) :
    s.updateBandwidth isRoundUpdate bw round =
      {s with bandwidth := (s.updateBandwidth isRoundUpdate bw round).bandwidth} := by
  unfold updateBandwidth
  split <;> rfl

theorem congestionReason_eq (packetNumber : Nat) : (s.congestionReason packetNumber).2 =
    {s with control := (s.congestionReason packetNumber).2.control} := by
  unfold congestionReason
  split <;> rfl

theorem cycleGain_eq (now : Int) :
    s.cycleGain now = {s with control := (s.cycleGain now).control} := by
  unfold cycleGain
  split <;> rfl

theorem updateRoundTripCounter_eq (packetNumber : Nat) :
    (s.updateRoundTripCounter packetNumber).2 =
      {s with rounds := (s.updateRoundTripCounter packetNumber).2.rounds} := by
  unfold updateRoundTripCounter
  split <;> rfl

end MyBbrSenderV5

/-! ### Runs -/

/-- The two calls a connection makes. -/
inductive Event where
  | sent (eventTime : Int) (packetNumber bytes : Nat)
  | ack (eventTime : Int) (packetNumber : Nat)

def Event.time : Event → Int
  | .sent t _ _ => t
  | .ack t _ => t

def step (s : MyBbrSenderV5) : Event → MyBbrSenderV5
  | .sent t p bytes => s.onPacketSent t p bytes
  | .ack t p => s.onAck t p

end CongestionResponse.DelayBbr
