import CongestionResponse.Lib.Run
import CongestionResponse.Quic.Bbr
import CongestionResponse.Quic.WindowedFilter
import CongestionResponse.ClusterBbr.Cluster

/-! `MyBbrSender`: the BBR sender that estimates bandwidth by clusters.

The members, under their own names, are grouped by what writes them: `RttRecord`,
`Control` (modes and the gain cycle), `Rates` (filters and rates) and the
`ClusterGraph`. Three fields are not in the source and nothing reads them: `modeLog`
records the modes entered, `estimates` the calls of `OnEstimateBandwidth`, and
`bandwidthUpdates` counts the calls of the observer. -/
namespace CongestionResponse.ClusterBbr
open Lib Quic

/-! ### Constants -/

def kPacingGain : List BinaryFloat :=
  [hundredths 125, hundredths 80, .one, .one, .one, .one, .one, .one]
/-- `1 / kPacingGain[0]`. -/
def kBackoffGain : BinaryFloat := BinaryFloat.ofRatio BinaryFloat.single 4 5
def kBandwidthWindowSize : Nat := kGainCycleLength + 2
def kAverageAckRateWindowSize : Nat := 10
def insistFactor : BinaryFloat := hundredths 95
def insistBackOff : BinaryFloat := hundredths 60
def cogestionBackOff : BinaryFloat := hundredths 50

/-! ### State -/

inductive Mode where
  | startUp | probeBw | probeRtt
deriving DecidableEq

structure RttRecord extends MinRtt where
  seqTsMap : OrderedMap Nat Int
  recoredMinRtt : Int
  globalMinRtt : Int

structure Control where
  mode : Mode
  roundTripCount : Nat
  exitProbeRttAt : Int
  pacingGain : BinaryFloat
  cycleCurrentOffset : Nat
  lastCycleStart : Int
  random : MyQuicRandom
  userPeriod : Int
  modeLog : List Mode

structure Rates where
  minBps : Nat
  maxBandwidth : WindowedFilter QuicBandwidth
  avergaeBandwidth : WindowedFilter QuicBandwidth
  averageRound : Nat
  maxRateRecord : QuicBandwidth
  sendingRate : QuicBandwidth
  pacingRate : QuicBandwidth
  recoverRate : QuicBandwidth
  lastTargetRate : QuicBandwidth
  isRecoverEffective : Bool
  hasObserver : Bool
  bandwidthUpdates : Nat

structure MyBbrSender where
  lastAckSeq : Nat
  rtt : RttRecord
  control : Control
  rates : Rates
  graph : ClusterGraph
  estimates : List Estimate

def MyBbrSender.new (minBps : Nat) (hasObserver : Bool) (random : MyQuicRandom) : MyBbrSender where
  lastAckSeq := 0
  rtt := ⟨⟨0, 0⟩, .empty, 0, 0⟩
  control := ⟨.startUp, 0, 0, .one, 0, 0, random, 0, []⟩
  rates :=
    { minBps := minBps
      maxBandwidth := .new kBandwidthWindowSize .zero 0
      avergaeBandwidth := .new kAverageAckRateWindowSize .zero 0
      averageRound := 0
      maxRateRecord := .zero
      sendingRate := .fromBitsPerSecond minBps
      pacingRate := .fromBitsPerSecond minBps
      recoverRate := .zero
      lastTargetRate := .zero
      isRecoverEffective := false
      hasObserver := hasObserver
      bandwidthUpdates := 0 }
  graph := .new
  estimates := []

/-! ### The round trip time -/

namespace RttRecord
variable (r : RttRecord)

def lowerGlobalMinRtt (rtt : Int) : RttRecord :=
  let globalMinRtt := if r.globalMinRtt = 0 then rtt else r.globalMinRtt
  {r with globalMinRtt := if rtt < globalMinRtt then rtt else globalMinRtt}

/-- `UpdateRtt`. -/
def updateRtt (now : Int) (packetNumber : Nat) : RttRecord :=
  let sampled := match r.seqTsMap.find? packetNumber with
    | none => r
    | some sentTs =>
      let rtt := now - sentTs
      let r := r.lowerGlobalMinRtt rtt
      {r with toMinRtt := r.toMinRtt.update now rtt}
  {sampled with
    seqTsMap := (r.seqTsMap.popWhile (fun seq => decide (seq ≤ packetNumber)) (fun u _ => u) ()).2}

/-- `HasSampledLastMinRtt`. -/
def hasSampledLastMinRtt : Bool :=
  decide (r.minRtt ≠ 0 ∧ r.recoredMinRtt ≠ 0 ∧
    r.minRtt < Delta.mulDouble r.recoredMinRtt kSimilarMinRttThreshold)

/-- What entering `PROBE_RTT` resets. -/
def forget : RttRecord :=
  {r with recoredMinRtt := r.minRtt, minRtt := 0, seqTsMap := .empty}

/-- On the way out of `PROBE_RTT` the recorded minimum comes back if there is no new one. -/
def restore (now : Int) : RttRecord :=
  let r := if r.minRtt = 0 then {r with minRtt := r.recoredMinRtt, minRttTimestamp := now} else r
  {r with recoredMinRtt := 0}

end RttRecord

/-! ### Modes and the gain cycle -/

namespace Control
variable (c : Control)

/-- `ShouldSendProbePacket`. -/
def shouldSendProbePacket : Bool := !(c.pacingGain.le .one)

/-- `EnterProbeBandwidthMode`. -/
def enterProbeBandwidthMode (now : Int) : Control :=
  if c.mode = .probeBw then c
  else
    let draw := c.random.randUint64
    {c with
      mode := .probeBw
      modeLog := c.modeLog ++ [.probeBw]
      random := draw.2
      cycleCurrentOffset := drawOffset draw.1
      lastCycleStart := now
      pacingGain := kPacingGain.getD (drawOffset draw.1) .one
      roundTripCount := c.roundTripCount + 1}

/-- How long a phase of the gain cycle lasts. -/
def phaseLength (minRtt : Int) : Int := if c.userPeriod ≠ 0 then c.userPeriod else minRtt

/-- `UpdateGainCyclePhase`. -/
def updateGainCyclePhase (minRtt now : Int) : Control :=
  if c.phaseLength minRtt < now - c.lastCycleStart then
    let offset := (c.cycleCurrentOffset + 1) % kGainCycleLength
    {c with
      cycleCurrentOffset := offset
      lastCycleStart := now
      pacingGain := kPacingGain.getD offset .one
      roundTripCount := c.roundTripCount + 1}
  else c

/-- The first acknowledgement ends `START_UP`. -/
def leaveStartUp (now : Int) : Control :=
  if c.mode = .startUp then c.enterProbeBandwidthMode now else c

/-- Only `PROBE_BW` cycles its gain. -/
def cycleGain (minRtt now : Int) : Control :=
  if c.mode = .probeBw then c.updateGainCyclePhase minRtt now else c

def enterProbeRtt : Control :=
  {c with
    mode := .probeRtt
    modeLog := c.modeLog ++ [.probeRtt]
    pacingGain := .one
    exitProbeRttAt := 0
    roundTripCount := 0}

end Control

/-! ### Filters and rates -/

/-- What the loop over `acked_clusters_` adds up. -/
structure Totals where
  sentBytes : Nat
  sentDelta : Nat
  ackedBytes : Nat
  ackDelta : Nat
  clusterId : Nat

namespace Totals

def addSent (t : Totals) (info : Nat × Nat) : Totals :=
  if info.1 ≠ 0 then
    {t with sentDelta := (t.sentDelta + info.1) % 2 ^ 64, sentBytes := t.sentBytes + info.2}
  else t

def addAcked (t : Totals) (clusterId : Nat) (info : Nat × Nat) : Totals :=
  if info.1 ≠ 0 then
    {t with
      ackDelta := (t.ackDelta + info.1) % 2 ^ 64
      ackedBytes := t.ackedBytes + info.2
      clusterId := clusterId}
  else t

def add (t : Totals) (c : SentClusterInfo) : Totals :=
  (t.addSent c.getSentInfo).addAcked c.clusterId c.getAckedInfo

end Totals

/-- A rate over a span of milliseconds; infinite over none. -/
def averageRate (bytes delta : Nat) : QuicBandwidth :=
  if 0 < delta then
    QuicBandwidth.fromBytesAndTimeDelta bytes (Delta.fromMilliseconds (toI64 delta))
  else .infinite

namespace Rates
variable (r : Rates)

def bandwidthEstimate : QuicBandwidth := r.maxBandwidth.getBest

def minRate : QuicBandwidth := .fromBitsPerSecond r.minBps

/-- The part of `OnEstimateBandwidth` that judges congestion: the rate that was sent,
corrected for a probe, is well above the rate that was acknowledged. -/
def isCongested (sentBw ackedBw : QuicBandwidth) (isProbe : Bool) : Bool :=
  let sendBw := if isProbe then sentBw.mulFloat kBackoffGain else sentBw
  decide (sentBw ≠ .infinite ∧ ackedBw ≤ sendBw.mulFloat (hundredths 90))

/-- Congestion: a fraction of the estimate replaces everything the filter holds. -/
def backOff : QuicBandwidth × Rates :=
  let bw := r.bandwidthEstimate.mulFloat (hundredths 65)
  (bw, {r with maxBandwidth := r.maxBandwidth.reset .zero 0, maxRateRecord := bw})

/-- The part of `OnEstimateBandwidth` that keeps the estimate. -/
def onEstimateBandwidth (clusterId : Nat) (sentBw ackedBw : QuicBandwidth) (isProbe : Bool) :
    Rates :=
  let judged := if isCongested sentBw ackedBw isProbe then r.backOff else (min sentBw ackedBw, r)
  {judged.2 with
    maxBandwidth := judged.2.maxBandwidth.update maxFilter judged.1 clusterId
    isRecoverEffective := false
    maxRateRecord := max judged.2.maxRateRecord judged.1}

/-- What entering `PROBE_RTT` records, with the part of `ClusterInfoClear` that resets the
filters. -/
def enterProbeRtt : Rates :=
  let current := r.bandwidthEstimate
  let insists := decide (r.maxRateRecord ≠ .zero ∧ r.maxRateRecord.mulFloat insistFactor ≤ current)
  {r with
    recoverRate := current.mulFloat (if insists then insistBackOff else cogestionBackOff)
    isRecoverEffective := insists
    maxRateRecord := .zero
    maxBandwidth := r.maxBandwidth.reset .zero 0
    avergaeBandwidth := r.avergaeBandwidth.reset .zero 0
    averageRound := 0}

/-- The target rate in `PROBE_BW`. -/
def targetRate : QuicBandwidth :=
  let bw := r.bandwidthEstimate
  let target := if r.isRecoverEffective then r.recoverRate else if bw = .zero then r.minRate else bw
  max target r.minRate

/-- The observer hears of a changed target, unless the last one was zero. -/
def announce (target : QuicBandwidth) : Rates :=
  {r with
    lastTargetRate := target
    bandwidthUpdates :=
      if r.lastTargetRate ≠ .zero ∧ r.lastTargetRate ≠ target ∧ r.hasObserver then
        r.bandwidthUpdates + 1
      else r.bandwidthUpdates}

/-- `CalculatePacingRate`. -/
def calculatePacingRate (mode : Mode) (pacingGain : BinaryFloat) : Rates :=
  match mode with
  | .startUp => {r with pacingRate := r.minRate, sendingRate := r.minRate}.announce .zero
  | .probeRtt =>
    let rate := if r.isRecoverEffective then r.recoverRate else r.minRate
    {r with pacingRate := rate, sendingRate := rate}.announce .zero
  | .probeBw =>
    let target := r.targetRate
    {r with sendingRate := target, pacingRate := target.mulFloat pacingGain}.announce target

/-- The average over `acked_clusters_`. -/
def updateAverage (infos : List SentClusterInfo) : Rates :=
  let totals := infos.foldl Totals.add ⟨0, 0, 0, 0, 0⟩
  let rate := min (averageRate totals.sentBytes totals.sentDelta)
    (averageRate totals.ackedBytes totals.ackDelta)
  let averageRound := r.averageRound + totals.clusterId % kAverageAckRateWindowSize
  {r with
    averageRound := averageRound
    avergaeBandwidth := r.avergaeBandwidth.update maxFilter
      (if rate = .infinite then r.minRate else rate) averageRound}

end Rates

/-! ### The sender -/

namespace MyBbrSender
variable (s : MyBbrSender)

def paceRate : QuicBandwidth := s.rates.pacingRate

def getReferenceRate : QuicBandwidth := s.rates.sendingRate

def bandwidthEstimate : QuicBandwidth := s.rates.bandwidthEstimate

def userDefinePeriod (ms : Nat) : MyBbrSender :=
  {s with control := {s.control with userPeriod := Delta.fromMilliseconds ms}}

def calculatePacingRate : MyBbrSender :=
  {s with rates := s.rates.calculatePacingRate s.control.mode s.control.pacingGain}

/-- `OnPacketSent`: `AddSeqAndTimestamp`, `CalculatePacingRate`, and in `PROBE_BW` the
cluster. -/
def onPacketSent (eventTime : Int) (packetNumber bytes : Nat) : Option MyBbrSender :=
  let rtt := {s.rtt with seqTsMap := s.rtt.seqTsMap.insert packetNumber eventTime}
  let next := {s with rtt := rtt}.calculatePacingRate
  if s.control.mode = .probeBw then do
    let graph ← s.graph.addPacketInfoSampler s.control.roundTripCount
      s.control.shouldSendProbePacket eventTime packetNumber bytes
    some {next with graph := graph}
  else some next

/-- The first half of `MaybeEnterOrExitProbeRtt`. -/
def enterProbeRtt (minRttExpired : Bool) : Option MyBbrSender :=
  if minRttExpired ∧ s.control.mode ≠ .probeRtt then do
    let graph ← s.graph.clusterInfoClear
    some {s with
      control := s.control.enterProbeRtt
      rates := s.rates.enterProbeRtt
      rtt := s.rtt.forget
      graph := graph}
  else some s

/-- The time until which `PROBE_RTT` lasts at most. -/
def probeRttUntil (now : Int) : Int :=
  if s.control.exitProbeRttAt = 0 then now + 4 * s.rtt.globalMinRtt else s.control.exitProbeRttAt

/-- The second half of `MaybeEnterOrExitProbeRtt`. -/
def exitProbeRtt (now : Int) : MyBbrSender :=
  if s.control.mode = .probeRtt then
    let control := {s.control with exitProbeRttAt := s.probeRttUntil now}
    if s.probeRttUntil now < now ∨ s.rtt.hasSampledLastMinRtt then
      {s with control := control.enterProbeBandwidthMode now, rtt := s.rtt.restore now}
    else {s with control := control}
  else s

/-- `OnEstimateBandwidth`, if the acknowledgement had one made. -/
def onEstimate : Option Estimate → MyBbrSender
  | none => s
  | some e =>
    {s with
      rates := s.rates.onEstimateBandwidth e.info.clusterId e.sentBw e.ackedBw e.info.isProbe
      estimates := s.estimates ++ [e]}

/-- The acknowledged packet's cluster. -/
def ackCluster (eventTime : Int) (packetNumber : Nat) : Option MyBbrSender := do
  let acked ← s.graph.onAck packetNumber eventTime
  some ({s with graph := acked.1}.onEstimate acked.2)

/-- Ten estimated clusters are averaged, and all but nine of them removed. -/
def averageClusters : Option MyBbrSender :=
  let total := s.graph.ackedClusters.length
  if kAverageAckRateWindowSize ≤ total then do
    let infos ← s.graph.ackedInfos
    let graph ← s.graph.removeStale (total - (kAverageAckRateWindowSize - 1))
    some {s with rates := s.rates.updateAverage infos, graph := graph}
  else some s

/-- `OnAck` up to the expiry of the minimum RTT. -/
def receive (eventTime : Int) (packetNumber : Nat) : MyBbrSender :=
  let rtt := s.rtt.updateRtt eventTime packetNumber
  {s with
    lastAckSeq := packetNumber
    rtt := rtt
    control := (s.control.leaveStartUp eventTime).cycleGain rtt.minRtt eventTime}

/-- An acknowledgement above `last_ack_seq_`. -/
def acceptAck (eventTime : Int) (packetNumber : Nat) : Option MyBbrSender := do
  let s := s.receive eventTime packetNumber
  let s ← s.enterProbeRtt (s.rtt.isExpired eventTime)
  let s ← (s.exitProbeRtt eventTime).ackCluster eventTime packetNumber
  s.calculatePacingRate.averageClusters

def onAck (eventTime : Int) (packetNumber : Nat) : Option MyBbrSender :=
  if packetNumber ≤ s.lastAckSeq then some s else s.acceptAck eventTime packetNumber

end MyBbrSender

/-! ### Runs -/

inductive Event where
  | sent (eventTime : Int) (packetNumber bytes : Nat)
  | ack (eventTime : Int) (packetNumber : Nat)
  | period (ms : Nat)

def step (s : MyBbrSender) : Event → Option MyBbrSender
  | .sent t p bytes => s.onPacketSent t p bytes
  | .ack t p => s.onAck t p
  | .period ms => some (s.userDefinePeriod ms)

end CongestionResponse.ClusterBbr
