import CongestionResponse.Lib.LinkedQueue
import CongestionResponse.Quic.Units

/-! The clusters of `MyBbrSender`, and the graph it keeps them in.

A cluster holds the packets sent in one phase of the gain cycle. Raw pointers to
it are kept in `connection_info_`, by round, in `acked_clusters_`, once its
bandwidth is estimated, and in the `prev_` and `next_` of its neighbours; these two
members are the links of its heap cell. Every access through a pointer is a step in
`Option`: `none` is the access of a deleted cluster, or of the first packet of a
cluster that has none. -/
namespace CongestionResponse.ClusterBbr
open Lib Quic

/-! ### One cluster -/

structure SentPacketInfo where
  seq : Nat
  sentTs : Int
  ackTs : Int
  len : Nat
deriving DecidableEq

structure SentClusterInfo where
  clusterId : Nat
  firstSendTs : Int
  lastSendTs : Int
  firstAckTs : Int
  lastAckTs : Int
  ackedPackets : Nat
  sentPackets : Nat
  packetInfos : List SentPacketInfo
  bw : QuicBandwidth
  isProbe : Bool

namespace SentClusterInfo
variable (c : SentClusterInfo)

def new (clusterId : Nat) (isProbe : Bool) : SentClusterInfo :=
  ⟨clusterId, 0, 0, 0, 0, 0, 0, [], .zero, isProbe⟩

/-- `OnPacketSent`. -/
def onPacketSent (now : Int) (seq len : Nat) : SentClusterInfo :=
  {c with
    firstSendTs := if c.firstSendTs = 0 then now else c.firstSendTs
    lastSendTs := now
    packetInfos := c.packetInfos ++ [⟨seq, now, 0, len⟩]
    sentPackets := c.sentPackets + len}

/-- The packet an acknowledgement is for: found by its distance from the first one, which
is kept in 32 bits. -/
def target (head : SentPacketInfo) (seq : Nat) : Option (Nat × SentPacketInfo) :=
  if head.seq ≤ seq then
    let offset := (seq - head.seq) % 2 ^ 32
    (c.packetInfos[offset]?).map fun packet => (offset, packet)
  else none

/-- `OnAck` after the first acknowledgement is dealt with. -/
def recordAck (seq : Nat) (now : Int) : Option SentClusterInfo :=
  c.packetInfos.head?.map fun head =>
    match c.target head seq with
    | none => {c with lastAckTs := now}
    | some (offset, packet) =>
      {c with
        lastAckTs := now
        packetInfos := c.packetInfos.set offset {packet with ackTs := now}
        ackedPackets := c.ackedPackets + packet.len}

def sendRate : QuicBandwidth :=
  if c.firstSendTs < c.lastSendTs then
    QuicBandwidth.fromBytesAndTimeDelta c.sentPackets (c.lastSendTs - c.firstSendTs)
  else .infinite

def ackRate : QuicBandwidth :=
  QuicBandwidth.fromBytesAndTimeDelta c.ackedPackets (c.lastAckTs - c.firstAckTs)

/-- Nothing acknowledged, or nothing to divide by. -/
def lacksSpan : Bool := decide (c.ackedPackets = 0 ∨ c.lastAckTs = c.firstAckTs)

/-- `TriggerBandwidthEstimate`: the cluster it leaves, and whether it calls
`OnEstimateBandwidth`. -/
def triggerBandwidthEstimate : SentClusterInfo × Bool :=
  if c.lacksSpan then (c, false)
  else
    let bw := min c.sendRate c.ackRate
    ({c with bw := bw}, decide (QuicBandwidth.zero < bw))

/-- `GetSentInfo`: the span of the sends in milliseconds, and the bytes. -/
def getSentInfo : Nat × Nat :=
  (toU64 (Delta.toMilliseconds (c.lastSendTs - c.firstSendTs)), c.sentPackets)

/-- `GetAckedInfo`. -/
def getAckedInfo : Nat × Nat :=
  (toU64 (Delta.toMilliseconds (c.lastAckTs - c.firstAckTs)), c.ackedPackets)

/-! What the acknowledgement paths write. -/

theorem recordAck_eq {c : SentClusterInfo} (h : c.packetInfos ≠ []) (seq : Nat) (now : Int) :
    ∃ c', c.recordAck seq now = some c' ∧
      c' = {c with
        lastAckTs := now
        packetInfos := c'.packetInfos
        ackedPackets := c'.ackedPackets} ∧
      c'.packetInfos.length = c.packetInfos.length := by
  obtain ⟨head, rest, hpackets⟩ := List.exists_cons_of_ne_nil h
  rw [recordAck, hpackets, List.head?_cons, Option.map_some]
  cases c.target head seq with
  | none => exact ⟨_, rfl, rfl, rfl⟩
  | some found => exact ⟨_, rfl, rfl, List.length_set⟩

theorem recordAck_frame {c c' : SentClusterInfo} {seq : Nat} {now : Int}
    (h : c.recordAck seq now = some c') :
    c'.clusterId = c.clusterId ∧ c'.firstAckTs = c.firstAckTs ∧ c'.isProbe = c.isProbe := by
  obtain ⟨head, -, rfl⟩ := Option.map_eq_some_iff.mp h
  split <;> exact ⟨rfl, rfl, rfl⟩

theorem triggerBandwidthEstimate_eq (c : SentClusterInfo) :
    c.triggerBandwidthEstimate.1 = {c with bw := c.triggerBandwidthEstimate.1.bw} := by
  unfold triggerBandwidthEstimate
  split <;> rfl

end SentClusterInfo

/-- A call of `OnEstimateBandwidth`: the pointer, what it points to, and the two rates. -/
structure Estimate where
  cluster : Nat
  info : SentClusterInfo
  sentBw : QuicBandwidth
  ackedBw : QuicBandwidth

/-! ### The graph -/

structure ClusterGraph where
  heap : Heap SentClusterInfo
  connectionInfo : OrderedMap Nat Nat
  seqRoundMap : OrderedMap Nat Nat
  ackedClusters : List Nat

namespace ClusterGraph
variable (g : ClusterGraph)

def new : ClusterGraph := ⟨.empty, .empty, .empty, []⟩

/-- `prev_->TriggerBandwidthEstimate()`, with the part of `OnEstimateBandwidth` that keeps
the pointer. -/
def triggerPrev : Option Nat → Option (ClusterGraph × Option Estimate)
  | none => some (g, none)
  | some prev => do
    let cell ← g.heap.read prev
    let triggered := cell.value.triggerBandwidthEstimate
    let heap ← g.heap.update prev fun _ => triggered.1
    if triggered.2 then
      some ({g with heap := heap, ackedClusters := g.ackedClusters ++ [prev]},
        some ⟨prev, triggered.1, triggered.1.sendRate, triggered.1.ackRate⟩)
    else some ({g with heap := heap}, none)

/-- The first acknowledgement of a cluster, which has the previous one estimated. -/
def firstAck (cluster : Nat) (now : Int) : Option (ClusterGraph × Option Estimate) := do
  let cell ← g.heap.read cluster
  if cell.value.firstAckTs = 0 then
    let heap ← g.heap.update cluster fun c => {c with firstAckTs := now}
    {g with heap := heap}.triggerPrev cell.prev
  else some (g, none)

/-- `SentClusterInfo::OnAck`. -/
def clusterOnAck (cluster seq : Nat) (now : Int) : Option (ClusterGraph × Option Estimate) := do
  let first ← g.firstAck cluster now
  let cell ← first.1.heap.read cluster
  let c ← cell.value.recordAck seq now
  let heap ← first.1.heap.update cluster fun _ => c
  some ({first.1 with heap := heap}, first.2)

/-- What `MyBbrSender::OnAck` does with the acknowledged packet's cluster. -/
def onAck (packetNumber : Nat) (eventTime : Int) : Option (ClusterGraph × Option Estimate) :=
  match g.seqRoundMap.find? packetNumber with
  | none => some (g, none)
  | some round =>
    let g := {g with seqRoundMap := g.seqRoundMap.erase packetNumber}
    match g.connectionInfo.find? round with
    | none => some (g, none)
    | some cluster => g.clusterOnAck cluster packetNumber eventTime

/-- The cluster of the round, and a new one if there is none. -/
def clusterOf (round : Nat) (isProbe : Bool) : Option (ClusterGraph × Nat) :=
  match g.connectionInfo.find? round with
  | some cluster => some (g, cluster)
  | none => do
    let prev := g.connectionInfo.entries.getLast?.map Prod.snd
    let heap ← g.heap.append prev (.new round isProbe)
    some ({g with
      heap := heap
      connectionInfo := g.connectionInfo.insert round g.heap.fresh}, g.heap.fresh)

/-- `AddPacketInfoSampler`. -/
def addPacketInfoSampler (round : Nat) (isProbe : Bool) (now : Int) (packetNumber bytes : Nat) :
    Option ClusterGraph := do
  let (g, cluster) ← g.clusterOf round isProbe
  let heap ← g.heap.update cluster fun c => c.onPacketSent now packetNumber bytes
  some {g with heap := heap, seqRoundMap := g.seqRoundMap.insert packetNumber round}

/-- The part of `ClusterInfoClear` that deletes. -/
def clusterInfoClear : Option ClusterGraph := do
  let popped := g.connectionInfo.popWhile (fun _ => true)
    (fun heap e => heap.bind fun h => h.free e.2) (some g.heap)
  let heap ← popped.1
  some ⟨heap, popped.2, .empty, []⟩

/-- `RemoveClusterLE`. -/
def removeClusterLE (round : Nat) : Option ClusterGraph := do
  let popped := g.connectionInfo.popWhile (fun id => decide (id ≤ round))
    (fun heap e => heap.bind fun h => h.release e.2) (some g.heap)
  let heap ← popped.1
  some {g with heap := heap, connectionInfo := popped.2}

/-- Take `n` clusters from the front of `acked_clusters_`, and remove each with all before it. -/
def removeStale (g : ClusterGraph) : Nat → Option ClusterGraph
  | 0 => some g
  | n + 1 => do
    let cluster ← g.ackedClusters.head?
    let cell ← g.heap.read cluster
    let g ← {g with ackedClusters := g.ackedClusters.tail}.removeClusterLE cell.value.clusterId
    removeStale g n

/-- What the pointers of `acked_clusters_` point to. -/
def ackedInfos : Option (List SentClusterInfo) :=
  g.ackedClusters.mapM fun cluster => (g.heap.read cluster).map Cell.value

end ClusterGraph
end CongestionResponse.ClusterBbr
