import CongestionResponse.Lib.OrderedMap
import CongestionResponse.Quic.Units

/-! `MySampler`: delivery-rate samples from the packets in flight.

Every sent packet carries a snapshot of the sampler. When it is acknowledged, the
bytes sent and the bytes acknowledged since that snapshot, over the time they
took, give the two rates of which the sample is the smaller one. `rateSample` is
what an acknowledgement returns and `recordAck` what it does to the sampler. -/
namespace CongestionResponse.DelayBbr
open Lib Quic

/-- The snapshot taken when a packet is sent. -/
structure PacketState where
  sentTime : Int
  size : Nat
  /-- Includes the packet itself. -/
  totalBytesSent : Nat
  totalBytesSentAtLastAckedPacket : Nat
  lastAckedPacketSentTime : Int
  lastAckedPacketAckTime : Int
  totalBytesAckedAtTheLastAckedPacket : Nat

structure MySampler where
  totalBytesSent : Nat
  totalBytesAcked : Nat
  totalBytesSentAtLastAckedPacket : Nat
  lastAckedPacketSentTime : Int
  lastAckedPacketAckTime : Int
  packetInfos : OrderedMap Nat PacketState

namespace MySampler

def new : MySampler := ⟨0, 0, 0, 0, 0, OrderedMap.empty⟩

/-- The snapshot constructor of `PacketState`. -/
def snapshot (s : MySampler) (sentTime : Int) (size : Nat) : PacketState :=
  ⟨sentTime, size, s.totalBytesSent, s.totalBytesSentAtLastAckedPacket, s.lastAckedPacketSentTime,
    s.lastAckedPacketAckTime, s.totalBytesAcked⟩

/-- Count the bytes; with nothing in flight the packet opens a new transmission,
and its send time stands in for the last acknowledgement. -/
def countSent (s : MySampler) (sentTime : Int) (bytes bytesInFlight : Nat) :
    MySampler :=
  let s := {s with totalBytesSent := s.totalBytesSent + bytes}
  if bytesInFlight = 0 then
    {s with
      lastAckedPacketAckTime := sentTime
      totalBytesSentAtLastAckedPacket := s.totalBytesSent
      lastAckedPacketSentTime := sentTime}
  else s

/-- `OnPacketSent`. -/
def onPacketSent (s : MySampler) (sentTime : Int) (packetNumber : Nat)
    (bytes bytesInFlight : Nat) : MySampler :=
  let s := s.countSent sentTime bytes bytesInFlight
  {s with packetInfos := s.packetInfos.insert packetNumber (s.snapshot sentTime bytes)}

/-- `PacketInfoRemove`. -/
def packetInfoRemove (s : MySampler) (seq : Nat) : MySampler :=
  {s with packetInfos := s.packetInfos.erase seq}

/-- `OnPacketLost`. -/
def onPacketLost (s : MySampler) (packetNumber : Nat) : MySampler :=
  s.packetInfoRemove packetNumber

/-- The counters an acknowledgement moves. -/
def recordAck (s : MySampler) (ackTime : Int) (sentPacket : PacketState) : MySampler :=
  {s with
    totalBytesAcked := s.totalBytesAcked + sentPacket.size
    totalBytesSentAtLastAckedPacket := sentPacket.totalBytesSent
    lastAckedPacketSentTime := sentPacket.sentTime
    lastAckedPacketAckTime := ackTime}

/-- The sample, once the acknowledged bytes are counted in. Without a round
update there is none. -/
def rateSample (totalBytesAcked : Nat) (ackTime : Int) (sentPacket : PacketState)
    (roundUpdate : Bool) : QuicBandwidth :=
  if !roundUpdate then .zero
  -- Nothing had been acknowledged when the packet was sent.
  else if sentPacket.lastAckedPacketSentTime = 0 then .zero
  else
    let sendRate :=
      if sentPacket.lastAckedPacketSentTime < sentPacket.sentTime then
        QuicBandwidth.fromBytesAndTimeDelta
          (subU64 sentPacket.totalBytesSent sentPacket.totalBytesSentAtLastAckedPacket)
          (sentPacket.sentTime - sentPacket.lastAckedPacketSentTime)
      else .infinite
    if ackTime ≤ sentPacket.lastAckedPacketAckTime then .zero
    else
      let ackRate := QuicBandwidth.fromBytesAndTimeDelta
        (subU64 totalBytesAcked sentPacket.totalBytesAckedAtTheLastAckedPacket)
        (ackTime - sentPacket.lastAckedPacketAckTime)
      min sendRate ackRate

/-- `OnPacketAcknowledgedInner`. -/
def onPacketAcknowledgedInner (s : MySampler) (ackTime : Int) (sentPacket : PacketState)
    (roundUpdate : Bool) : QuicBandwidth × MySampler :=
  let s := s.recordAck ackTime sentPacket
  (rateSample s.totalBytesAcked ackTime sentPacket roundUpdate, s)

/-- `OnPacketAcknowledged`. -/
def onPacketAcknowledged (s : MySampler) (ackTime : Int) (packetNumber : Nat)
    (roundUpdate : Bool) : QuicBandwidth × MySampler :=
  match s.packetInfos.find? packetNumber with
  | none => (.zero, s)
  | some state =>
    let (bw, s) := s.onPacketAcknowledgedInner ackTime state roundUpdate
    (bw, s.packetInfoRemove packetNumber)

/-- Report `n` numbers from `i` on as lost. -/
def onPacketsLost (s : MySampler) (i : Nat) : Nat → MySampler
  | 0 => s
  | n + 1 => onPacketsLost (s.onPacketLost i) (i + 1) n

/-! ### What each operation does to the counters and the tracked packets -/

@[simp] theorem countSent_totalBytesSent (s : MySampler) (t : Int) (bytes inFlight : Nat) :
    (s.countSent t bytes inFlight).totalBytesSent = s.totalBytesSent + bytes := by
  simp only [countSent]
  split <;> rfl

@[simp] theorem countSent_totalBytesAcked (s : MySampler) (t : Int) (bytes inFlight : Nat) :
    (s.countSent t bytes inFlight).totalBytesAcked = s.totalBytesAcked := by
  simp only [countSent]
  split <;> rfl

@[simp] theorem countSent_packetInfos (s : MySampler) (t : Int) (bytes inFlight : Nat) :
    (s.countSent t bytes inFlight).packetInfos = s.packetInfos := by
  simp only [countSent]
  split <;> rfl

theorem onPacketsLost_eq (s : MySampler) (i : Nat) (n : Nat) :
    s.onPacketsLost i n = {s with packetInfos := (s.onPacketsLost i n).packetInfos} ∧
      (s.onPacketsLost i n).packetInfos.entries =
        s.packetInfos.entries.filter fun e => decide (e.1 < i ∨ i + n ≤ e.1) := by
  induction n generalizing s i with
  | zero =>
    refine ⟨rfl, ?_⟩
    show s.packetInfos.entries = _
    symm
    rw [List.filter_eq_self]
    intro e _
    simpa using Nat.lt_or_ge e.1 i
  | succ n ih =>
    obtain ⟨hcounters, hentries⟩ := ih (s.onPacketLost i) (i + 1)
    refine ⟨?_, ?_⟩
    · rw [onPacketsLost, hcounters]
      rfl
    · rw [onPacketsLost, hentries]
      show (s.packetInfos.entries.filter fun e => decide (e.1 ≠ i)).filter _ = _
      rw [List.filter_filter]
      apply List.filter_congr
      intro e _
      rw [← Bool.decide_and, decide_eq_decide]
      omega

theorem onPacketAcknowledged_of_none (s : MySampler) (ackTime : Int)
    (packetNumber : Nat) (roundUpdate : Bool)
    (h : s.packetInfos.find? packetNumber = none) :
    s.onPacketAcknowledged ackTime packetNumber roundUpdate = (.zero, s) := by
  simp [onPacketAcknowledged, h]

theorem onPacketAcknowledged_of_some (s : MySampler) (ackTime : Int)
    (packetNumber : Nat) (roundUpdate : Bool) {state : PacketState}
    (h : s.packetInfos.find? packetNumber = some state) :
    s.onPacketAcknowledged ackTime packetNumber roundUpdate =
      (rateSample (s.totalBytesAcked + state.size) ackTime state roundUpdate,
        (s.recordAck ackTime state).packetInfoRemove packetNumber) := by
  simp [onPacketAcknowledged, h, onPacketAcknowledgedInner, recordAck]

/-- What an acknowledgement does to the counters and to the tracked packets, whether
the packet is tracked or not and with or without a sample. -/
theorem onPacketAcknowledged_eq (s : MySampler) (ackTime : Int) (packetNumber : Nat)
    (roundUpdate : Bool) :
    (s.onPacketAcknowledged ackTime packetNumber roundUpdate).2 =
      ((s.packetInfos.find? packetNumber).elim s (s.recordAck ackTime)).packetInfoRemove
        packetNumber := by
  cases h : s.packetInfos.find? packetNumber with
  | none =>
    rw [onPacketAcknowledged_of_none s _ _ _ h, Option.elim_none, packetInfoRemove,
      s.packetInfos.erase_of_notMem (OrderedMap.find?_eq_none.mp h)]
  | some state => rw [onPacketAcknowledged_of_some s _ _ _ h, Option.elim_some]

theorem onPacketAcknowledged_totalBytesSent (s : MySampler) (ackTime : Int) (packetNumber : Nat)
    (roundUpdate : Bool) :
    (s.onPacketAcknowledged ackTime packetNumber roundUpdate).2.totalBytesSent =
      s.totalBytesSent := by
  rw [onPacketAcknowledged_eq]
  cases s.packetInfos.find? packetNumber <;> rfl

theorem onPacketAcknowledged_totalBytesAcked (s : MySampler) (ackTime : Int)
    (packetNumber : Nat) (roundUpdate : Bool) :
    (s.onPacketAcknowledged ackTime packetNumber roundUpdate).2.totalBytesAcked =
      s.totalBytesAcked + ((s.packetInfos.find? packetNumber).map PacketState.size).getD 0 := by
  rw [onPacketAcknowledged_eq]
  cases s.packetInfos.find? packetNumber <;> rfl

theorem onPacketAcknowledged_packetInfos (s : MySampler) (ackTime : Int) (packetNumber : Nat)
    (roundUpdate : Bool) :
    (s.onPacketAcknowledged ackTime packetNumber roundUpdate).2.packetInfos =
      s.packetInfos.erase packetNumber := by
  rw [onPacketAcknowledged_eq]
  cases s.packetInfos.find? packetNumber <;> rfl

/-- The sample never exceeds the rate of the acknowledged bytes. -/
theorem rateSample_le {totalBytesAcked : Nat} {ackTime : Int} {p : PacketState}
    {roundUpdate : Bool} {c : Nat}
    (hle : p.totalBytesAckedAtTheLastAckedPacket ≤ totalBytesAcked)
    (h : p.lastAckedPacketAckTime < ackTime →
      (((totalBytesAcked - p.totalBytesAckedAtTheLastAckedPacket) *
        QuicBandwidth.kNumMicrosPerSecond : Nat) : Int) ≤
          c * (ackTime - p.lastAckedPacketAckTime)) :
    (rateSample totalBytesAcked ackTime p roundUpdate).bitsPerSecond ≤ 8 * c := by
  unfold rateSample
  split
  · exact Nat.zero_le _
  split
  · exact Nat.zero_le _
  simp only
  split
  · exact Nat.zero_le _
  · rename_i hlt
    rw [not_le] at hlt
    have hack := QuicBandwidth.fromBytesAndTimeDelta_le (c := c) (Int.sub_pos_of_lt hlt)
      (by rw [← subU64_of_le hle] at h; exact h hlt)
    exact le_trans (QuicBandwidth.le_def.mp (min_le_right _ _)) hack

end MySampler
end CongestionResponse.DelayBbr
