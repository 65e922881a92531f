import CongestionResponse.Framer.AckWriter
import CongestionResponse.NsQuic.Datagrams
import CongestionResponse.NsQuic.ReceivedPackets
import CongestionResponse.Lib.Run

/-! `NsQuicReceiver`: it records the packets of the sender and acknowledges them.

The first hundred packets are acknowledged one by one. After that an ack is sent for every
tenth packet, or when the alarm that the first unacknowledged packet has set goes off at a
heart beat. The alarm is not touched by the acks that go out before it.

The receiver reacts to a datagram or to a heart beat with a new state and what it gives
out: ack datagrams and the values of its trace callbacks. A heart beat is an expiry of
`heart_timer_`. Times are milliseconds of the simulator, which counts them from zero. -/
namespace CongestionResponse.NsQuic
open Lib Quic Framer

def mMinReceivedBeforeAckDecimation : Nat := 100
def mMaxRetransmittablePacketsBeforeAck : Nat := 10
def mMaxDelayedAckTimeMs : Int := 25
def mMinRetransmissionTimeMs : Int := 200

/-- `NsQuicClock::Now()`. -/
def clockNow (ms : Nat) : Int := Delta.fromMilliseconds ms

/-! ### The alarm -/

structure MyQuicAlarm where
  deadline : Int
deriving DecidableEq

namespace MyQuicAlarm

def IsSet (a : MyQuicAlarm) : Prop := 0 < a.deadline

instance (a : MyQuicAlarm) : Decidable a.IsSet := inferInstanceAs (Decidable (_ < _))

/-- Whether the alarm goes off, and the alarm after that. -/
def isExpired (a : MyQuicAlarm) (now : Int) : Bool × MyQuicAlarm :=
  if a.IsSet ∧ a.deadline ≤ now then (true, ⟨0⟩) else (false, a)

def update (_ : MyQuicAlarm) (newDeadline : Int) : MyQuicAlarm := ⟨newDeadline⟩

end MyQuicAlarm

/-! ### The receiver -/

/-- What the receiver gives out. -/
inductive Output where
  | toNetwork (datagram : List UInt8)
  | traceLoss (seq owd : Nat)
  | traceOwd (seq owd : Nat)
  | traceRate (kbps : Nat)
deriving DecidableEq

structure NsQuicReceiver where
  recvPacketManager : QuicReceivedPacketManager
  lastRateTs : Int
  seq : Nat
  baseSeq : Nat
  running : Bool
  ackAlarm : MyQuicAlarm
  received : Nat
  recvByte : Nat
  numPacketsReceivedSinceLastAckSent : Nat
  owd : Nat

namespace NsQuicReceiver

def new : NsQuicReceiver where
  recvPacketManager := .new
  lastRateTs := 0
  seq := 1
  baseSeq := 0
  running := true
  ackAlarm := ⟨0⟩
  received := 0
  recvByte := 0
  numPacketsReceivedSinceLastAckSent := 0
  owd := 0

/-- The header and, in the rest of the buffer, the ack frame. -/
def ackDatagram (seq : Nat) (frame : QuicAckFrame) : List UInt8 :=
  let headerLen := 1 + (getMinSeqLength seq).bytes
  (writeHeader seq ⟨headerLen, []⟩).2.written ++
    (appendAckFrameAndTypeByte frame ⟨kMaxBufferSize - headerLen, []⟩).2.written

def sendAck (r : NsQuicReceiver) (now : Int) : NsQuicReceiver × List Output :=
  let manager := r.recvPacketManager.getUpdatedAckFrame now
  ({r with recvPacketManager := manager, numPacketsReceivedSinceLastAckSent := 0},
    [.toNetwork (ackDatagram r.seq manager.ackFrame)])

/-- An ack is due at once. -/
def AckDue (r : NsQuicReceiver) : Prop :=
  r.received < mMinReceivedBeforeAckDecimation ∨
    mMaxRetransmittablePacketsBeforeAck ≤ r.numPacketsReceivedSinceLastAckSent

instance (r : NsQuicReceiver) : Decidable r.AckDue := inferInstanceAs (Decidable (_ ∨ _))

def maybeSendAck (r : NsQuicReceiver) (now : Int) : NsQuicReceiver × List Output :=
  if r.AckDue then r.sendAck now
  else if ¬r.ackAlarm.IsSet then
    let ackDelay := min mMaxDelayedAckTimeMs (mMinRetransmissionTimeMs / 2)
    ({r with ackAlarm := r.ackAlarm.update (now + Delta.fromMilliseconds ackDelay)}, [])
  else (r, [])

def recordRate (r : NsQuicReceiver) (now : Int) : NsQuicReceiver × List Output :=
  if r.lastRateTs = 0 then ({r with lastRateTs := now + Delta.fromMilliseconds 500}, [])
  else if r.lastRateTs < now then
    ({r with recvByte := 0, lastRateTs := now + Delta.fromMilliseconds 500},
      [.traceRate (r.recvByte * 8 % 2 ^ 64 / 500 % 2 ^ 32)])
  else (r, [])

/-- The packets between the largest so far and a new one are reported as lost. -/
def recordLosses (baseSeq seq owd : Nat) : List Output :=
  if baseSeq + 1 ≤ seq then
    (List.range' (baseSeq + 1) (seq - (baseSeq + 1))).map fun i => .traceLoss (i % 2 ^ 32) owd
  else []

/-- The receiver's fields after a stream frame. -/
def takeStreamFrame (r : NsQuicReceiver) (now : Int) (len seq sentTs : Nat) : NsQuicReceiver :=
  {r with
    owd := subU32 (toU32 (Delta.toMilliseconds now)) sentTs
    recvPacketManager := r.recvPacketManager.recordPacketReceived seq now
    baseSeq := if r.baseSeq + 1 ≤ seq then seq else r.baseSeq
    numPacketsReceivedSinceLastAckSent := r.numPacketsReceivedSinceLastAckSent + 1
    received := r.received + 1
    recvByte := (r.recvByte + len) % 2 ^ 64}

/-- A stream frame, up to the decision on the ack. -/
def recordStreamFrame (r : NsQuicReceiver) (now : Int) (len seq sentTs : Nat) :
    NsQuicReceiver × List Output :=
  let taken := r.takeStreamFrame now len seq sentTs
  let rate := taken.recordRate now
  (rate.1, .traceOwd (seq % 2 ^ 32) taken.owd :: recordLosses r.baseSeq seq taken.owd ++ rate.2)

def onStreamFrame (r : NsQuicReceiver) (now : Int) (len seq sentTs : Nat) :
    NsQuicReceiver × List Output :=
  let recorded := r.recordStreamFrame now len seq sentTs
  if recorded.1.recvPacketManager.ackFrameUpdated then
    let sent := recorded.1.maybeSendAck now
    (sent.1, recorded.2 ++ sent.2)
  else recorded

def onIncomingData (r : NsQuicReceiver) (now : Int) (data : List UInt8) :
    NsQuicReceiver × List Output :=
  if r.running then
    match readDatagram data with
    | .stream seq sentTs => r.onStreamFrame now data.length seq sentTs
    | .stopWaiting _ leastUnack =>
      ({r with
        recvPacketManager := r.recvPacketManager.dontWaitForPacketsBefore leastUnack}, [])
    | .other => (r, [])
  else (r, [])

def heartBeat (r : NsQuicReceiver) (now : Int) : NsQuicReceiver × List Output :=
  if r.running then
    let expired := r.ackAlarm.isExpired now
    if expired.1 then sendAck {r with ackAlarm := expired.2} now
    else ({r with ackAlarm := expired.2}, [])
  else (r, [])

/-! ### Runs -/

/-- A datagram arrives, or the heart beats. -/
inductive Event where
  | incoming (ms : Nat) (data : List UInt8)
  | heartBeat (ms : Nat)

def react (r : NsQuicReceiver) : Event → NsQuicReceiver × List Output
  | .incoming ms data => r.onIncomingData (clockNow ms) data
  | .heartBeat ms => r.heartBeat (clockNow ms)

def step (r : NsQuicReceiver) (e : Event) : NsQuicReceiver := (r.react e).1

/-- The datagrams among what is given out. -/
def datagrams (outputs : List Output) : List (List UInt8) :=
  outputs.filterMap fun
    | .toNetwork datagram => some datagram
    | _ => none

/-- The ack datagrams that an event makes the receiver send. -/
def acks (r : NsQuicReceiver) (e : Event) : List (List UInt8) := datagrams (r.react e).2

/-! ### What a reaction does -/

/-- The frame that `SendAck` would write now. -/
def ackFrameAt (r : NsQuicReceiver) (now : Int) : QuicAckFrame :=
  (r.recvPacketManager.getUpdatedAckFrame now).ackFrame

/-- The receiver after recording a packet, without the trace of the rate. -/
structure Recorded (r : NsQuicReceiver) (now : Int) (seq : Nat) (r' : NsQuicReceiver) : Prop where
  manager : r'.recvPacketManager = r.recvPacketManager.recordPacketReceived seq now
  seq : r'.seq = r.seq
  running : r'.running = r.running
  ackAlarm : r'.ackAlarm = r.ackAlarm
  received : r'.received = r.received + 1
  pending : r'.numPacketsReceivedSinceLastAckSent = r.numPacketsReceivedSinceLastAckSent + 1

theorem recordRate_frame (r : NsQuicReceiver) (now : Int) :
    (r.recordRate now).1.recvPacketManager = r.recvPacketManager ∧
      (r.recordRate now).1.seq = r.seq ∧ (r.recordRate now).1.running = r.running ∧
      (r.recordRate now).1.ackAlarm = r.ackAlarm ∧
      (r.recordRate now).1.received = r.received ∧
      (r.recordRate now).1.numPacketsReceivedSinceLastAckSent =
        r.numPacketsReceivedSinceLastAckSent ∧
      (r.recordRate now).1.baseSeq = r.baseSeq ∧ (r.recordRate now).1.owd = r.owd ∧
      datagrams (r.recordRate now).2 = [] := by
  unfold recordRate
  split_ifs <;> exact ⟨rfl, rfl, rfl, rfl, rfl, rfl, rfl, rfl, rfl⟩

theorem recorded_recordStreamFrame (r : NsQuicReceiver) (now : Int) (len seq sentTs : Nat) :
    Recorded r now seq (r.recordStreamFrame now len seq sentTs).1 := by
  obtain ⟨hmanager, hseq, hrunning, halarm, hreceived, hpending, -⟩ :=
    recordRate_frame (r.takeStreamFrame now len seq sentTs) now
  exact ⟨hmanager, hseq, hrunning, halarm, hreceived, hpending⟩

/-- Deciding on the ack leaves what is traced alone. -/
theorem maybeSendAck_frame (r : NsQuicReceiver) (now : Int) :
    (r.maybeSendAck now).1.running = r.running ∧ (r.maybeSendAck now).1.baseSeq = r.baseSeq ∧
      (r.maybeSendAck now).1.lastRateTs = r.lastRateTs ∧
      (r.maybeSendAck now).1.recvByte = r.recvByte ∧ (r.maybeSendAck now).1.owd = r.owd := by
  unfold maybeSendAck
  split_ifs <;> exact ⟨rfl, rfl, rfl, rfl, rfl⟩

theorem outputs_maybeSendAck {r : NsQuicReceiver} {now : Int} {x : Output}
    (h : x ∈ (r.maybeSendAck now).2) : ∃ datagram, x = .toNetwork datagram := by
  unfold maybeSendAck at h
  split_ifs at h
  · exact ⟨_, List.mem_singleton.mp h⟩
  · cases h
  · cases h

theorem datagrams_append (a b : List Output) : datagrams (a ++ b) = datagrams a ++ datagrams b :=
  List.filterMap_append

theorem datagrams_recordStreamFrame (r : NsQuicReceiver) (now : Int) (len seq sentTs : Nat) :
    datagrams (r.recordStreamFrame now len seq sentTs).2 = [] := by
  have hlosses : ∀ owd, datagrams (recordLosses r.baseSeq seq owd) = [] := by
    intro owd
    unfold recordLosses datagrams
    split
    · simp [List.filterMap_map]
    · rfl
  obtain ⟨-, -, -, -, -, -, -, -, hrate⟩ :=
    recordRate_frame (r.takeStreamFrame now len seq sentTs) now
  simp only [recordStreamFrame, List.cons_append]
  show datagrams (recordLosses _ _ _ ++ _) = []
  rw [datagrams_append, hlosses, hrate, List.append_nil]

section React
variable {r : NsQuicReceiver} {ms : Nat} {data : List UInt8} {seq sentTs leastUnack : Nat}

/-- A stream frame is recorded, and then the ack is decided on: the manager has always changed. -/
theorem react_stream_eq (ms : Nat) (hrunning : r.running = true)
    (hdata : readDatagram data = .stream seq sentTs) :
    r.react (.incoming ms data) =
      let recorded := r.recordStreamFrame (clockNow ms) data.length seq sentTs
      ((recorded.1.maybeSendAck (clockNow ms)).1,
        recorded.2 ++ (recorded.1.maybeSendAck (clockNow ms)).2) := by
  have hupdated : (r.recordStreamFrame (clockNow ms) data.length seq
      sentTs).1.recvPacketManager.ackFrameUpdated = true := by
    rw [(recorded_recordStreamFrame ..).manager]
    rfl
  rw [react, onIncomingData, if_pos hrunning, hdata]
  simp only [onStreamFrame, if_pos hupdated]

/-- A stream frame: the packet is recorded, and an ack is sent, or the alarm set, or neither. -/
theorem react_stream (ms : Nat) (hrunning : r.running = true)
    (hdata : readDatagram data = .stream seq sentTs) :
    ∃ r', Recorded r (clockNow ms) seq r' ∧
      r.step (.incoming ms data) = (r'.maybeSendAck (clockNow ms)).1 ∧
      r.acks (.incoming ms data) = datagrams (r'.maybeSendAck (clockNow ms)).2 := by
  refine ⟨_, recorded_recordStreamFrame r (clockNow ms) data.length seq sentTs, ?_⟩
  rw [step, acks, react_stream_eq ms hrunning hdata]
  simp only [datagrams_append, datagrams_recordStreamFrame, List.nil_append, and_self]

theorem react_stopWaiting (hrunning : r.running = true)
    (hdata : readDatagram data = .stopWaiting seq leastUnack) :
    r.react (.incoming ms data) = ({r with
      recvPacketManager := r.recvPacketManager.dontWaitForPacketsBefore leastUnack}, []) := by
  rw [react, onIncomingData, if_pos hrunning, hdata]

theorem react_other (hdata : readDatagram data = .other) :
    r.react (.incoming ms data) = (r, []) := by
  rw [react, onIncomingData, hdata]
  split <;> rfl

/-- The alarm goes off at a heart beat. -/
def Fires (r : NsQuicReceiver) (ms : Nat) : Prop :=
  r.ackAlarm.IsSet ∧ r.ackAlarm.deadline ≤ clockNow ms

instance : Decidable (r.Fires ms) := inferInstanceAs (Decidable (_ ∧ _))

theorem react_heartBeat (hrunning : r.running = true) :
    r.react (.heartBeat ms) =
      if r.Fires ms then sendAck {r with ackAlarm := ⟨0⟩} (clockNow ms) else (r, []) := by
  rw [react, heartBeat, MyQuicAlarm.isExpired, if_pos hrunning]
  by_cases hfires : r.Fires ms
  · rw [if_pos hfires, if_pos (show _ ∧ _ from hfires)]
    rfl
  · rw [if_neg hfires, if_neg (show ¬(_ ∧ _) from hfires)]
    rfl

end React

/-! ### The sender's datagrams at the receiver -/

theorem owd_onStreamFrame (r : NsQuicReceiver) (now : Int) (len seq sentTs : Nat) :
    (r.onStreamFrame now len seq sentTs).1.owd =
      subU32 (toU32 (Delta.toMilliseconds now)) sentTs := by
  obtain ⟨-, -, -, -, -, -, -, howd, -⟩ :=
    recordRate_frame (r.takeStreamFrame now len seq sentTs) now
  simp only [onStreamFrame]
  split
  · obtain ⟨-, -, -, -, hsend⟩ :=
      (r.recordStreamFrame now len seq sentTs).1.maybeSendAck_frame now
    exact hsend.trans howd
  · exact howd

/-- **The receiver takes a datagram for what the sender made it**: a data packet, of a new or a
retransmitted stream frame, with its number and the time it was on its way, wrapped to 32 bits;
or a stop-waiting frame with the least unacked number. -/
theorem datagrams_recovered {r : NsQuicReceiver} (hrunning : r.running = true) {seq : Nat}
    (hseq : seq < 2 ^ 48) (sent now : Int) :
    (∀ data, data = sendFakePacket seq sent ∨ data = onRetransPacket seq sent →
      ∃ sentTs, r.onIncomingData now data = r.onStreamFrame now data.length seq sentTs ∧
        ((r.onIncomingData now data).1.owd : Int) =
          (Delta.toMilliseconds now - Delta.toMilliseconds sent) % 2 ^ 32) ∧
    ∀ unackSeq ≤ seq, r.onIncomingData now (sendStopWaitingFrame seq unackSeq) =
      ({r with recvPacketManager := r.recvPacketManager.dontWaitForPacketsBefore unackSeq}, []) := by
  refine ⟨fun data hdata => ?_, fun unackSeq hunack => ?_⟩
  · -- `OnRetransPacket` builds the same datagram as `SendFakePacket`.
    obtain rfl : data = sendFakePacket seq sent := hdata.elim id id
    have htaken : r.onIncomingData now (sendFakePacket seq sent) = r.onStreamFrame now
        (sendFakePacket seq sent).length seq (toU32 (Delta.toMilliseconds sent)) := by
      rw [onIncomingData, if_pos hrunning, readDatagram_sendFakePacket hseq]
    refine ⟨_, htaken, ?_⟩
    rw [htaken, owd_onStreamFrame, subU32_toU32, toU32]
    omega
  · rw [onIncomingData, if_pos hrunning, readDatagram_sendStopWaitingFrame hseq hunack]

/-- At a boundary of the lengths: the number 256 takes two bytes, the least unacked number 255
is written in two as well, and the clock of the receiver is behind. -/
theorem datagrams_recovered_two_bytes :
    (new.onIncomingData 3000 (sendFakePacket 256 5000)).1.owd = 2 ^ 32 - 2 ∧
      (new.onIncomingData 3000 (sendStopWaitingFrame 256 255)).1.recvPacketManager =
        new.recvPacketManager.dontWaitForPacketsBefore 255 := by
  obtain ⟨hstream, hstop⟩ := datagrams_recovered (r := new) rfl (show 256 < 2 ^ 48 by decide)
    5000 3000
  obtain ⟨_, _, howd⟩ := hstream _ (.inl rfl)
  refine ⟨?_, by rw [hstop 255 (by decide)]⟩
  have hdelay : (Delta.toMilliseconds 3000 - Delta.toMilliseconds 5000) % 2 ^ 32 =
      (2 ^ 32 - 2 : Int) := by decide
  rw [hdelay] at howd
  omega

end NsQuicReceiver
end CongestionResponse.NsQuic
