import CongestionResponse.NsQuic.Receiver
import Mathlib.Data.Finset.Lattice.Fold
import Mathlib.Order.Lattice.Nat

/-! What the receiver acknowledges, told from what has arrived.

The receiver should acknowledge the data packets that have arrived, down to the largest
`least_unacked` it was told. It hands every data packet to its manager, also one that has
arrived before and one that is below `least_unacked`; only if there is no such packet does it
acknowledge what it should. -/
namespace CongestionResponse.NsQuic
open Lib Quic Framer
namespace NsQuicReceiver

/-! ### What has arrived -/

def Event.datagram : Event → Datagram
  | .incoming _ data => readDatagram data
  | .heartBeat _ => .other

def Event.dataNumber (e : Event) : Option Nat :=
  match e.datagram with
  | .stream seq _ => some seq
  | _ => none

def Event.leastUnacked (e : Event) : Option Nat :=
  match e.datagram with
  | .stopWaiting _ leastUnack => some leastUnack
  | _ => none

/-- The numbers of the data packets, in order of arrival. -/
def arrived (es : List Event) : List Nat := es.filterMap Event.dataNumber

/-- The largest of some numbers, and zero if there are none. -/
def largest (ks : List Nat) : Nat := ks.toFinset.sup id

/-- The largest `least_unacked` that was received. -/
def awaitedFrom (es : List Event) : Nat := largest (es.filterMap Event.leastUnacked)

theorem largest_concat (ks : List Nat) (k : Nat) : largest (ks ++ [k]) = max (largest ks) k := by
  simp [largest, max_comm]

theorem lt_largest_iff {ks : List Nat} {m : Nat} : m < largest ks ↔ ∃ k ∈ ks, m < k := by
  simp [largest, Finset.lt_sup_iff]

theorem largest_lt_iff {ks : List Nat} {m : Nat} (hm : 0 < m) :
    largest ks < m ↔ ∀ k ∈ ks, k < m := by
  simp [largest, Finset.sup_lt_iff (show ⊥ < m from hm)]

theorem largest_filterMap_concat (f : Event → Option Nat) (es : List Event) (e : Event) :
    largest ((es ++ [e]).filterMap f) = max (largest (es.filterMap f)) ((f e).getD 0) := by
  rw [List.filterMap_append]
  cases hf : f e with
  | none => simp [hf]
  | some k => rw [List.filterMap_cons_some hf, List.filterMap_nil, largest_concat]; rfl

theorem awaitedFrom_concat (es : List Event) (e : Event) :
    awaitedFrom (es ++ [e]) = max (awaitedFrom es) (e.leastUnacked.getD 0) :=
  largest_filterMap_concat Event.leastUnacked es e

theorem mem_arrived_concat {es : List Event} {e : Event} {k : Nat} :
    k ∈ arrived (es ++ [e]) ↔ k ∈ arrived es ∨ e.dataNumber = some k := by
  simp [arrived]

/-! ### One event -/

/-- The manager has recorded the data number of an event, or dropped what its `least_unacked`
allows to. -/
structure Follows (e : Event) (m m' : QuicReceivedPacketManager) : Prop where
  largestAcked : m'.ackFrame.largestAcked = max m.ackFrame.largestAcked (e.dataNumber.getD 0)
  mem : ∀ k, k ∈ m'.ackFrame.packets ↔ (k ∈ m.ackFrame.packets ∨ e.dataNumber = some k) ∧
    ∀ u, e.leastUnacked = some u → m.peerLeastPacketAwaitingAck < u → u ≤ k
  least : m'.peerLeastPacketAwaitingAck =
    max m.peerLeastPacketAwaitingAck (e.leastUnacked.getD 0)

section Step
variable {r : NsQuicReceiver} {e : Event} {m m' : QuicReceivedPacketManager}

theorem follows_stream {seq sentTs : Nat} (he : e.datagram = .stream seq sentTs)
    (hlargest : m'.ackFrame.largestAcked = max m.ackFrame.largestAcked seq)
    (hmem : ∀ k, k ∈ m'.ackFrame.packets ↔ k = seq ∨ k ∈ m.ackFrame.packets)
    (hleast : m'.peerLeastPacketAwaitingAck = m.peerLeastPacketAwaitingAck) : Follows e m m' := by
  have hdata : e.dataNumber = some seq := by rw [Event.dataNumber, he]
  have hnone : e.leastUnacked = none := by rw [Event.leastUnacked, he]
  refine ⟨by rw [hlargest, hdata]; rfl, fun k => ?_, by rw [hleast, hnone]; simp⟩
  rw [hmem, hdata, hnone, Option.some_inj, or_comm, eq_comm]
  simp

theorem follows_other (hdata : e.dataNumber = none) (hleast : e.leastUnacked = none)
    (hframe : m'.ackFrame.largestAcked = m.ackFrame.largestAcked ∧
      m'.ackFrame.packets = m.ackFrame.packets)
    (hpeer : m'.peerLeastPacketAwaitingAck = m.peerLeastPacketAwaitingAck) : Follows e m m' := by
  refine ⟨by rw [hframe.1, hdata]; simp, fun k => ?_, by rw [hpeer, hleast]; simp⟩
  rw [hframe.2, hdata, hleast]
  simp

theorem follows_stopWaiting {seq u : Nat} (he : e.datagram = .stopWaiting seq u) :
    Follows e m (m.dontWaitForPacketsBefore u) := by
  have hdata : e.dataNumber = none := by rw [Event.dataNumber, he]
  have hleast : e.leastUnacked = some u := by rw [Event.leastUnacked, he]
  refine ⟨?_, fun k => ?_, ?_⟩
  · rw [m.largestAcked_dontWaitForPacketsBefore, hdata]
    simp
  · rw [m.mem_dontWaitForPacketsBefore, hdata, hleast]
    simp
  · rw [m.peerLeast_dontWaitForPacketsBefore, hleast]
    rfl

/-- Sending an ack or setting the alarm changes nothing in what is recorded. -/
theorem maybeSendAck_recorded (r : NsQuicReceiver) (now : Int) :
    (r.maybeSendAck now).1.running = r.running ∧
    (r.maybeSendAck now).1.recvPacketManager.ackFrame.largestAcked =
        r.recvPacketManager.ackFrame.largestAcked ∧
      (r.maybeSendAck now).1.recvPacketManager.ackFrame.packets =
        r.recvPacketManager.ackFrame.packets ∧
      (r.maybeSendAck now).1.recvPacketManager.peerLeastPacketAwaitingAck =
        r.recvPacketManager.peerLeastPacketAwaitingAck := by
  unfold maybeSendAck
  split_ifs <;> exact ⟨rfl, rfl, rfl, rfl⟩

theorem step_follows (hrunning : r.running = true) (e : Event) :
    (r.step e).running = true ∧ Follows e r.recvPacketManager (r.step e).recvPacketManager := by
  cases e with
  | incoming ms data =>
    cases hdata : readDatagram data with
    | stream seq sentTs =>
      obtain ⟨r', hr, hstep, -⟩ := react_stream ms hrunning hdata
      obtain ⟨hrunning', hlargest, hpackets, hleast⟩ := r'.maybeSendAck_recorded (clockNow ms)
      rw [hr.manager] at hlargest hpackets hleast
      rw [hstep]
      refine ⟨hrunning'.trans (hr.running.trans hrunning),
        follows_stream (show (Event.incoming ms data).datagram = _ from hdata) ?_ (fun k => ?_)
          hleast⟩
      · rw [hlargest, QuicReceivedPacketManager.largestAcked_recordPacketReceived]
      · rw [hpackets, QuicReceivedPacketManager.mem_recordPacketReceived]
    | stopWaiting seq leastUnack =>
      rw [step, react_stopWaiting hrunning hdata]
      exact ⟨hrunning, follows_stopWaiting (show (Event.incoming ms data).datagram = _ from hdata)⟩
    | other =>
      have he : (Event.incoming ms data).datagram = .other := hdata
      rw [step, react_other hdata]
      exact ⟨hrunning, follows_other (by rw [Event.dataNumber, he])
        (by rw [Event.leastUnacked, he]) ⟨rfl, rfl⟩ rfl⟩
  | heartBeat ms =>
    rw [step, react_heartBeat hrunning]
    split
    · exact ⟨hrunning, follows_other rfl rfl ⟨rfl, rfl⟩ rfl⟩
    · exact ⟨hrunning, follows_other rfl rfl ⟨rfl, rfl⟩ rfl⟩

end Step

/-! ### Whole runs -/

/-- What is known of the receiver after any events at all. -/
structure Informed (es : List Event) (r : NsQuicReceiver) : Prop where
  running : r.running = true
  largestAcked : r.recvPacketManager.ackFrame.largestAcked = largest (arrived es)
  least : r.recvPacketManager.peerLeastPacketAwaitingAck = awaitedFrom es

theorem informed_run (es : List Event) : Informed es (run step new es) := by
  refine run_history (A := fun _ => True) (P := Informed) (fun _ _ _ => trivial)
    ⟨rfl, rfl, rfl⟩ (fun es e _ h => ?_) es trivial
  obtain ⟨hrunning, hfollows⟩ := step_follows h.running e
  refine ⟨hrunning, ?_, ?_⟩
  · rw [hfollows.largestAcked, h.largestAcked, arrived, arrived, largest_filterMap_concat]
  · rw [hfollows.least, h.least, awaitedFrom_concat]

/-- The ack frame has exactly the numbers that it should have. -/
def Exact (es : List Event) (r : NsQuicReceiver) : Prop :=
  ∀ k, k ∈ r.recvPacketManager.ackFrame.packets ↔ k ∈ arrived es ∧ awaitedFrom es ≤ k

/-- `RecordPacketReceived`, which is called for a data packet, is called for a number that the
manager is awaiting. -/
def RecordsAwaited (r : NsQuicReceiver) (e : Event) : Prop :=
  ∀ seq, e.dataNumber = some seq → r.recvPacketManager.isAwaitingPacket seq = true

/-- A data packet has not arrived before and is not below the largest `least_unacked`. -/
def Awaited (past : List Event) (e : Event) : Prop :=
  ∀ seq, e.dataNumber = some seq → seq ∉ arrived past ∧ awaitedFrom past ≤ seq

instance (past : List Event) (e : Event) : Decidable (Awaited past e) :=
  decidable_of_iff (∀ seq ∈ e.dataNumber, seq ∉ arrived past ∧ awaitedFrom past ≤ seq) Iff.rfl

section Exact
variable {es : List Event} {e : Event} {r : NsQuicReceiver}

theorem Exact.step (h : Exact es r) (hr : Informed es r) (he : Awaited es e) :
    Exact (es ++ [e]) (r.step e) := by
  intro k
  -- Above the old bound, what a stop-waiting frame keeps is what is not below the new one.
  have hkept (hle : awaitedFrom es ≤ k) :
      (∀ u, e.leastUnacked = some u → awaitedFrom es < u → u ≤ k) ↔
        awaitedFrom (es ++ [e]) ≤ k := by
    rw [awaitedFrom_concat, max_le_iff, and_iff_right hle]
    cases e.leastUnacked with
    | none => simp
    | some u =>
      refine ⟨fun hdrop => ?_, fun hu u' hu' _ => Option.some.inj hu' ▸ hu⟩
      exact (Nat.lt_or_ge (awaitedFrom es) u).elim (hdrop u rfl) fun hge => hge.trans hle
  rw [(step_follows hr.running e).2.mem, h k, hr.least, mem_arrived_concat]
  constructor
  · intro hrecorded
    obtain ⟨⟨harrived, hle⟩ | hdata, hdrop⟩ := hrecorded
    · exact ⟨.inl harrived, (hkept hle).mp hdrop⟩
    · exact ⟨.inr hdata, (hkept (he k hdata).2).mp hdrop⟩
  · intro hawaited
    obtain ⟨harrived, hbound⟩ := hawaited
    have hle : awaitedFrom es ≤ k := (Nat.le_max_left _ _).trans (awaitedFrom_concat es e ▸ hbound)
    exact ⟨harrived.imp_left fun harrived => ⟨harrived, hle⟩, (hkept hle).mpr hbound⟩

theorem exact_run (h : Throughout Awaited es) : Exact es (run step new es) := by
  refine run_history (P := Exact) (fun es e h => (throughout_concat.mp h).1) (fun k => ?_)
    (fun es e he h => h.step (informed_run es) (throughout_concat.mp he).2) es h
  exact ⟨fun hk => absurd hk (PacketNumberQueue.not_mem_empty k), fun hk => (by cases hk.1)⟩

/-- The manager awaits what has not arrived yet. -/
theorem Exact.recordsAwaited_iff (h : Exact es r) (hr : Informed es r) :
    RecordsAwaited r e ↔ Awaited es e := by
  refine forall_congr' fun seq => imp_congr_right fun _ => ?_
  rw [QuicReceivedPacketManager.isAwaitingPacket_iff, hr.least, h seq]
  tauto

end Exact

/-- **The receiver acknowledges exactly what it may, and records only what its manager awaits,
exactly along the runs in which no data packet arrives twice or below the largest
`least_unacked`.** -/
theorem acknowledged_exactly_iff (es : List Event) :
    Throughout (fun past e => RecordsAwaited (run step new past) e ∧
        Exact (past ++ [e]) (run step new (past ++ [e]))) es ↔
      Throughout Awaited es := by
  induction es using List.reverseRecOn with
  | nil => exact Iff.rfl
  | append_singleton es e ih =>
    rw [throughout_concat, throughout_concat, ih]
    refine and_congr_right fun hes => ?_
    have hexact := exact_run hes
    rw [hexact.recordsAwaited_iff (informed_run es)]
    exact ⟨fun h => h.1, fun he => ⟨he, exact_run (throughout_concat.mpr ⟨hes, he⟩)⟩⟩

/-- Without a stop-waiting frame the order of arrival does not matter. -/
example : Throughout Awaited [.incoming 1 (sendFakePacket 2 0), .incoming 2 (sendFakePacket 3 0),
    .incoming 3 (sendFakePacket 1 0)] := by decide +kernel

/-- A packet that arrives twice is recorded twice; one that arrives after the stop-waiting frame
for it is acknowledged all the same. -/
theorem late_packet_acknowledged :
    ¬RecordsAwaited (run step new [.incoming 1 (sendFakePacket 1 0)])
        (.incoming 2 (sendFakePacket 1 0)) ∧
      ¬Exact [.incoming 1 (sendStopWaitingFrame 3 2), .incoming 2 (sendFakePacket 1 0)]
        (run step new [.incoming 1 (sendStopWaitingFrame 3 2), .incoming 2 (sendFakePacket 1 0)]) ∧
      ¬Throughout (fun past e => RecordsAwaited (run step new past) e ∧
        Exact (past ++ [e]) (run step new (past ++ [e])))
        [.incoming 1 (sendStopWaitingFrame 3 2), .incoming 2 (sendFakePacket 1 0)] := by
  have hexact : ¬Exact [.incoming 1 (sendStopWaitingFrame 3 2), .incoming 2 (sendFakePacket 1 0)]
      (run step new [.incoming 1 (sendStopWaitingFrame 3 2), .incoming 2 (sendFakePacket 1 0)]) := by
    intro h
    have hmem := (h 1).mp (PacketNumberQueue.contains_iff.mp (by decide +kernel))
    exact absurd hmem.2 (by decide +kernel)
  refine ⟨fun h => ?_, hexact, fun h => hexact h.2.1.2⟩
  exact absurd (h 1 (by decide +kernel)) (by decide +kernel)

end NsQuicReceiver
end CongestionResponse.NsQuic
