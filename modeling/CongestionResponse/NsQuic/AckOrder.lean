import CongestionResponse.NsQuic.AckAcceptance
import CongestionResponse.NsQuic.AckEffects
import CongestionResponse.NsQuic.Acknowledged

/-! Acks that do not reach the sender in the order in which they were sent.

`QuicSentPacketManager::OnAckFrameStart` expects a `largest_acked` that never goes down. The
receiver's does not. But the sender passes on whatever an ack says, so an ack that was
overtaken by one with a larger number breaks the manager's expectation. -/
namespace CongestionResponse.NsQuic
open Lib Quic Framer NsQuicReceiver

/-! ### Deliveries -/

/-- The acks that the event with a given number made the receiver send. -/
def acksAt (es : List Event) (n : Nat) : List (List UInt8) :=
  match es[n]? with
  | some e => (run step new (es.take n)).acks e
  | none => []

/-- The network delivers an ack that was sent on the event `sentAt`. -/
structure Delivery where
  sentAt : Nat
  now : Int
  ack : List UInt8

def Delivery.Sent (es : List Event) (d : Delivery) : Prop := d.ack ∈ acksAt es d.sentAt

instance (es : List Event) (d : Delivery) : Decidable (d.Sent es) :=
  inferInstanceAs (Decidable (_ ∈ _))

def deliver (leastUnacked : List ManagerCall → Nat) (s : NsQuicSender) (d : Delivery) :
    Option NsQuicSender := s.onIncomingData leastUnacked d.now d.ack

/-- The data packets that had arrived when the ack was sent. -/
def Delivery.arrivals (es : List Event) (d : Delivery) : List Nat :=
  arrived (es.take (d.sentAt + 1))

/-- When the first ack was sent, a packet had arrived that is above all that had arrived when
the second was sent. -/
def Newer (es : List Event) (d d' : Delivery) : Prop :=
  ∃ k ∈ d.arrivals es, ∀ k' ∈ d'.arrivals es, k' < k

instance (es : List Event) (d d' : Delivery) : Decidable (Newer es d d') :=
  inferInstanceAs (Decidable (∃ k ∈ _, _))

/-- `largest_acked` in the calls of `OnAckFrameStart`. -/
def largestAckeds (calls : List ManagerCall) : List Nat :=
  calls.filterMap fun
    | .onAckFrameStart largestAcked _ _ => some largestAcked
    | _ => none

/-! ### One delivery -/

section Delivery
variable {es : List Event} {d d' : Delivery}

theorem one_le_of_mem_arrived (hes : ∀ e ∈ es, e.FromSender) {k : Nat} (hk : k ∈ arrived es) :
    1 ≤ k := by
  obtain ⟨e, he, hnumber⟩ := List.mem_filterMap.mp hk
  have hfrom := hes e he
  cases e with
  | heartBeat ms => cases hnumber
  | incoming ms data =>
    rw [Event.dataNumber, Event.datagram] at hnumber
    cases hdata : readDatagram data with
    | stream seq sentTs =>
      rw [hdata] at hnumber
      exact Option.some.inj hnumber ▸ hfrom.positive hdata
    | _ =>
      rw [hdata] at hnumber
      cases hnumber

theorem newer_iff (hes : ∀ e ∈ es, e.FromSender) :
    Newer es d d' ↔ largest (d'.arrivals es) < largest (d.arrivals es) := by
  rw [lt_largest_iff]
  refine exists_congr fun k => and_congr_right fun hk => (largest_lt_iff ?_).symm
  exact one_le_of_mem_arrived (fun e he => hes e (List.mem_of_mem_take he)) hk

/-- The sender hears the largest number that had arrived. -/
theorem Delivery.Sent.parse (h : d.Sent es) (hes : ∀ e ∈ es, e.FromSender) :
    ∃ result delay ranges, NsQuicSender.parse d.ack =
        some (result, .onAckFrameStart (largest (d.arrivals es)) delay :: ranges) ∧
      ∀ call ∈ ranges, call.IsRange := by
  have hack : d.ack ∈ acksAt es d.sentAt := h
  unfold acksAt at hack
  cases he : es[d.sentAt]? with
  | none =>
    rw [he] at hack
    cases hack
  | some e =>
    rw [he] at hack
    have hsent : d.ack ∈ (run step new (es.take d.sentAt)).acks e := hack
    have hconsistent : Consistent (run step new (es.take d.sentAt)) :=
      consistent_run fun e he => hes e (List.mem_of_mem_take he)
    have hstep : (run step new (es.take d.sentAt)).step e =
        run step new (es.take (d.sentAt + 1)) := by
      rw [List.take_add_one, he]
      exact (run_concat step new _ e).symm
    rcases hconsistent.acks_cases (hes e (List.mem_of_getElem? he)) with
      ⟨hnone, -⟩ | ⟨frame, hacks, hnumbered, hne, hlargest, -⟩
    · rw [hnone] at hsent
      cases hsent
    · rw [hacks, List.mem_singleton] at hsent
      rw [hstep, (informed_run _).largestAcked] at hlargest
      obtain ⟨result, ranges, hparse, hranges, -⟩ := hnumbered.parse hne
        (run step new (es.take d.sentAt)).seq
      rw [← hsent, hlargest] at hparse
      exact ⟨result, _, ranges, hparse, hranges⟩

/-- Ranges start no ack. -/
theorem largestAckeds_of_ranges {now : Int} {ranges : List Call}
    (h : ∀ call ∈ ranges, call.IsRange) : largestAckeds (ranges.flatMap (tells now)) = [] := by
  rw [largestAckeds, List.filterMap_eq_nil_iff]
  intro told htold
  obtain ⟨call, hcall, htells⟩ := List.mem_flatMap.mp htold
  have hrange := h call hcall
  cases call with
  | onAckRange start stop lastRange =>
    cases lastRange with
    | true =>
      rcases List.mem_cons.mp htells with rfl | hend
      · rfl
      · rw [List.mem_singleton.mp hend]
    | false => rw [List.mem_singleton.mp htells]
  | _ => cases hrange

theorem deliver_sent (leastUnacked : List ManagerCall → Nat) {s : NsQuicSender}
    (hrunning : s.running = true) (hes : ∀ e ∈ es, e.FromSender) (h : d.Sent es) :
    ∃ s', deliver leastUnacked s d = some s' ∧ s'.running = true ∧
      largestAckeds s'.sentPacketManager =
        largestAckeds s.sentPacketManager ++ [largest (d.arrivals es)] := by
  obtain ⟨result, delay, ranges, hparse, hranges⟩ := h.parse hes
  obtain ⟨hstill, hcalls⟩ := foldl_hear leastUnacked {s with timeOfLastReceivedPacket := d.now}
    (.onAckFrameStart (largest (d.arrivals es)) delay :: ranges)
  refine ⟨_, onIncomingData_of_parse leastUnacked hrunning d.now hparse,
    hstill.trans hrunning, ?_⟩
  have hstart : largestAckeds ((.onAckFrameStart (largest (d.arrivals es)) delay :: ranges
      : List Call).flatMap (tells d.now)) = largest (d.arrivals es) ::
      largestAckeds (ranges.flatMap (tells d.now)) := rfl
  rw [hcalls, largestAckeds, List.filterMap_append]
  exact congrArg (_ ++ ·) (hstart.trans (by rw [largestAckeds_of_ranges hranges]))

end Delivery

/-! ### Whole deliveries -/

/-- The sender passes on the largest number of every ack, in the order of delivery. -/
theorem tryRun_deliver (leastUnacked : List ManagerCall → Nat) (start : Int) {es : List Event}
    (hes : ∀ e ∈ es, e.FromSender) {ds : List Delivery} (hds : ∀ d ∈ ds, d.Sent es) :
    ∃ s, tryRun (deliver leastUnacked) (.new start) ds = some s ∧ s.running = true ∧
      largestAckeds s.sentPacketManager = ds.map fun d => largest (d.arrivals es) := by
  refine tryRun_history (A := fun ds => ∀ d ∈ ds, d.Sent es)
    (P := fun ds (s : NsQuicSender) => s.running = true ∧
      largestAckeds s.sentPacketManager = ds.map fun d => largest (d.arrivals es))
    (fun ds d h d' hd' => h d' (List.mem_append_left _ hd')) ?_ ?_ ds hds
  · exact ⟨rfl, rfl⟩
  intro ds d s h _ ⟨hrunning, hsofar⟩
  obtain ⟨s', hs', hstill, hlargest⟩ := deliver_sent leastUnacked hrunning hes
    (h d (List.mem_append_right _ (List.mem_singleton.mpr rfl)))
  exact ⟨s', hs', hstill, by rw [hlargest, hsofar, List.map_append]; rfl⟩

/-- **The manager sees `largest_acked` never go down exactly if no ack is delivered after a
newer one.** -/
theorem largest_acked_ordered_iff (leastUnacked : List ManagerCall → Nat) (start : Int)
    {es : List Event} (hes : ∀ e ∈ es, e.FromSender) {ds : List Delivery}
    (hds : ∀ d ∈ ds, d.Sent es) :
    (∃ s, tryRun (deliver leastUnacked) (.new start) ds = some s ∧
        (largestAckeds s.sentPacketManager).Pairwise (· ≤ ·)) ↔
      ds.Pairwise fun d d' => ¬Newer es d d' := by
  obtain ⟨s, hs, -, hlargest⟩ := tryRun_deliver leastUnacked start hes hds
  have hpairwise : (largestAckeds s.sentPacketManager).Pairwise (· ≤ ·) ↔
      ds.Pairwise fun d d' => ¬Newer es d d' := by
    rw [hlargest, List.pairwise_map]
    simp only [newer_iff hes, Nat.not_lt]
  rw [← hpairwise]
  refine ⟨fun hdelivered => ?_, fun h => ⟨s, hs, h⟩⟩
  obtain ⟨s', hs', h⟩ := hdelivered
  exact Option.some.inj (hs.symm.trans hs') ▸ h

/-- Two packets, which are acknowledged one by one. -/
def twoPackets : List Event :=
  [.incoming 1 (sendFakePacket 1 0), .incoming 2 (sendFakePacket 2 0)]

/-- The acks of the two packets. -/
def firstAck (now : Int) : Delivery :=
  ⟨0, now, ackDatagram 1 ⟨1, 0, PacketNumberQueue.empty.add 1⟩⟩

def secondAck (now : Int) : Delivery :=
  ⟨1, now, ackDatagram 1 ⟨2, 0, (PacketNumberQueue.empty.add 1).add 2⟩⟩

theorem largest_acked_ordered_in_order :
    ∃ s, tryRun (deliver fun _ => 0) (.new 0) [firstAck 3, secondAck 4, secondAck 5] = some s ∧
      (largestAckeds s.sentPacketManager).Pairwise (· ≤ ·) :=
  (largest_acked_ordered_iff (fun _ => 0) 0
    (show ∀ e ∈ twoPackets, e.FromSender by decide +kernel) (by decide +kernel)).mpr
    (by decide +kernel)

/-- The second ack overtakes the first: the manager is told 2 and then 1. -/
theorem overtaken_ack_passed_on :
    (∀ e ∈ twoPackets, e.FromSender) ∧ (∀ d ∈ [secondAck 3, firstAck 4], d.Sent twoPackets) ∧
      (tryRun (deliver fun _ => 0) (.new 0) [secondAck 3, firstAck 4]).map
        (fun s => largestAckeds s.sentPacketManager) = some [2, 1] ∧
      ¬∃ s, tryRun (deliver fun _ => 0) (.new 0) [secondAck 3, firstAck 4] = some s ∧
        (largestAckeds s.sentPacketManager).Pairwise (· ≤ ·) := by
  have hpassed : (tryRun (deliver fun _ => 0) (.new 0) [secondAck 3, firstAck 4]).map
      (fun s => largestAckeds s.sentPacketManager) = some [2, 1] := by decide +kernel
  refine ⟨by decide +kernel, by decide +kernel, hpassed, ?_⟩
  intro hdelivered
  obtain ⟨s, hs, hordered⟩ := hdelivered
  rw [hs] at hpassed
  rw [show largestAckeds s.sentPacketManager = [2, 1] from Option.some.inj hpassed] at hordered
  exact absurd hordered (by decide)

end CongestionResponse.NsQuic
