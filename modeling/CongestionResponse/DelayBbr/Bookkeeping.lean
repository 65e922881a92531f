import Mathlib.Algebra.BigOperators.Group.List.Basic
import CongestionResponse.DelayBbr.Sender

/-! Packets and bytes are conserved.

The sender and its sampler each keep a map of the packets in flight, and each
prunes its own: the sampler number by number over the gap and then the
acknowledged packet, the sender by a loop from the front. The two stay in step
because every tracked number is above `lastAckSeq`, which no function states; it
is the field `above` of `Balanced`.

Modes, gains and rates do not touch any of this: a run of the sender is, seen
from the ledger, a run of `Ledger.step` (`ledger_run`). -/
namespace CongestionResponse.DelayBbr
open Lib Quic

/-! ### What leaves the ledger alone -/

namespace MyBbrSenderV5
variable (s : MyBbrSenderV5)

theorem manageModes_frame (eventTime : Int) (packetNumber currentRound : Nat)
    (isRoundUpdate : Bool) (bw : QuicBandwidth) :
    (s.manageModes eventTime packetNumber currentRound isRoundUpdate bw).ledger = s.ledger ∧
      (s.manageModes eventTime packetNumber currentRound isRoundUpdate bw).rounds = s.rounds := by
  rw [manageModes, cycleGain_eq, maybeExitStartupOrDrain_eq, updateBandwidth_eq,
    maybeEnterOrExitDecrease_eq, congestionReason_eq]
  exact ⟨rfl, rfl⟩

theorem calculatePacingRate_frame :
    s.calculatePacingRate.ledger = s.ledger ∧ s.calculatePacingRate.rounds = s.rounds :=
  ⟨rfl, rfl⟩

/-- Modes, gains and rates never touch the ledger or the rounds. -/
theorem manage_frame (eventTime : Int) (packetNumber currentRound : Nat) (isRoundUpdate : Bool)
    (bw : QuicBandwidth) :
    (s.manage eventTime packetNumber currentRound isRoundUpdate bw).ledger = s.ledger ∧
      (s.manage eventTime packetNumber currentRound isRoundUpdate bw).rounds = s.rounds := by
  unfold manage
  split
  · exact ⟨rfl, rfl⟩
  · obtain ⟨hledger, hrounds⟩ := (s.manageModes eventTime packetNumber currentRound isRoundUpdate
      bw).calculatePacingRate_frame
    rw [hledger, hrounds]
    exact s.manageModes_frame eventTime packetNumber currentRound isRoundUpdate bw

end MyBbrSenderV5

/-! ### The ledger as a machine of its own -/

namespace Ledger

def acceptAck (l : Ledger) (eventTime : Int) (packetNumber : Nat) : Ledger :=
  let l := (l.onGap packetNumber).updateInflight packetNumber
  {l with sampler := (l.sampler.onPacketAcknowledged eventTime packetNumber true).2}

def onAck (l : Ledger) (eventTime : Int) (packetNumber : Nat) : Ledger :=
  if packetNumber ≤ l.lastAckSeq then l else l.acceptAck eventTime packetNumber

def step (l : Ledger) : Event → Ledger
  | .sent t p bytes => l.onPacketSent t p bytes
  | .ack t p => l.onAck t p

end Ledger

theorem ledger_acceptAck (s : MyBbrSenderV5) (t : Int) (p : Nat) :
    (s.acceptAck t p).ledger = s.ledger.acceptAck t p := by
  simp only [MyBbrSenderV5.acceptAck, MyBbrSenderV5.manage_frame, MyBbrSenderV5.answer,
    MyBbrSenderV5.sample, Ledger.acceptAck, MySampler.onPacketAcknowledged_eq]
  rw [MyBbrSenderV5.updateRoundTripCounter_eq]
  rfl

theorem ledger_step (s : MyBbrSenderV5) (e : Event) : (step s e).ledger = s.ledger.step e := by
  cases e with
  | sent t p bytes => rfl
  | ack t p =>
    simp only [step, MyBbrSenderV5.onAck, Ledger.step, Ledger.onAck]
    split
    · rfl
    · exact ledger_acceptAck s t p

theorem ledger_run (s : MyBbrSenderV5) (es : List Event) :
    (run step s es).ledger = run Ledger.step s.ledger es := by
  induction es generalizing s with
  | nil => rfl
  | cons e rest ih => rw [run_cons, run_cons, ih, ledger_step]

/-! ### The balance -/

namespace Ledger

/-- Number and size of the packets the sender tracks. -/
def sent (l : Ledger) : List (Nat × Nat) := l.sentPacketsMap.weights PerPacket.bytes

/-- Number and size of the packets the sampler tracks. -/
def sampled (l : Ledger) : List (Nat × Nat) := l.sampler.packetInfos.weights PacketState.size

/-- The bytes the loop over the gap drops from the sampler. -/
def gapBytes (l : Ledger) (packetNumber : Nat) : Nat :=
  OrderedMap.weightOn l.sampled fun k => decide (l.lastAckSeq < k ∧ k < packetNumber)

/-- Minuend and subtrahend of every subtraction from `bytes_in_flight_` in the loop of
`UpdateRttAndInflight`. -/
def subtractions (l : Ledger) (packetNumber : Nat) : List (Nat × Nat) :=
  (l.sentPacketsMap.popWhile (fun k => decide (k ≤ packetNumber))
    (fun (inFlight, log) e => (subU64 inFlight e.2.bytes, log ++ [(inFlight, e.2.bytes)]))
    (l.bytesInFlight, [])).1.2

/-- The invariant, with the bytes lost so far. -/
structure Balanced (l : Ledger) (lost : Nat) : Prop where
  same : l.sampled = l.sent
  above : ∀ e ∈ l.sent, l.lastAckSeq < e.1 ∧ e.1 ≤ l.lastSentPacket
  order : l.lastAckSeq ≤ l.lastSentPacket
  inFlight : l.bytesInFlight = (l.sent.map Prod.snd).sum
  conserved : l.sampler.totalBytesSent =
    l.sampler.totalBytesAcked + lost + l.bytesInFlight

variable {l : Ledger} {lost : Nat}

theorem keys_eq_sent (l : Ledger) : l.sentPacketsMap.keys = l.sent.map Prod.fst :=
  (OrderedMap.keys_weights ..).symm

theorem keys_eq_sampled (l : Ledger) : l.sampler.packetInfos.keys = l.sampled.map Prod.fst :=
  (OrderedMap.keys_weights ..).symm

theorem Balanced.keys (h : l.Balanced lost) :
    l.sentPacketsMap.keys = l.sampler.packetInfos.keys := by
  rw [keys_eq_sent, keys_eq_sampled, h.same]

theorem Balanced.keys_above (h : l.Balanced lost) {k : Nat} (hk : k ∈ l.sentPacketsMap.keys) :
    l.lastAckSeq < k ∧ k ≤ l.lastSentPacket := by
  rw [keys_eq_sent, List.mem_map] at hk
  obtain ⟨e, he, rfl⟩ := hk
  exact h.above e he

/-! ### Sending -/

theorem balanced_onPacketSent (h : l.Balanced lost) (t : Int) (p bytes : Nat) :
    (l.onPacketSent t p bytes).Balanced lost := by
  unfold onPacketSent
  split
  · exact h
  rename_i hp
  have hbelow : ∀ k ∈ l.sentPacketsMap.keys, k < p := by
    intro k hk
    have := (h.keys_above hk).2
    omega
  have hsent : (l.sentPacketsMap.insert p ⟨t, bytes⟩).weights PerPacket.bytes =
      l.sent ++ [(p, bytes)] := OrderedMap.weights_insert _ _ _ hbelow
  have hsampled : (l.sampler.onPacketSent t p bytes l.bytesInFlight).packetInfos.weights
      PacketState.size = l.sampled ++ [(p, bytes)] := by
    simp only [MySampler.onPacketSent, MySampler.countSent_packetInfos]
    exact OrderedMap.weights_insert _ _ _ (by rwa [← h.keys])
  refine ⟨?same, ?above, ?order, ?inFlight, ?conserved⟩
  case same =>
    show OrderedMap.weights _ _ = OrderedMap.weights _ _
    rw [hsent, hsampled, h.same]
  case above =>
    intro e he
    show l.lastAckSeq < e.1 ∧ e.1 ≤ p
    rw [sent, hsent, List.mem_append, List.mem_singleton] at he
    have horder := h.order
    rcases he with he | rfl
    · have := h.above e he
      omega
    · exact ⟨by omega, le_refl _⟩
  case order =>
    have := h.order
    show l.lastAckSeq ≤ p
    omega
  case inFlight =>
    rw [sent, hsent, List.map_append, List.sum_append, ← h.inFlight]
    rfl
  case conserved =>
    simp only [MySampler.onPacketSent, MySampler.countSent_totalBytesSent,
      MySampler.countSent_totalBytesAcked, h.conserved]
    omega

/-! ### Acknowledging -/

/-- Gap loop and acknowledgement together leave the sampler what is above the
acknowledged number. -/
theorem sampled_acceptAck (t : Int) {p : Nat} (hp : l.lastAckSeq < p)
    (habove : ∀ e ∈ l.sampled, l.lastAckSeq < e.1) :
    (l.acceptAck t p).sampled = l.sampled.filter fun e => decide (p < e.1) := by
  have hentries : (l.acceptAck t p).sampler.packetInfos.entries =
      l.sampler.packetInfos.entries.filter fun e => decide (p < e.1) := by
    simp only [acceptAck, MySampler.onPacketAcknowledged_packetInfos, OrderedMap.erase]
    show (l.sampler.onPacketsLost _ _).packetInfos.entries.filter _ = _
    rw [(MySampler.onPacketsLost_eq ..).2, List.filter_filter]
    apply List.filter_congr
    intro e he
    have := habove (e.1, e.2.size) (List.mem_map_of_mem he)
    rw [← Bool.decide_and, decide_eq_decide]
    omega
  rw [sampled, OrderedMap.weights, hentries]
  exact (OrderedMap.filter_weights _ _ fun k => decide (p < k)).symm

theorem sent_acceptAck (t : Int) (p : Nat) :
    (l.acceptAck t p).sent = l.sent.filter fun e => decide (p < e.1) := by
  have hentries : (l.acceptAck t p).sentPacketsMap.entries =
      l.sentPacketsMap.entries.filter fun e => decide (p < e.1) :=
    OrderedMap.popWhile_le_entries ..
  rw [sent, OrderedMap.weights, hentries]
  exact (OrderedMap.filter_weights _ _ fun k => decide (p < k)).symm

/-- The gap ends before the acknowledged packet. -/
theorem find?_onGap {p : Nat} (hp : l.lastAckSeq < p) :
    (l.onGap p).sampler.packetInfos.find? p = l.sampler.packetInfos.find? p := by
  apply OrderedMap.find?_congr
  intro v
  show (p, v) ∈ (l.sampler.onPacketsLost _ _).packetInfos.entries ↔ _
  rw [(MySampler.onPacketsLost_eq ..).2, List.mem_filter, decide_eq_true_eq]
  exact ⟨And.left, fun h => ⟨h, by omega⟩⟩

/-- The gap costs the sampler packets, not counters. -/
theorem sampler_onGap (l : Ledger) (p : Nat) :
    (l.onGap p).sampler = {l.sampler with packetInfos := (l.onGap p).sampler.packetInfos} :=
  (MySampler.onPacketsLost_eq ..).1

theorem totalBytesAcked_acceptAck (t : Int) {p : Nat} (hp : l.lastAckSeq < p) :
    (l.acceptAck t p).sampler.totalBytesAcked = l.sampler.totalBytesAcked +
      OrderedMap.weightOn l.sampled fun k => decide (k = p) := by
  rw [sampled, OrderedMap.weightOn_eq, ← find?_onGap hp]
  simp only [acceptAck, MySampler.onPacketAcknowledged_totalBytesAcked]
  show (l.onGap p).sampler.totalBytesAcked + _ = _
  rw [sampler_onGap]
  rfl

/-- An acknowledgement adds nothing to what the sampler tracks. -/
theorem mem_acceptAck (t : Int) (p : Nat) {e : Nat × PacketState}
    (he : e ∈ (l.acceptAck t p).sampler.packetInfos.entries) :
    e ∈ l.sampler.packetInfos.entries := by
  simp only [acceptAck, MySampler.onPacketAcknowledged_packetInfos] at he
  have hgap : e ∈ (l.sampler.onPacketsLost _ _).packetInfos.entries := (OrderedMap.mem_erase.mp he).1
  rw [(MySampler.onPacketsLost_eq ..).2] at hgap
  exact (List.mem_filter.mp hgap).1

theorem totalBytesSent_acceptAck (t : Int) (p : Nat) :
    (l.acceptAck t p).sampler.totalBytesSent = l.sampler.totalBytesSent := by
  simp only [acceptAck, MySampler.onPacketAcknowledged_totalBytesSent]
  show (l.onGap p).sampler.totalBytesSent = _
  rw [sampler_onGap]

/-- As long as enough is in flight, the loop subtracts what it says. -/
theorem foldl_subU64 (packets : List (Nat × PerPacket)) (inFlight : Nat)
    (h : (packets.map fun e => e.2.bytes).sum ≤ inFlight) :
    packets.foldl (fun inFlight e => subU64 inFlight e.2.bytes) inFlight =
      inFlight - (packets.map fun e => e.2.bytes).sum := by
  induction packets generalizing inFlight with
  | nil => rfl
  | cons e rest ih =>
    rw [List.map_cons, List.sum_cons] at h ⊢
    rw [List.foldl_cons, subU64_of_le (by omega), ih _ (by omega)]
    omega

theorem foldl_subtractions (packets : List (Nat × PerPacket)) (inFlight : Nat)
    (log : List (Nat × Nat)) (h : (packets.map fun e => e.2.bytes).sum ≤ inFlight)
    (hlog : ∀ x ∈ log, x.2 ≤ x.1) :
    ∀ x ∈ (packets.foldl (fun (acc : Nat × List (Nat × Nat)) e =>
      (subU64 acc.1 e.2.bytes, acc.2 ++ [(acc.1, e.2.bytes)])) (inFlight, log)).2, x.2 ≤ x.1 := by
  induction packets generalizing inFlight log with
  | nil => exact hlog
  | cons e rest ih =>
    rw [List.map_cons, List.sum_cons] at h
    rw [List.foldl_cons]
    apply ih
    · rw [subU64_of_le (by omega)]
      omega
    · intro x hx
      rcases List.mem_append.mp hx with hx | hx
      · exact hlog x hx
      · obtain rfl := List.mem_singleton.mp hx
        show e.2.bytes ≤ inFlight
        omega

theorem removed_eq (l : Ledger) (p : Nat) :
    ((l.sentPacketsMap.entries.filter fun e => decide (e.1 ≤ p)).map fun e => e.2.bytes).sum =
      OrderedMap.weightOn l.sent fun k => decide (k ≤ p) := by
  rw [OrderedMap.weightOn, sent, OrderedMap.filter_weights _ _ fun k => decide (k ≤ p),
    List.map_map]
  rfl

theorem Balanced.inFlight_split (h : l.Balanced lost) (p : Nat) :
    l.bytesInFlight = OrderedMap.weightOn l.sent (fun k => decide (k ≤ p)) +
      OrderedMap.weightOn l.sent fun k => decide (p < k) := by
  rw [h.inFlight, OrderedMap.weightOn_split _ p, OrderedMap.weightOn_le]

/-- **No subtraction in the loop underflows**: what it removes is in flight. -/
theorem Balanced.subtractions_le (h : l.Balanced lost) (p : Nat) :
    ∀ x ∈ l.subtractions p, x.2 ≤ x.1 := by
  rw [subtractions, OrderedMap.popWhile_le_acc]
  apply foldl_subtractions
  · rw [removed_eq, h.inFlight_split p]
    exact Nat.le_add_right _ _
  · simp

theorem Balanced.bytesInFlight_acceptAck (h : l.Balanced lost) (t : Int) (p : Nat) :
    (l.acceptAck t p).bytesInFlight = OrderedMap.weightOn l.sent fun k => decide (p < k) := by
  have hsplit := h.inFlight_split p
  show (l.sentPacketsMap.popWhile _ _ l.bytesInFlight).1 = _
  rw [OrderedMap.popWhile_le_acc, foldl_subU64, removed_eq]
  · omega
  · rw [removed_eq]
    omega

theorem balanced_acceptAck (h : l.Balanced lost) (t : Int) {p : Nat} (hp : l.lastAckSeq < p)
    (hsent : p ≤ l.lastSentPacket) : (l.acceptAck t p).Balanced (lost + l.gapBytes p) := by
  have habove : ∀ e ∈ l.sampled, l.lastAckSeq < e.1 := by
    intro e he
    rw [h.same] at he
    exact (h.above e he).1
  have hinFlight := h.bytesInFlight_acceptAck t p
  refine ⟨?same, ?above, hsent, ?inFlight, ?conserved⟩
  case same => rw [sampled_acceptAck t hp habove, sent_acceptAck, h.same]
  case above =>
    intro e he
    rw [sent_acceptAck, List.mem_filter, decide_eq_true_eq] at he
    exact ⟨he.2, (h.above e he.1).2⟩
  case inFlight => rw [hinFlight, sent_acceptAck, OrderedMap.weightOn]
  case conserved =>
    have hgap : l.gapBytes p = OrderedMap.weightOn l.sent fun k => decide (k < p) := by
      rw [gapBytes, h.same]
      apply OrderedMap.weightOn_congr
      intro e he
      rw [decide_eq_decide]
      exact and_iff_right (h.above e he).1
    have hconserved := h.conserved
    rw [h.inFlight, OrderedMap.weightOn_split _ p] at hconserved
    rw [totalBytesSent_acceptAck, totalBytesAcked_acceptAck t hp, hinFlight, hgap, h.same]
    omega

end Ledger

/-! ### Whole runs -/

/-- Only numbers that have been sent are acknowledged. -/
def AckOfSent (s : MyBbrSenderV5) : Event → Prop
  | .sent .. => True
  | .ack _ p => p ≤ s.ledger.lastSentPacket

/-- The bytes an event drops as lost. -/
def lostBytes (s : MyBbrSenderV5) : Event → Nat
  | .sent .. => 0
  | .ack _ p => if p ≤ s.ledger.lastAckSeq then 0 else s.ledger.gapBytes p

theorem balanced_step {s : MyBbrSenderV5} {lost : Nat} (h : s.ledger.Balanced lost) {e : Event}
    (he : AckOfSent s e) : (step s e).ledger.Balanced (lost + lostBytes s e) := by
  rw [ledger_step]
  cases e with
  | sent t p bytes => exact Ledger.balanced_onPacketSent h t p bytes
  | ack t p =>
    simp only [Ledger.step, Ledger.onAck, lostBytes]
    split
    · exact h
    · exact Ledger.balanced_acceptAck h t (by omega) he

/-- The balance holds in every reachable state. -/
theorem balanced_run (minBps : Nat) (random : MyQuicRandom) (es : List Event)
    (h : Along step AckOfSent (.new minBps random) es) :
    (run step (.new minBps random) es).ledger.Balanced
      (total step lostBytes (.new minBps random) es) := by
  refine run_history (A := Along step AckOfSent (.new minBps random))
    (P := fun es (s : MyBbrSenderV5) =>
      s.ledger.Balanced (total step lostBytes (.new minBps random) es))
    (fun _ _ h => (along_concat.mp h).1) ?_ ?_ es h
  · exact ⟨rfl, by simp [Ledger.sent, MyBbrSenderV5.new, OrderedMap.weights, OrderedMap.empty],
      le_refl _, rfl, rfl⟩
  · intro es e hes ih
    rw [total_concat]
    exact balanced_step ih (along_concat.mp hes).2

/-- **Packets and bytes are conserved.** In every reachable state the two maps track the
same packets, all of them after the last acknowledged number; the bytes in flight are
the sizes of these packets, and no acknowledgement makes the loop subtract more than is
in flight; and every byte sent is acknowledged, lost in a gap or in flight. -/
theorem packets_and_bytes_conserved (minBps : Nat) (random : MyQuicRandom) (es : List Event)
    (h : Along step AckOfSent (.new minBps random) es) :
    let s := run step (.new minBps random) es
    s.ledger.sentPacketsMap.keys = s.ledger.sampler.packetInfos.keys ∧
    (∀ k ∈ s.ledger.sentPacketsMap.keys,
      s.ledger.lastAckSeq < k ∧ k ≤ s.ledger.lastSentPacket) ∧
    s.ledger.bytesInFlight = (s.ledger.sentPacketsMap.entries.map fun e => e.2.bytes).sum ∧
    (∀ p, ∀ x ∈ s.ledger.subtractions p, x.2 ≤ x.1) ∧
    s.ledger.sampler.totalBytesSent = s.ledger.sampler.totalBytesAcked +
      total step lostBytes (.new minBps random) es + s.ledger.bytesInFlight := by
  intro s
  have hbalanced := balanced_run minBps random es h
  refine ⟨hbalanced.keys, ?_, ?_, hbalanced.subtractions_le, hbalanced.conserved⟩
  · intro k hk
    exact hbalanced.keys_above hk
  · rw [hbalanced.inFlight, Ledger.sent, OrderedMap.weights, List.map_map]
    rfl

/-- Three packets, of which the second falls into the gap before the third. -/
theorem packets_and_bytes_conserved_gap :
    let es : List Event := [.sent 1 1 100, .sent 2 2 50, .sent 3 4 70, .ack 9 1, .ack 10 4]
    Along step AckOfSent (.new 0 ⟨fun _ => 0, 0⟩) es ∧
    (run step (.new 0 ⟨fun _ => 0, 0⟩) es).ledger.sampler.totalBytesSent =
      (run step (.new 0 ⟨fun _ => 0, 0⟩) es).ledger.sampler.totalBytesAcked +
        total step lostBytes (.new 0 ⟨fun _ => 0, 0⟩) es +
        (run step (.new 0 ⟨fun _ => 0, 0⟩) es).ledger.bytesInFlight := by
  intro es
  have h : Along step AckOfSent (.new 0 ⟨fun _ => 0, 0⟩) es :=
    ⟨trivial, trivial, trivial, show 1 ≤ 4 by decide, show 4 ≤ 4 by decide, trivial⟩
  exact ⟨h, (packets_and_bytes_conserved 0 ⟨fun _ => 0, 0⟩ es h).2.2.2.2⟩

end CongestionResponse.DelayBbr
