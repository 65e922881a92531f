import CongestionResponse.Lib.Run
import CongestionResponse.Quic.BandwidthSampler
import CongestionResponse.DelayBbr.Sampler

/-! `MySampler` against the sampler it was taken from.

Both are driven by the same calls. They agree on the counters, on the fields of the last
acknowledged packet and on the tracked packets with their snapshots: the ordered map of
the one holds what the deque of the other does. What is left out, the app-limited phase,
shows only in a flag of the sample. -/
namespace CongestionResponse.DelayBbr
open Lib Quic

/-- A call of the samplers. `MySampler` has no `OnAppLimited`, and does not know whether a
packet is retransmittable: here all are. -/
inductive SamplerEvent where
  | sent (sentTime : Int) (packetNumber bytes bytesInFlight : Nat)
  | lost (packetNumber : Nat)
  | acked (ackTime : Int) (packetNumber : Nat) (roundUpdate : Bool)
  | appLimited

def samplerStep (s : MySampler) : SamplerEvent → MySampler
  | .sent t p bytes inFlight => s.onPacketSent t p bytes inFlight
  | .lost p => s.onPacketLost p
  | .acked t p roundUpdate => (s.onPacketAcknowledged t p roundUpdate).2
  | .appLimited => s

def referenceStep (b : BandwidthSampler) : SamplerEvent → BandwidthSampler
  | .sent t p bytes inFlight => b.onPacketSent t p bytes inFlight .hasRetransmittableData
  | .lost p => b.onPacketLost p
  | .acked t p _ => (b.onPacketAcknowledged t p).2
  | .appLimited => b.onAppLimited

/-- The packet numbers sent, in order. -/
def sentToSampler (es : List SamplerEvent) : List Nat :=
  es.filterMap fun
    | .sent _ p _ _ => some p
    | _ => none

/-- A snapshot without the flag that `MySampler` does not keep. -/
def toPacketState (c : ConnectionStateOnSentPacket) : PacketState where
  sentTime := c.sentTime
  size := c.size
  totalBytesSent := c.totalBytesSent
  totalBytesSentAtLastAckedPacket := c.totalBytesSentAtLastAckedPacket
  lastAckedPacketSentTime := c.lastAckedPacketSentTime
  lastAckedPacketAckTime := c.lastAckedPacketAckTime
  totalBytesAckedAtTheLastAckedPacket := c.totalBytesAckedAtTheLastAckedPacket

/-- The two samplers hold the same. -/
structure Agree (s : MySampler) (b : BandwidthSampler) : Prop where
  totalBytesSent : s.totalBytesSent = b.totalBytesSent
  totalBytesAcked : s.totalBytesAcked = b.totalBytesAcked
  totalBytesSentAtLastAckedPacket :
    s.totalBytesSentAtLastAckedPacket = b.totalBytesSentAtLastAckedPacket
  lastAckedPacketSentTime : s.lastAckedPacketSentTime = b.lastAckedPacketSentTime
  lastAckedPacketAckTime : s.lastAckedPacketAckTime = b.lastAckedPacketAckTime
  tracked : s.packetInfos.entries =
    b.connectionStateMap.contents.map fun e => (e.1, toPacketState e.2)

/-- The end of the deque is a number that was sent. -/
def EndsWithin (sent : List Nat) (b : BandwidthSampler) : Prop :=
  b.connectionStateMap.entries ≠ [] → b.connectionStateMap.lastPacket ∈ sent

section Agree
variable {s : MySampler} {b : BandwidthSampler}

/-- A packet is tracked by both, with one snapshot, or by neither. -/
theorem Agree.find? (h : Agree s b) (p : Nat) :
    s.packetInfos.find? p = (b.connectionStateMap.getEntry p).map toPacketState := by
  apply Option.ext
  intro state
  rw [OrderedMap.find?_eq_some, h.tracked, Option.map_eq_some_iff, List.mem_map]
  constructor
  · rintro ⟨⟨k, c⟩, hmem, heq⟩
    obtain ⟨rfl, rfl⟩ := Prod.mk.inj heq
    exact ⟨c, b.connectionStateMap.mem_contents.mp hmem, rfl⟩
  · rintro ⟨c, hget, rfl⟩
    exact ⟨(p, c), b.connectionStateMap.mem_contents.mpr hget, rfl⟩

theorem Agree.tracked_remove (h : Agree s b) (p : Nat) : (s.packetInfos.erase p).entries =
    (b.connectionStateMap.remove p).2.contents.map fun e => (e.1, toPacketState e.2) := by
  show s.packetInfos.entries.filter _ = _
  rw [PacketNumberIndexedQueue.contents_remove, h.tracked, List.filter_map]
  rfl

theorem EndsWithin.remove {sent : List Nat} (h : EndsWithin sent b) (p : Nat)
    (hne : (b.connectionStateMap.remove p).2.entries ≠ []) :
    (b.connectionStateMap.remove p).2.lastPacket ∈ sent := by
  obtain ⟨hold, hlast⟩ := b.connectionStateMap.lastPacket_remove p hne
  rw [hlast]
  exact h hold

theorem Agree.lost (h : Agree s b) (p : Nat) : Agree (s.onPacketLost p) (b.onPacketLost p) :=
  {h with tracked := h.tracked_remove p}

theorem leaveAppLimited_eq (b : BandwidthSampler) (p : Nat) : b.leaveAppLimited p =
    {b with isAppLimited := (b.leaveAppLimited p).isAppLimited} := by
  unfold BandwidthSampler.leaveAppLimited
  split <;> rfl

theorem Agree.acked (h : Agree s b) (t : Int) (p : Nat) (roundUpdate : Bool) :
    Agree (s.onPacketAcknowledged t p roundUpdate).2 (b.onPacketAcknowledged t p).2 := by
  have hfind := h.find? p
  unfold BandwidthSampler.onPacketAcknowledged
  cases hget : b.connectionStateMap.getEntry p with
  | none =>
    rw [hget] at hfind
    rw [s.onPacketAcknowledged_of_none t p roundUpdate hfind]
    exact h
  | some c =>
    rw [hget] at hfind
    rw [s.onPacketAcknowledged_of_some t p roundUpdate hfind]
    simp only [BandwidthSampler.onPacketAcknowledgedInner]
    rw [leaveAppLimited_eq]
    exact
      { totalBytesSent := h.totalBytesSent
        totalBytesAcked := congrArg (· + c.size) h.totalBytesAcked
        totalBytesSentAtLastAckedPacket := rfl
        lastAckedPacketSentTime := rfl
        lastAckedPacketAckTime := rfl
        tracked := h.tracked_remove p }

theorem onPacketAcknowledged_connectionStateMap (b : BandwidthSampler) (t : Int) (p : Nat) :
    (b.onPacketAcknowledged t p).2.connectionStateMap = (b.connectionStateMap.remove p).2 := by
  unfold BandwidthSampler.onPacketAcknowledged
  cases hget : b.connectionStateMap.getEntry p with
  | none => exact (b.connectionStateMap.remove_of_none hget).symm
  | some c =>
    simp only [BandwidthSampler.onPacketAcknowledgedInner]
    rw [leaveAppLimited_eq]

theorem Agree.snapshot (h : Agree s b) (t : Int) (size : Nat) :
    s.snapshot t size = toPacketState (b.snapshot t size) := by
  simp [MySampler.snapshot, toPacketState, BandwidthSampler.snapshot, h.totalBytesSent,
    h.totalBytesSentAtLastAckedPacket, h.lastAckedPacketSentTime, h.lastAckedPacketAckTime,
    h.totalBytesAcked]

/-- Counting the bytes, and opening a transmission where nothing is in flight. -/
theorem Agree.countSent (h : Agree s b) (t : Int) (p bytes inFlight : Nat) :
    Agree (s.countSent t bytes inFlight)
      ({b with lastSentPacket := p, totalBytesSent := b.totalBytesSent + bytes}.openTransmission t
        inFlight) := by
  unfold MySampler.countSent BandwidthSampler.openTransmission
  have hsent : s.totalBytesSent + bytes = b.totalBytesSent + bytes := by rw [h.totalBytesSent]
  by_cases hflight : inFlight = 0
  · simp only [hflight, if_true]
    exact ⟨hsent, h.totalBytesAcked, hsent, rfl, rfl, h.tracked⟩
  · simp only [hflight, if_false]
    exact {h with totalBytesSent := hsent}

theorem openTransmission_connectionStateMap (b : BandwidthSampler) (t : Int) (inFlight : Nat) :
    (b.openTransmission t inFlight).connectionStateMap = b.connectionStateMap := by
  unfold BandwidthSampler.openTransmission
  split <;> rfl

/-- The number of a packet that is sent is beyond the end of the deque, and beyond every key
of the map. -/
theorem Agree.insert {sent : List Nat} (h : Agree s b) (hends : EndsWithin sent b) {p : Nat}
    (hp : ∀ k ∈ sent, k < p) (t : Int) (size : Nat) :
    Agree {s with packetInfos := s.packetInfos.insert p (s.snapshot t size)}
        {b with connectionStateMap :=
          (b.connectionStateMap.emplace p (b.snapshot t size)).2} ∧
      (b.connectionStateMap.emplace p (b.snapshot t size)).2.lastPacket = p := by
  have hkeys : ∀ k ∈ s.packetInfos.keys, k < p := by
    intro k hk
    rw [OrderedMap.keys, h.tracked, List.map_map] at hk
    obtain ⟨⟨k, c⟩, hmem, rfl⟩ := List.mem_map.mp hk
    obtain ⟨hne, hle⟩ := PacketNumberIndexedQueue.le_lastPacket hmem
    exact Nat.lt_of_le_of_lt hle (hp _ (hends hne))
  obtain ⟨-, hcontents, hlast⟩ := b.connectionStateMap.emplace_spec (b.snapshot t size)
    fun hne => hp _ (hends hne)
  refine ⟨{h with tracked := ?_}, hlast⟩
  rw [OrderedMap.insert_of_lt _ _ hkeys, hcontents, List.map_append, h.tracked, h.snapshot]
  rfl

theorem Agree.sent {sent : List Nat} (h : Agree s b) (hends : EndsWithin sent b) {p : Nat}
    (hp : ∀ k ∈ sent, k < p) (t : Int) (bytes inFlight : Nat) :
    Agree (s.onPacketSent t p bytes inFlight)
        (b.onPacketSent t p bytes inFlight .hasRetransmittableData) ∧
      (b.onPacketSent t p bytes inFlight .hasRetransmittableData).connectionStateMap.lastPacket =
        p := by
  have hcounted : EndsWithin sent
      ({b with lastSentPacket := p, totalBytesSent := b.totalBytesSent + bytes}.openTransmission t
        inFlight) := by
    unfold EndsWithin
    rw [openTransmission_connectionStateMap]
    exact hends
  exact (h.countSent t p bytes inFlight).insert hcounted hp t bytes

/-! ### Answers -/

theorem rateSample_eq (b : BandwidthSampler) (t : Int) (c : ConnectionStateOnSentPacket) :
    MySampler.rateSample b.totalBytesAcked t (toPacketState c) true =
      (b.sampleOf t c).bandwidth := by
  simp only [MySampler.rateSample, BandwidthSampler.sampleOf, toPacketState, Bool.not_true,
    Bool.false_eq_true, if_false]
  by_cases hfirst : c.lastAckedPacketSentTime = 0
  · simp [hfirst, BandwidthSample.empty]
  · by_cases htime : t ≤ c.lastAckedPacketAckTime
    · simp [hfirst, htime, BandwidthSample.empty]
    · simp only [hfirst, htime, if_false]
      congr

/-- With a round update the two answers are one; without, there is none. -/
theorem Agree.answer (h : Agree s b) (t : Int) (p : Nat) (roundUpdate : Bool) :
    (s.onPacketAcknowledged t p roundUpdate).1 =
      if roundUpdate then (b.onPacketAcknowledged t p).1.bandwidth else .zero := by
  have hfind := h.find? p
  unfold BandwidthSampler.onPacketAcknowledged
  cases hget : b.connectionStateMap.getEntry p with
  | none =>
    rw [hget] at hfind
    rw [s.onPacketAcknowledged_of_none t p roundUpdate hfind]
    simp [BandwidthSample.empty]
  | some c =>
    rw [hget] at hfind
    rw [s.onPacketAcknowledged_of_some t p roundUpdate hfind, h.totalBytesAcked]
    cases roundUpdate with
    | false => rfl
    | true =>
      simp only [BandwidthSampler.onPacketAcknowledgedInner, if_true]
      rw [leaveAppLimited_eq, ← rateSample_eq]
      rfl

end Agree

/-! ### Runs -/

theorem agree_run (es : List SamplerEvent) (hes : (sentToSampler es).Pairwise (· < ·)) :
    Agree (run samplerStep .new es) (run referenceStep .new es) ∧
      EndsWithin (sentToSampler es) (run referenceStep .new es) := by
  induction es using List.reverseRecOn with
  | nil => exact ⟨⟨rfl, rfl, rfl, rfl, rfl, rfl⟩, fun h => absurd rfl h⟩
  | append_singleton es e ih =>
    have hsplit : sentToSampler (es ++ [e]) = sentToSampler es ++ sentToSampler [e] :=
      List.filterMap_append
    rw [hsplit, List.pairwise_append] at hes
    obtain ⟨hinit, -, habove⟩ := hes
    obtain ⟨hagree, hends⟩ := ih hinit
    rw [run_concat, run_concat, hsplit]
    cases e with
    | sent t p bytes inFlight =>
      have hp : ∀ k ∈ sentToSampler es, k < p :=
        fun k hk => habove k hk p (List.mem_singleton_self p)
      obtain ⟨hagree', hlast⟩ := hagree.sent hends hp t bytes inFlight
      refine ⟨hagree', fun _ => ?_⟩
      simp only [referenceStep, hlast]
      exact List.mem_append_right _ (List.mem_singleton_self p)
    | lost p =>
      exact ⟨hagree.lost p, fun hne => List.mem_append_left _ (hends.remove p hne)⟩
    | acked t p roundUpdate =>
      refine ⟨hagree.acked t p roundUpdate, ?_⟩
      simp only [EndsWithin, referenceStep, onPacketAcknowledged_connectionStateMap]
      exact fun hne => List.mem_append_left _ (hends.remove p hne)
    | appLimited =>
      exact ⟨{hagree with}, fun hne => List.mem_append_left _ (hends hne)⟩

/-- **`MySampler` is the reference sampler without the app-limited phase.** After every run
of calls with increasing packet numbers the two hold the same. At any acknowledgement then,
`MySampler` answers with the bandwidth of the reference sample if it is a round update, and
with zero if it is not, and goes on to the same state either way. -/
theorem my_sampler_refines_bandwidth_sampler (es : List SamplerEvent)
    (hes : (sentToSampler es).Pairwise (· < ·)) :
    Agree (run samplerStep .new es) (run referenceStep .new es) ∧
    ∀ (t : Int) (p : Nat) (roundUpdate : Bool),
      ((run samplerStep .new es).onPacketAcknowledged t p roundUpdate).1 =
        (if roundUpdate then ((run referenceStep .new es).onPacketAcknowledged t p).1.bandwidth
          else .zero) ∧
      Agree ((run samplerStep .new es).onPacketAcknowledged t p roundUpdate).2
        ((run referenceStep .new es).onPacketAcknowledged t p).2 := by
  have hagree := (agree_run es hes).1
  exact ⟨hagree, fun t p roundUpdate => ⟨hagree.answer t p roundUpdate,
    hagree.acked t p roundUpdate⟩⟩

/-- A gap in the numbers, a loss, a restart after silence and two samples. -/
def samplerCalls : List SamplerEvent :=
  [.sent 1 1 1000 0, .sent 2 4 1000 1000, .acked 11 1 true, .lost 4, .sent 20 5 1000 0,
    .sent 21 6 1000 1000, .acked 30 5 false]

theorem my_sampler_refines_bandwidth_sampler_restart :
    ((run samplerStep .new samplerCalls).onPacketAcknowledged 31 6 true).1.bitsPerSecond =
      1454545448 ∧
    Agree (run samplerStep .new samplerCalls) (run referenceStep .new samplerCalls) :=
  ⟨by decide +kernel, (my_sampler_refines_bandwidth_sampler samplerCalls (by decide)).1⟩

end CongestionResponse.DelayBbr
