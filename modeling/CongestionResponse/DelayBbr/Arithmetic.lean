import CongestionResponse.DelayBbr.RttUpdates

/-! The arithmetic of `MyBbrSenderV5` and its sampler.

A rate is computed from a difference of two byte counts and a duration. The counts are
snapshots from different events, so that the difference does not wrap is an invariant of the
snapshots (`Ordered`); the duration is guarded in the sampler, and in `CalculatePacingRate` it
is a minimum round trip time, which is never negative (`Nonneg`). It is never infinite either
(`Finite`) as long as no two events are `Delta::Infinite()` apart. Byte counts are natural
numbers here, as they are in the source where less than `2 ^ 64` bytes are sent. -/
namespace CongestionResponse.DelayBbr
open Lib Quic

/-! ### Calls of `FromBytesAndTimeDelta` -/

/-- A call: the bytes are a difference. -/
structure RateCall where
  minuend : Nat
  subtrahend : Nat
  duration : Int
deriving DecidableEq

namespace RateCall

def rate (c : RateCall) : QuicBandwidth :=
  .fromBytesAndTimeDelta (subU64 c.minuend c.subtrahend) c.duration

theorem rate_mk (minuend subtrahend : Nat) (duration : Int) :
    rate ⟨minuend, subtrahend, duration⟩ =
      .fromBytesAndTimeDelta (subU64 minuend subtrahend) duration := rfl

/-- The difference does not wrap and the duration is positive. -/
def Safe (c : RateCall) : Prop := c.subtrahend ≤ c.minuend ∧ 0 < c.duration

end RateCall

namespace MySampler

def sendCall (sentPacket : PacketState) : Option RateCall :=
  if sentPacket.lastAckedPacketSentTime < sentPacket.sentTime then
    some ⟨sentPacket.totalBytesSent, sentPacket.totalBytesSentAtLastAckedPacket,
      sentPacket.sentTime - sentPacket.lastAckedPacketSentTime⟩
  else none

def ackCall (totalBytesAcked : Nat) (ackTime : Int) (sentPacket : PacketState) : Option RateCall :=
  if ackTime ≤ sentPacket.lastAckedPacketAckTime then none
  else some ⟨totalBytesAcked, sentPacket.totalBytesAckedAtTheLastAckedPacket,
    ackTime - sentPacket.lastAckedPacketAckTime⟩

/-- The calls that `OnPacketAcknowledgedInner` makes. -/
def rateCalls (totalBytesAcked : Nat) (ackTime : Int) (sentPacket : PacketState)
    (roundUpdate : Bool) : List RateCall :=
  if roundUpdate ∧ sentPacket.lastAckedPacketSentTime ≠ 0 then
    (sendCall sentPacket).toList ++ (ackCall totalBytesAcked ackTime sentPacket).toList
  else []

/-- The sample is computed by these calls: it is the smaller one of the two rates, and there
is none without the second. -/
theorem rateSample_calls (totalBytesAcked : Nat) (ackTime : Int) (sentPacket : PacketState)
    (roundUpdate : Bool) :
    rateSample totalBytesAcked ackTime sentPacket roundUpdate =
      if roundUpdate ∧ sentPacket.lastAckedPacketSentTime ≠ 0 then
        (ackCall totalBytesAcked ackTime sentPacket).elim .zero fun ack =>
          min ((sendCall sentPacket).elim .infinite RateCall.rate) ack.rate
      else .zero := by
  unfold rateSample ackCall sendCall
  cases roundUpdate with
  | false => simp
  | true =>
    by_cases hlast : sentPacket.lastAckedPacketSentTime = 0
    · simp [hlast]
    · simp only [hlast, Bool.not_true, Bool.false_eq_true, if_false, ne_eq, not_false_eq_true,
        and_self, if_true]
      split_ifs
      · rw [Option.elim_none]
      · rw [Option.elim_none]
      · rw [Option.elim_some, Option.elim_some, RateCall.rate_mk, RateCall.rate_mk]
      · rw [Option.elim_some, Option.elim_none, RateCall.rate_mk]

/-! ### Snapshots -/

/-- The counts that are subtracted are the smaller ones. -/
structure Ordered (s : MySampler) : Prop where
  sent : s.totalBytesSentAtLastAckedPacket ≤ s.totalBytesSent
  snapshots : ∀ e ∈ s.packetInfos.entries,
    e.2.totalBytesSentAtLastAckedPacket ≤ e.2.totalBytesSent ∧
      e.2.totalBytesSent ≤ s.totalBytesSent ∧
      e.2.totalBytesAckedAtTheLastAckedPacket ≤ s.totalBytesAcked

variable {s : MySampler}

theorem Ordered.onPacketSent (h : s.Ordered) (t : Int) (p bytes inFlight : Nat) :
    (s.onPacketSent t p bytes inFlight).Ordered := by
  have hsent : (s.countSent t bytes inFlight).totalBytesSentAtLastAckedPacket ≤
      s.totalBytesSent + bytes := by
    have := h.sent
    simp only [countSent]
    split <;> simp only <;> omega
  refine ⟨?_, fun e he => ?_⟩
  · simpa [MySampler.onPacketSent] using hsent
  · simp only [MySampler.onPacketSent, countSent_packetInfos] at he ⊢
    rw [countSent_totalBytesSent, countSent_totalBytesAcked]
    rcases OrderedMap.mem_insert.mp he with hold | ⟨rfl, _⟩
    · obtain ⟨h₁, h₂, h₃⟩ := h.snapshots e hold
      exact ⟨h₁, by omega, h₃⟩
    · simp only [snapshot, countSent_totalBytesSent, countSent_totalBytesAcked]
      exact ⟨hsent, Nat.le_refl _, Nat.le_refl _⟩

theorem Ordered.onPacketsLost (h : s.Ordered) (i n : Nat) : (s.onPacketsLost i n).Ordered := by
  obtain ⟨hcounters, hentries⟩ := onPacketsLost_eq s i n
  rw [hcounters]
  refine ⟨h.sent, fun e he => ?_⟩
  simp only [hentries] at he
  exact h.snapshots e (List.mem_filter.mp he).1

theorem Ordered.onPacketAcknowledged (h : s.Ordered) (t : Int) (p : Nat) (roundUpdate : Bool) :
    (s.onPacketAcknowledged t p roundUpdate).2.Ordered := by
  rw [onPacketAcknowledged_eq]
  cases hfind : s.packetInfos.find? p with
  | none =>
    exact ⟨h.sent, fun e he => h.snapshots e (OrderedMap.mem_erase.mp he).1⟩
  | some state =>
    obtain ⟨_, hsent, _⟩ := h.snapshots _ (OrderedMap.find?_eq_some.mp hfind)
    refine ⟨hsent, fun e he => ?_⟩
    obtain ⟨h₁, h₂, h₃⟩ := h.snapshots e (OrderedMap.mem_erase.mp he).1
    exact ⟨h₁, h₂, Nat.le_add_right_of_le h₃⟩

end MySampler

theorem ordered_step {s : MyBbrSenderV5} (h : s.ledger.sampler.Ordered) (e : Event) :
    (step s e).ledger.sampler.Ordered := by
  rw [ledger_step]
  cases e with
  | sent t p bytes =>
    simp only [Ledger.step, Ledger.onPacketSent]
    split
    · exact h
    · exact h.onPacketSent t p bytes _
  | ack t p =>
    simp only [Ledger.step, Ledger.onAck]
    split
    · exact h
    · exact (h.onPacketsLost _ _).onPacketAcknowledged t p true

theorem ordered_run (minBps : Nat) (random : MyQuicRandom) (es : List Event) :
    (run step (.new minBps random) es).ledger.sampler.Ordered := by
  induction es using List.reverseRecOn with
  | nil => exact ⟨Nat.le_refl 0, fun e he => by cases he⟩
  | append_singleton es e ih =>
    rw [run_concat]
    exact ordered_step ih e

/-! ### Minimum round trip times -/

namespace RttRecord

/-- The minimum, and what may replace it, is not negative. -/
structure Nonneg (r : RttRecord) : Prop where
  minRtt : 0 ≤ r.minRtt
  record : 0 ≤ r.minRttRecord
  decrease : 0 ≤ r.minRttInDecrease

/-- The minimum and the recorded one are finite; that of `ST_DECREASE` may be the infinite one
it begins with. -/
structure Finite (r : RttRecord) : Prop where
  minRtt : r.minRtt < Delta.infinite
  record : r.minRttRecord < Delta.infinite
  decrease : r.minRttInDecrease ≤ Delta.infinite

variable {r : RttRecord}

theorem minRtt_update_eq (r : RttRecord) (mode : Mode) (now : Int) (p : Nat) (rtt : Int) :
    (r.update mode now p rtt).minRtt = if r.minRtt = 0 then rtt else min rtt r.minRtt := by
  rw [MyBbrSenderV5.minRtt_update, MinRtt.minRtt_update]

theorem minRttInDecrease_update (r : RttRecord) (mode : Mode) (now : Int) (p : Nat) (rtt : Int) :
    (r.update mode now p rtt).minRttInDecrease = rtt ∨
      (r.update mode now p rtt).minRttInDecrease = r.minRttInDecrease := by
  have h := congrArg Prod.fst (r.decrease_update mode now p rtt)
  split at h
  · exact .inl h
  · exact .inr h

theorem Nonneg.update (h : r.Nonneg) {rtt : Int} (hrtt : 0 ≤ rtt) (mode : Mode) (now : Int)
    (p : Nat) : (r.update mode now p rtt).Nonneg := by
  refine ⟨?_, ?_, ?_⟩
  · rw [minRtt_update_eq]
    split
    · exact hrtt
    · exact le_min hrtt h.minRtt
  · rw [minRttRecord_update]
    exact h.record
  · rcases r.minRttInDecrease_update mode now p rtt with heq | heq <;> rw [heq]
    · exact hrtt
    · exact h.decrease

theorem Nonneg.backOff (h : r.Nonneg) (p : Nat) : (r.backOff p).Nonneg :=
  ⟨h.minRtt, h.minRtt, show (0 : Int) ≤ Delta.infinite by decide⟩

theorem Nonneg.restore (h : r.Nonneg) (now : Int) : (r.restore now).Nonneg := by
  unfold RttRecord.restore
  split
  · exact ⟨h.record, h.record, h.decrease⟩
  · exact ⟨h.decrease, h.record, h.decrease⟩

theorem Finite.update (h : r.Finite) {rtt : Int} (hrtt : rtt < Delta.infinite) (mode : Mode)
    (now : Int) (p : Nat) : (r.update mode now p rtt).Finite := by
  refine ⟨?_, ?_, ?_⟩
  · rw [minRtt_update_eq]
    split
    · exact hrtt
    · exact min_lt_of_left_lt hrtt
  · rw [minRttRecord_update]
    exact h.record
  · rcases r.minRttInDecrease_update mode now p rtt with heq | heq <;> rw [heq]
    · exact hrtt.le
    · exact h.decrease

theorem Finite.backOff (h : r.Finite) (p : Nat) : (r.backOff p).Finite :=
  ⟨h.minRtt, h.minRtt, Int.le_refl _⟩

/-- The infinite minimum that `ST_DECREASE` begins with is not taken over. -/
theorem Finite.restore (h : r.Finite) (now : Int) : (r.restore now).Finite := by
  unfold RttRecord.restore
  split
  · exact ⟨h.record, h.record, h.decrease⟩
  · rename_i hne
    exact ⟨Int.lt_iff_le_and_ne.mpr ⟨h.decrease, hne⟩, h.record, h.decrease⟩

theorem Nonneg.getMinRtt_pos (h : r.Nonneg) : 0 < r.getMinRtt := by
  have hnonneg := h.minRtt
  unfold getMinRtt Delta.fromMilliseconds
  split <;> omega

end RttRecord

/-! ### Whole runs -/

/-- The calls of `FromBytesAndTimeDelta` that `CalculatePacingRate` makes. It changes nothing
that it reads, so they can be told from the state it leaves. -/
def MyBbrSenderV5.pacingCalls (s : MyBbrSenderV5) : List RateCall :=
  if s.bandwidthEstimate.mulFloat s.control.pacingGain = .zero then
    [⟨kInitialCongestionWindow, 0, s.rtt.getMinRtt⟩]
  else []

/-- The pacing rate is computed by these calls: it is the rate of the call where there is one
and the scaled estimate elsewhere, before the floor of `ST_INCREASE`. -/
theorem MyBbrSenderV5.calculatePacingRate_calls (s : MyBbrSenderV5) :
    let rate := s.pacingCalls.head?.elim
      (s.bandwidthEstimate.mulFloat s.control.pacingGain) RateCall.rate
    s.calculatePacingRate.rates.pacingRate =
        (if s.control.mode = .increase ∧ s.control.pacingGain.eq .one ∧ rate < s.rates.minBw then
          s.rates.minBw else rate) ∧
      s.calculatePacingRate.pacingCalls = s.pacingCalls := by
  intro rate
  have hrate : rate =
      if s.bandwidthEstimate.mulFloat s.control.pacingGain = .zero then
        QuicBandwidth.fromBytesAndTimeDelta kInitialCongestionWindow s.rtt.getMinRtt
      else s.bandwidthEstimate.mulFloat s.control.pacingGain := by
    simp only [rate, MyBbrSenderV5.pacingCalls]
    split
    · rfl
    · rfl
  refine ⟨?_, rfl⟩
  rw [hrate]
  simp only [MyBbrSenderV5.calculatePacingRate, MyBbrSenderV5.targetRates]
  exact apply_ite Prod.fst ..

/-- The calls that the sampler makes for an accepted acknowledgement. -/
def MyBbrSenderV5.samplerCalls (s : MyBbrSenderV5) (t : Int) (p : Nat) : List RateCall :=
  ((s.ledger.onGap p).sampler.packetInfos.find? p).elim [] fun state =>
    MySampler.rateCalls ((s.ledger.onGap p).sampler.totalBytesAcked + state.size) t state
      (s.answer t p).1

/-- All calls of `FromBytesAndTimeDelta` that an event makes. -/
def rateCallsOf (s : MyBbrSenderV5) : Event → List RateCall
  | .sent _ _ _ => []
  | .ack t p =>
    if p ≤ s.ledger.lastAckSeq then []
    else s.samplerCalls t p ++ (step s (.ack t p)).pacingCalls

/-- No two events are infinitely far apart. -/
def Spaced (es : List Event) : Prop :=
  ∀ e ∈ es, ∀ e' ∈ es, e'.time - e.time < Delta.infinite

instance (es : List Event) : Decidable (Spaced es) :=
  inferInstanceAs (Decidable (∀ e ∈ es, ∀ e' ∈ es, e'.time - e.time < Delta.infinite))

theorem safe_rateCalls {st : PacketState} {totalBytesAcked : Nat}
    (hsent : st.totalBytesSentAtLastAckedPacket ≤ st.totalBytesSent)
    (hacked : st.totalBytesAckedAtTheLastAckedPacket ≤ totalBytesAcked) (t : Int)
    (roundUpdate : Bool) : ∀ c ∈ MySampler.rateCalls totalBytesAcked t st roundUpdate, c.Safe := by
  intro c hc
  unfold MySampler.rateCalls at hc
  split at hc
  · rcases List.mem_append.mp hc with hc | hc
    · unfold MySampler.sendCall at hc
      split at hc
      · obtain rfl := List.mem_singleton.mp hc
        exact ⟨hsent, by simp only; omega⟩
      · cases hc
    · unfold MySampler.ackCall at hc
      split at hc
      · cases hc
      · obtain rfl := List.mem_singleton.mp hc
        exact ⟨hacked, by simp only; omega⟩
  · cases hc

theorem safe_samplerCalls {s : MyBbrSenderV5} (h : s.ledger.sampler.Ordered) (t : Int) (p : Nat) :
    ∀ c ∈ s.samplerCalls t p, c.Safe := by
  have hgap : (s.ledger.onGap p).sampler.Ordered := h.onPacketsLost _ _
  unfold MyBbrSenderV5.samplerCalls
  cases hfind : (s.ledger.onGap p).sampler.packetInfos.find? p with
  | none => exact fun c hc => by cases hc
  | some st =>
    obtain ⟨hsent, _, hacked⟩ := hgap.snapshots _ (OrderedMap.find?_eq_some.mp hfind)
    exact safe_rateCalls hsent (Nat.le_add_right_of_le hacked) t _

theorem safe_pacingCalls {s : MyBbrSenderV5} (h : s.rtt.Nonneg) : ∀ c ∈ s.pacingCalls, c.Safe := by
  intro c hc
  unfold MyBbrSenderV5.pacingCalls at hc
  split at hc
  · obtain rfl := List.mem_singleton.mp hc
    exact ⟨Nat.zero_le _, h.getMinRtt_pos⟩
  · cases hc

theorem measured_lt {minBps : Nat} {random : MyQuicRandom} {es : List Event} {e : Event}
    (h : Spaced (es ++ [e])) {rtt : Int}
    (hrtt : measured (run step (.new minBps random) es) e = some rtt) : rtt < Delta.infinite := by
  cases e with
  | sent t p bytes => cases hrtt
  | ack t p =>
    simp only [measured] at hrtt
    split at hrtt
    · cases hrtt
    · obtain ⟨sentTs, bytes, hsent, rfl⟩ := sent_of_rttSample hrtt
      exact h _ (List.mem_append_left _ hsent) _
        (List.mem_append_right _ (List.mem_singleton_self _))

theorem nonneg_run (minBps : Nat) (random : MyQuicRandom) {es : List Event} (h : Chronological es) :
    (run step (.new minBps random) es).rtt.Nonneg := by
  induction es using List.reverseRecOn with
  | nil => exact ⟨Int.le_refl 0, Int.le_refl 0, show (0 : Int) ≤ Delta.infinite by decide⟩
  | append_singleton es e ih =>
    rw [run_concat]
    exact rtt_preserved (P := RttRecord.Nonneg) (ih h.init)
      (fun rtt hrtt => (ih h.init).update (measured_nonneg h hrtt)) (fun _ p hr => hr.backOff p)
      fun _ now hr => hr.restore now

theorem finite_run (minBps : Nat) (random : MyQuicRandom) {es : List Event} (h : Spaced es) :
    (run step (.new minBps random) es).rtt.Finite := by
  induction es using List.reverseRecOn with
  | nil =>
    exact ⟨show (0 : Int) < Delta.infinite by decide, show (0 : Int) < Delta.infinite by decide,
      Int.le_refl _⟩
  | append_singleton es e ih =>
    have hpast : Spaced es := fun a ha b hb =>
      h a (List.mem_append_left _ ha) b (List.mem_append_left _ hb)
    rw [run_concat]
    exact rtt_preserved (P := RttRecord.Finite) (ih hpast)
      (fun rtt hrtt => (ih hpast).update (measured_lt h hrtt)) (fun _ p hr => hr.backOff p)
      fun _ now hr => hr.restore now

/-- **The arithmetic is safe** where time does not run backwards. In every state the counts of
every snapshot are in order, and the minimum round trip time is not negative, nor infinite as
long as no two events are infinitely far apart; and of all the rates that the events compute no
difference wraps and no duration is zero or negative. -/
theorem estimator_arithmetic_safe (minBps : Nat) (random : MyQuicRandom) (es : List Event)
    (htimes : Chronological es) :
    let s := run step (.new minBps random) es
    (∀ x ∈ s.ledger.sampler.packetInfos.entries,
      x.2.totalBytesSentAtLastAckedPacket ≤ x.2.totalBytesSent ∧
        x.2.totalBytesAckedAtTheLastAckedPacket ≤ s.ledger.sampler.totalBytesAcked) ∧
      (∀ c ∈ trace step rateCallsOf (.new minBps random) es, c.Safe) ∧
      0 ≤ s.rtt.minRtt ∧ (Spaced es → s.rtt.minRtt ≠ Delta.infinite) := by
  intro s
  refine ⟨fun x hx => ?_, fun c hc => ?_, (nonneg_run minBps random htimes).minRtt,
    fun hspaced => (finite_run minBps random hspaced).minRtt.ne⟩
  · obtain ⟨hsent, _, hacked⟩ := (ordered_run minBps random es).snapshots x hx
    exact ⟨hsent, hacked⟩
  · obtain ⟨past, e, rest, rfl, hcall⟩ := mem_trace hc
    cases e with
    | sent t p bytes => cases hcall
    | ack t p =>
      simp only [rateCallsOf] at hcall
      split at hcall
      · cases hcall
      rcases List.mem_append.mp hcall with hcall | hcall
      · exact safe_samplerCalls (ordered_run minBps random past) t p c hcall
      · rw [List.append_cons] at htimes
        have hnonneg := nonneg_run minBps random htimes.init
        rw [run_concat] at hnonneg
        exact safe_pacingCalls hnonneg c hcall

/-- A round trip with a sample of its own and the next one. -/
theorem estimator_arithmetic_safe_two_rounds :
    let es : List Event := [.sent 1 1 1000, .ack 1000 1, .sent 2000 2 1000, .ack 4000 2]
    Chronological es ∧ Spaced es ∧
      trace step rateCallsOf (.new 0 ⟨fun _ => 0, 0⟩) es =
        [⟨1000, 0, 999⟩, ⟨10000, 0, 999⟩, ⟨2000, 1000, 2000⟩] ∧
      (∀ c ∈ trace step rateCallsOf (.new 0 ⟨fun _ => 0, 0⟩) es, c.Safe) ∧
      (run step (.new 0 ⟨fun _ => 0, 0⟩) es).rtt.minRtt ≠ Delta.infinite := by
  intro es
  have htimes : Chronological es := by decide
  have hspaced : Spaced es := by decide
  obtain ⟨_, hcalls, _, hfinite⟩ := estimator_arithmetic_safe 0 ⟨fun _ => 0, 0⟩ es htimes
  exact ⟨htimes, hspaced, by decide +kernel, hcalls, hfinite hspaced⟩

/-- A packet sent at `QuicTime::Zero()` and acknowledged at `QuicTime::Infinite()`. -/
theorem min_rtt_infinite_at_infinite_time :
    let es : List Event := [.sent 0 1 1000, .ack Delta.infinite 1]
    Chronological es ∧
      (run step (.new 0 ⟨fun _ => 0, 0⟩) es).rtt.minRtt = Delta.infinite :=
  ⟨by decide, by decide +kernel⟩

end CongestionResponse.DelayBbr
