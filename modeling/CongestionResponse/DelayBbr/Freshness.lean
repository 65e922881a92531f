import CongestionResponse.DelayBbr.DeliveryRate

/-! The bandwidth estimate is always fresh.

The filter is updated on the acknowledgements that end a round, except in the first one, and
dated with the number that the round counter had before. So every update is dated after those
before it. A filter that is updated that way holds values of its last window only. -/
namespace CongestionResponse.DelayBbr
open Lib Quic

/-! ### The updates of the filter -/

/-- The call of `max_bandwidth_.Update` that an event makes: its round and its value. -/
def updates (s : MyBbrSenderV5) : Event → List (Nat × QuicBandwidth)
  | .sent _ _ _ => []
  | .ack t p =>
    if p ≤ s.ledger.lastAckSeq ∨ s.rounds.roundTripCount = 0 ∨ (s.answer t p).1 = false then []
    else [(s.rounds.roundTripCount, (s.answer t p).2.1)]

namespace MyBbrSenderV5
variable (s : MyBbrSenderV5)

theorem rounds_answer (t : Int) (p : Nat) :
    (s.answer t p).2.2.rounds.roundTripCount =
      if (s.answer t p).1 then s.rounds.roundTripCount + 1 else s.rounds.roundTripCount := by
  show ((s.receive t p).updateRoundTripCounter p).2.rounds.roundTripCount =
    if ((s.receive t p).updateRoundTripCounter p).1 then _ else _
  unfold updateRoundTripCounter
  split <;> rfl

theorem maxBandwidth_manage (t : Int) (p round : Nat) (isRoundUpdate : Bool) (bw : QuicBandwidth) :
    (s.manage t p round isRoundUpdate bw).bandwidth.maxBandwidth =
      if round = 0 ∨ isRoundUpdate = false then s.bandwidth.maxBandwidth
      else s.bandwidth.maxBandwidth.update maxFilter bw round := by
  unfold manage
  by_cases hround : round = 0
  · rw [if_pos hround, if_pos (.inl hround)]
    rfl
  · rw [if_neg hround]
    show (s.manageModes t p round isRoundUpdate bw).bandwidth.maxBandwidth = _
    rw [maxBandwidth_manageModes]
    cases isRoundUpdate with
    | false => rw [if_neg Bool.false_ne_true, if_pos (.inr rfl)]
    | true => rw [if_pos rfl, if_neg (not_or.mpr ⟨hround, Bool.noConfusion⟩)]

end MyBbrSenderV5

/-! ### One event -/

/-- An event leaves the filter alone, or updates it once, dated with the round counter, which
moves on. -/
theorem step_updates (s : MyBbrSenderV5) (e : Event) :
    (updates s e = [] ∧ (step s e).bandwidth.maxBandwidth = s.bandwidth.maxBandwidth ∧
        s.rounds.roundTripCount ≤ (step s e).rounds.roundTripCount) ∨
      ∃ bw, updates s e = [(s.rounds.roundTripCount, bw)] ∧
        (step s e).bandwidth.maxBandwidth =
          s.bandwidth.maxBandwidth.update maxFilter bw s.rounds.roundTripCount ∧
        (step s e).rounds.roundTripCount = s.rounds.roundTripCount + 1 := by
  cases e with
  | sent t p bytes => exact .inl ⟨rfl, rfl, Nat.le_refl _⟩
  | ack t p =>
    by_cases hold : p ≤ s.ledger.lastAckSeq
    · have hstep : step s (.ack t p) = s := if_pos hold
      rw [hstep]
      exact .inl ⟨if_pos (.inl hold), rfl, Nat.le_refl _⟩
    · have hstep : step s (.ack t p) = (s.answer t p).2.2.manage t p s.rounds.roundTripCount
          (s.answer t p).1 (s.answer t p).2.1 := if_neg hold
      rw [hstep, MyBbrSenderV5.maxBandwidth_manage, (MyBbrSenderV5.manage_frame ..).2,
        bandwidth_answer, MyBbrSenderV5.rounds_answer]
      by_cases hnone : s.rounds.roundTripCount = 0 ∨ (s.answer t p).1 = false
      · refine .inl ⟨if_pos (.inr hnone), if_pos hnone, ?_⟩
        split <;> omega
      · have hround : (s.answer t p).1 = true := Bool.not_eq_false _ ▸ (not_or.mp hnone).2
        exact .inr ⟨_, if_neg (not_or.mpr ⟨hold, hnone⟩), if_neg hnone, if_pos hround⟩

/-! ### Whole runs -/

/-- The updates so far are dated one after the other, before the round counter, and the filter
holds what they make of it. -/
structure Dated (us : List (Nat × QuicBandwidth)) (s : MyBbrSenderV5) : Prop where
  increasing : us.Pairwise fun u v => u.1 < v.1
  past : ∀ u ∈ us, u.1 < s.rounds.roundTripCount
  filter : s.bandwidth.maxBandwidth = (WindowedFilter.new kBandwidthWindowSize .zero 0).feed us

theorem Dated.step {us : List (Nat × QuicBandwidth)} {s : MyBbrSenderV5} (h : Dated us s)
    (e : Event) : Dated (us ++ updates s e) (step s e) := by
  rcases step_updates s e with ⟨hnone, hfilter, hrounds⟩ | ⟨bw, hupdate, hfilter, hrounds⟩
  · rw [hnone, List.append_nil]
    exact ⟨h.increasing, fun u hu => (h.past u hu).trans_le hrounds, hfilter.trans h.filter⟩
  · rw [hupdate]
    refine ⟨?_, ?_, ?_⟩
    · rw [List.pairwise_append]
      refine ⟨h.increasing, List.pairwise_singleton _ _, fun u hu v hv => ?_⟩
      rw [List.mem_singleton.mp hv]
      exact h.past u hu
    · intro u hu
      rw [hrounds]
      rcases List.mem_append.mp hu with hu | hu
      · exact (h.past u hu).trans (Nat.lt_succ_self _)
      · rw [List.mem_singleton.mp hu]
        exact Nat.lt_succ_self _
    · rw [hfilter, h.filter, WindowedFilter.feed_concat]

section Run
variable (minBps : Nat) (random : MyQuicRandom)

theorem dated_run (es : List Event) :
    Dated (trace step updates (.new minBps random) es) (run step (.new minBps random) es) := by
  induction es using List.reverseRecOn with
  | nil => exact ⟨.nil, fun u hu => (by cases hu), rfl⟩
  | append_singleton es e ih =>
    rw [trace_concat, run_concat]
    exact ih.step e

/-- What an event does to the estimate, from the updates before it and its own: without one
nothing; otherwise the filter knows no later time, and the estimate is the value of an update
of the last window and at least the new value. -/
def Refreshed (past : List (Nat × QuicBandwidth)) (s s' : MyBbrSenderV5) :
    List (Nat × QuicBandwidth) → Prop
  | [] => s'.bandwidthEstimate = s.bandwidthEstimate
  | u :: _ =>
    (∀ x ∈ s.bandwidth.maxBandwidth.estimates, x.time ≤ u.1) ∧ u.2 ≤ s'.bandwidthEstimate ∧
      ∃ v ∈ past ++ [u], v.2 = s'.bandwidthEstimate ∧ v.1 ≤ u.1 ∧
        u.1 ≤ v.1 + kBandwidthWindowSize

/-- **In every run the updates of the filter are dated in strictly increasing rounds, after
each of them the estimate is the value of an update at most a window old and at least the value
just passed, and between them it does not change.** -/
theorem bandwidth_estimate_fresh (es : List Event) (e : Event) :
    (trace step updates (.new minBps random) es).Pairwise (fun u v => u.1 < v.1) ∧
      Refreshed (trace step updates (.new minBps random) es) (run step (.new minBps random) es)
        (run step (.new minBps random) (es ++ [e]))
        (updates (run step (.new minBps random) es) e) := by
  have h := dated_run minBps random es
  refine ⟨h.increasing, ?_⟩
  rw [run_concat]
  rcases step_updates (run step (.new minBps random) es) e with
    ⟨hnone, hfilter, _⟩ | ⟨bw, hupdate, hfilter, _⟩
  · rw [hnone]
    exact congrArg WindowedFilter.getBest hfilter
  · obtain ⟨htimes, hle, hwindow⟩ := WindowedFilter.feed_best kBandwidthWindowSize
      QuicBandwidth.zero (u := ((run step (.new minBps random) es).rounds.roundTripCount, bw))
      fun v hv => (h.past v hv).le
    rw [WindowedFilter.feed_concat, ← h.filter] at hle hwindow
    rw [← h.filter] at htimes
    rw [hupdate]
    refine ⟨htimes, ?_, ?_⟩
    · show bw ≤ WindowedFilter.getBest _
      rw [hfilter]
      exact hle
    · obtain ⟨v, hv, hbest, hv'⟩ := hwindow
      refine ⟨v, hv, ?_, hv'⟩
      show v.2 = WindowedFilter.getBest _
      rw [hfilter]
      exact hbest

end Run
end CongestionResponse.DelayBbr
