import CongestionResponse.ClusterBbr.Steps

/-! Whether a bandwidth report leaves `MyBbrSender` with an estimate.

`TriggerBandwidthEstimate` reports positive rates only, and a report that is not judged
congested leaves an estimate of at least the reported rate. One that is judged congested puts
a share of the estimate so far in its place: nothing, if there was none. So the estimate is
positive from the first report of an epoch on exactly if that first report is not judged
congested (`report_keeps_estimate_iff`); an epoch begins at the start and at every entry into
`PROBE_RTT`. -/
namespace CongestionResponse.ClusterBbr
open Lib Quic ClusterGraph

/-! ### One report -/

def Estimate.Congested (r : Estimate) : Prop :=
  Rates.isCongested r.sentBw r.ackedBw r.info.isProbe

instance (r : Estimate) : Decidable r.Congested := inferInstanceAs (Decidable (_ = true))

theorem backOff_pos {bw : QuicBandwidth} (h : .zero < bw) : .zero < bw.mulFloat (hundredths 65) :=
  QuicBandwidth.mulFloat_pos (d := 24) h (by decide) (by decide) (by decide)

/-- After a report of positive rates there is an estimate, unless the report is judged congested
and there was none before. -/
theorem Rates.onEstimateBandwidth_pos (r : Rates) (clusterId : Nat) {sentBw ackedBw : QuicBandwidth}
    (hsent : .zero < sentBw) (hacked : .zero < ackedBw) (isProbe : Bool) :
    .zero < (r.onEstimateBandwidth clusterId sentBw ackedBw isProbe).bandwidthEstimate ↔
      ¬(isCongested sentBw ackedBw isProbe ∧ r.bandwidthEstimate = .zero) := by
  unfold onEstimateBandwidth bandwidthEstimate
  by_cases hcongested : isCongested sentBw ackedBw isProbe
  · simp only [hcongested, if_true, true_and, backOff]
    by_cases hzero : r.bandwidthEstimate = .zero
    · -- Sixty-five percent of nothing.
      have hnothing : r.bandwidthEstimate.mulFloat (hundredths 65) = .zero := by
        rw [hzero]
        decide
      rw [hnothing]
      refine iff_of_false (fun hpos => ?_) (not_not.mpr hzero)
      rw [WindowedFilter.update, if_pos (.inr (.inl (decide_eq_true (le_refl _))))] at hpos
      exact absurd hpos (lt_irrefl _)
    · have hpos : .zero < r.bandwidthEstimate :=
        lt_of_le_of_ne (QuicBandwidth.zero_le _) (Ne.symm hzero)
      exact iff_of_true (lt_of_lt_of_le (backOff_pos hpos) (WindowedFilter.le_update _ _ _)) hzero
  · simp only [hcongested, Bool.false_eq_true, if_false, false_and, not_false_eq_true, iff_true]
    exact lt_of_lt_of_le (lt_min hsent hacked) (WindowedFilter.le_update _ _ _)

/-! ### One event -/

/-- The reports an event makes. -/
def reports (s : MyBbrSender) (e : Event) : List Estimate :=
  (step s e).elim [] fun s' => s'.estimates.drop s.estimates.length

theorem reports_eq {s s' : MyBbrSender} {e : Event} (hstep : step s e = some s')
    {rs : List Estimate} (h : s'.estimates = s.estimates ++ rs) : reports s e = rs := by
  rw [reports, hstep, Option.elim_some, h, List.drop_left]

theorem reports_eq_nil {s s' : MyBbrSender} {e : Event} (hstep : step s e = some s')
    (h : s'.estimates = s.estimates) : reports s e = [] :=
  reports_eq hstep (h.trans (List.append_nil _).symm)

/-- What an event does to the estimate: an entry into `PROBE_RTT` clears it, a report updates it,
and nothing else touches it. -/
inductive EstimateStep (s : MyBbrSender) (e : Event) (s' : MyBbrSender) : Prop
  | cleared (henters : EntersProbeRtt s e) (hreports : reports s e = [])
    (hestimate : s'.bandwidthEstimate = .zero)
  | kept (hstays : ¬EntersProbeRtt s e) (hreports : reports s e = [])
    (hestimate : s'.bandwidthEstimate = s.bandwidthEstimate)
  | updated (hstays : ¬EntersProbeRtt s e) {r : Estimate} (hreports : reports s e = [r])
    (hsent : .zero < r.sentBw) (hacked : .zero < r.ackedBw)
    (hestimate : .zero < s'.bandwidthEstimate ↔ ¬(r.Congested ∧ s.bandwidthEstimate = .zero))

theorem estimateStep {s s' : MyBbrSender} {e : Event}
    (hlinked : s.graph.Linked s.control.roundTripCount) (hstep : step s e = some s') :
    EstimateStep s e s' := by
  have hsame := reports_eq_nil hstep
  have hpacing (s : MyBbrSender) :
      s.calculatePacingRate.bandwidthEstimate = s.bandwidthEstimate :=
    congrArg WindowedFilter.getBest s.maxBandwidth_calculatePacingRate
  cases steps_of_step hstep with
  | unrecorded hmode => exact .kept id (hsame rfl) (hpacing _)
  | recorded hmode hadd => exact .kept id (hsame rfl) (hpacing _)
  | period => exact .kept id (hsame rfl) rfl
  | ignored hp => exact .kept (fun h => Nat.not_le.mpr h.1 hp) (hsame rfl) rfl
  | @enters t p graph hp henters hclear hindex hseq hacked =>
    have hentry : EntersProbeRtt s (.ack t p) := ⟨hp, henters⟩
    apply EstimateStep.cleared hentry
    · exact hsame (s.estimates_entered ..)
    · rw [hpacing, MyBbrSender.bandwidthEstimate, s.rates_entered]
      rfl
  | @stays t p graph report _ hp hstays hack h =>
    have hnot : ¬EntersProbeRtt s (.ack t p) := fun henters => hstays henters.2
    have hacks := (h.graph_spec hlinked hack).2.1
    have hreports := reports_eq hstep h.estimates
    have hestimate : s'.bandwidthEstimate = (s.onEstimate report).bandwidthEstimate :=
      congrArg WindowedFilter.getBest h.maxBandwidth
    cases report with
    | none => exact .kept hnot hreports hestimate
    | some r =>
      obtain ⟨hsent, hacked⟩ := hacks.report_pos
      apply EstimateStep.updated hnot hreports hsent hacked
      rw [hestimate]
      exact s.rates.onEstimateBandwidth_pos r.info.clusterId hsent hacked r.info.isProbe

/-! ### Whole runs -/

/-- The reports since the start, or since the last entry into `PROBE_RTT`. -/
def nextReports (s : MyBbrSender) (rs : List Estimate) (e : Event) : List Estimate :=
  if EntersProbeRtt s e then [] else rs ++ reports s e

def reportsSince (s : MyBbrSender) (es : List Event) : List Estimate :=
  record step nextReports s [] es

/-- There is no estimate before the first report. -/
theorem no_estimate_before_report {minBps : Nat} {hasObserver : Bool} {random : MyQuicRandom}
    {es : List Event} {s : MyBbrSender}
    (hrun : tryRun step (.new minBps hasObserver random) es = some s)
    (hnone : reportsSince (.new minBps hasObserver random) es = []) :
    s.bandwidthEstimate = .zero := by
  revert hnone
  refine tryRun_reaches (A := fun _ => True)
    (P := fun es s => reportsSince (.new minBps hasObserver random) es = [] →
      s.bandwidthEstimate = .zero) (fun _ _ _ => trivial) (fun _ => rfl) ?_ trivial hrun
  intro es e s s' _ hrun hstep ih hnone
  rw [reportsSince, record_concat _ _ hrun, nextReports] at hnone
  cases estimateStep (linked_run hrun) hstep with
  | cleared henters hreports hestimate => exact hestimate
  | kept hstays hreports hestimate =>
    rw [if_neg hstays, hreports, List.append_nil] at hnone
    rw [hestimate]
    exact ih hnone
  | updated hstays hreports hsent hacked hestimate =>
    rw [if_neg hstays, hreports] at hnone
    simp at hnone

/-- **A report leaves an estimate exactly if it is not the congested first one of its epoch.**
After each report the estimate is positive unless the report is judged congested and there was
no estimate; and along a run the estimate is positive from the first report of every epoch on,
exactly if no first report is judged congested. -/
theorem report_keeps_estimate_iff (minBps : Nat) (hasObserver : Bool) (random : MyQuicRandom)
    (es : List Event) {s : MyBbrSender}
    (hrun : tryRun step (.new minBps hasObserver random) es = some s) :
    (∀ e s', step s e = some s' → ∀ r ∈ reports s e, .zero < r.sentBw ∧ .zero < r.ackedBw ∧
      (.zero < s'.bandwidthEstimate ↔ ¬(r.Congested ∧ s.bandwidthEstimate = .zero))) ∧
    ((∀ past s, past <+: es → tryRun step (.new minBps hasObserver random) past = some s →
        reportsSince (.new minBps hasObserver random) past ≠ [] → .zero < s.bandwidthEstimate) ↔
      Throughout (fun past e => ∀ s ∈ tryRun step (.new minBps hasObserver random) past,
        reportsSince (.new minBps hasObserver random) past = [] →
          ∀ r ∈ reports s e, ¬r.Congested) es) := by
  constructor
  · intro e s' hstep r hr
    cases estimateStep (linked_run hrun) hstep with
    | cleared henters hreports hestimate => simp [hreports] at hr
    | kept hstays hreports hestimate => simp [hreports] at hr
    | updated hstays hreports hsent hacked hestimate =>
      rw [hreports, List.mem_singleton] at hr
      rw [hr]
      exact ⟨hsent, hacked, hestimate⟩
  · refine tryRun_iff (A := fun _ => True)
      (P := fun past s => reportsSince (.new minBps hasObserver random) past ≠ [] →
        .zero < s.bandwidthEstimate)
      (Q := fun past s e => reportsSince (.new minBps hasObserver random) past = [] →
        ∀ r ∈ reports s e, ¬r.Congested)
      (fun _ _ _ => trivial) (fun h => absurd rfl h) ?_ trivial hrun
    intro past e s s' _ hpast hstep hpos
    rw [reportsSince, record_concat _ _ hpast, nextReports]
    cases estimateStep (linked_run hpast) hstep with
    | cleared henters hreports hestimate => simp [henters, hreports]
    | kept hstays hreports hestimate =>
      rw [if_neg hstays, hreports, List.append_nil, hestimate]
      exact iff_of_true hpos (by simp)
    | @updated hstays r hreports hsent hacked hestimate =>
      rw [if_neg hstays, hreports, hestimate]
      by_cases hfirst : reportsSince (.new minBps hasObserver random) past = []
      · simp [hfirst, no_estimate_before_report hpast hfirst]
      · -- A later report finds an estimate, whatever it is judged.
        have hne : s.bandwidthEstimate ≠ .zero := ne_of_gt (hpos hfirst)
        simp [hfirst, hne]

/-- Packets 2 and 3 make a cluster that is reported at 320 Mbit/s. The next one, of packets 4 and
5, is sent at once and acknowledged in a hundred microseconds. -/
def burstLater : List Event :=
  [.sent 1 1 1000, .ack 2 1, .sent 3 2 1000, .sent 53 3 1000, .ack 100 2, .ack 150 3,
    .sent 160 4 1000, .sent 161 5 1000, .ack 300 4, .ack 400 5, .sent 410 6 1000, .ack 500 6]

theorem report_keeps_estimate_burst_later :
    ((tryRun step (.new 100000 false ⟨fun _ => 2, 0⟩) burstLater).map fun s =>
      (s.estimates.map fun r => decide r.Congested, s.bandwidthEstimate.bitsPerSecond)) =
        some ([false, true], 208000000) ∧
    ∀ past s, past <+: burstLater →
      tryRun step (.new 100000 false ⟨fun _ => 2, 0⟩) past = some s →
      reportsSince (.new 100000 false ⟨fun _ => 2, 0⟩) past ≠ [] → .zero < s.bandwidthEstimate := by
  have hreports : ((tryRun step (.new 100000 false ⟨fun _ => 2, 0⟩) burstLater).map fun s =>
      (s.estimates.map fun r => decide r.Congested, s.bandwidthEstimate.bitsPerSecond)) =
        some ([false, true], 208000000) := by decide +kernel
  obtain ⟨s, hrun, -⟩ := Option.map_eq_some_iff.mp hreports
  exact ⟨hreports, (report_keeps_estimate_iff 100000 false ⟨fun _ => 2, 0⟩ burstLater hrun).2.mpr
    (by decide +kernel)⟩

/-- The first cluster is sent at once, so its report is judged congested. -/
def burstFirst : List Event :=
  [.sent 1 1 1000, .ack 2 1, .sent 3 2 1000, .sent 4 3 1000, .ack 100 2, .ack 150 3,
    .sent 160 4 1000, .ack 300 4]

/-- A report of 320 Mbit/s is made, and there is no estimate after it. -/
theorem report_erases_first_estimate :
    ((tryRun step (.new 100000 false ⟨fun _ => 2, 0⟩) burstFirst).map fun s =>
      (s.estimates.map fun r => (r.sentBw.bitsPerSecond, r.ackedBw.bitsPerSecond),
        s.bandwidthEstimate.bitsPerSecond)) = some ([(16000000000, 320000000)], 0) := by
  decide +kernel

end CongestionResponse.ClusterBbr
