import CongestionResponse.ClusterBbr.ProbeRtt
import CongestionResponse.ClusterBbr.Reports

/-! Which changes of the reference rate `MyBbrSender` announces.

`CalculatePacingRate` compares its target with the last one and calls the observer, unless the
last one was zero. The target is the reference rate in `PROBE_BW` and zero in the other modes. So
whatever happens in `PROBE_BW` at a positive rate is announced, and nothing that happens otherwise
is. Such changes exist: the floor that a recovery rate gets on the way out of `PROBE_RTT`, and the
first estimate if the minimal rate is zero. -/
namespace CongestionResponse.ClusterBbr
open Lib Quic

/-! ### What `CalculatePacingRate` leaves -/

namespace Rates
variable (r : Rates)

/-- The reference rate that is set in a mode. -/
def referenceIn : Mode → QuicBandwidth
  | .startUp => r.minRate
  | .probeRtt => if r.isRecoverEffective then r.recoverRate else r.minRate
  | .probeBw => r.targetRate

/-- The target that is compared with the last one. -/
def targetIn : Mode → QuicBandwidth
  | .probeBw => r.targetRate
  | _ => .zero

/-- The rates `after` were calculated from `r`, up to the average over clusters. -/
structure Calculates (mode : Mode) (after : Rates) : Prop where
  minBps : after.minBps = r.minBps
  maxBandwidth : after.maxBandwidth = r.maxBandwidth
  maxRateRecord : after.maxRateRecord = r.maxRateRecord
  recoverRate : after.recoverRate = r.recoverRate
  isRecoverEffective : after.isRecoverEffective = r.isRecoverEffective
  hasObserver : after.hasObserver = r.hasObserver
  sendingRate : after.sendingRate = r.referenceIn mode
  lastTargetRate : after.lastTargetRate = r.targetIn mode
  bandwidthUpdates : after.bandwidthUpdates =
    if r.lastTargetRate ≠ .zero ∧ r.lastTargetRate ≠ r.targetIn mode ∧ r.hasObserver then
      r.bandwidthUpdates + 1
    else r.bandwidthUpdates

theorem calculates (mode : Mode) (gain : BinaryFloat) :
    r.Calculates mode (r.calculatePacingRate mode gain) := by
  cases mode with
  | startUp => exact ⟨rfl, rfl, rfl, rfl, rfl, rfl, rfl, rfl, rfl⟩
  | probeBw => exact ⟨rfl, rfl, rfl, rfl, rfl, rfl, rfl, rfl, rfl⟩
  | probeRtt => exact ⟨rfl, rfl, rfl, rfl, rfl, rfl, rfl, rfl, rfl⟩

end Rates

section Calculates
variable {r after : Rates} {mode : Mode}

theorem Rates.Calculates.average (h : r.Calculates mode after) (averageRound : Nat)
    (avergaeBandwidth : WindowedFilter QuicBandwidth) :
    r.Calculates mode {after with
      averageRound := averageRound
      avergaeBandwidth := avergaeBandwidth} :=
  {h with}

theorem Rates.Calculates.targetRate_eq (h : r.Calculates mode after) :
    after.targetRate = r.targetRate := by
  unfold Rates.targetRate Rates.bandwidthEstimate Rates.minRate
  rw [h.minBps, h.maxBandwidth, h.recoverRate, h.isRecoverEffective]

theorem Rates.Calculates.referenceIn_eq (h : r.Calculates mode after) :
    after.sendingRate = after.referenceIn mode := by
  rw [h.sendingRate]
  cases mode with
  | startUp => simp only [Rates.referenceIn, Rates.minRate, h.minBps]
  | probeBw => exact h.targetRate_eq.symm
  | probeRtt =>
    simp only [Rates.referenceIn, Rates.minRate, h.minBps, h.recoverRate, h.isRecoverEffective]

theorem Rates.Calculates.targetIn_eq (h : r.Calculates mode after) :
    after.lastTargetRate = after.targetIn mode := by
  rw [h.lastTargetRate]
  cases mode with
  | startUp => rfl
  | probeBw => exact h.targetRate_eq.symm
  | probeRtt => rfl

end Calculates

/-! ### What an event calculates from -/

/-- The rates that an event calculates from: those there are, those an entry into `PROBE_RTT`
leaves, or those a report leaves. -/
inductive RateStep (s : MyBbrSender) (e : Event) (s' : MyBbrSender) : Prop
  | untouched (hreports : reports s e = []) (hrates : s'.rates = s.rates)
    (hmode : s'.control.mode = s.control.mode) (hgraph : s'.graph = s.graph)
  | entered (hreports : reports s e = []) (hmode : s.control.mode ≠ .probeRtt)
    (hmode' : s'.control.mode ≠ .startUp) (hseq : s'.graph.seqRoundMap = .empty)
    (hcalc : s.rates.enterProbeRtt.Calculates s'.control.mode s'.rates)
  | unreported (hreports : reports s e = [])
    (hmode : s'.control.mode = s.control.mode ∨ s'.control.mode = .probeBw)
    (hseq : s'.control.mode ≠ .probeBw → s.graph.seqRoundMap = .empty →
      s'.graph.seqRoundMap = .empty)
    (hcalc : s.rates.Calculates s'.control.mode s'.rates)
  | reported {r : Estimate} (hreports : reports s e = [r]) (hseq : s.graph.seqRoundMap ≠ .empty)
    (hmode : s.control.mode = .probeBw → s'.control.mode = .probeBw) (hsent : .zero < r.sentBw)
    (hacked : .zero < r.ackedBw)
    (hcalc : (s.rates.onEstimateBandwidth r.info.clusterId r.sentBw r.ackedBw
      r.info.isProbe).Calculates s'.control.mode s'.rates)

section Step
variable {s s' : MyBbrSender} {e : Event} {t : Int} {p : Nat}

/-- An acknowledgement that does not enter `PROBE_RTT` keeps the mode or leads to `PROBE_BW`. -/
theorem mode_of_control (h : s'.control = ((s.receive t p).exitProbeRtt t).control) :
    (s.control.mode = .probeRtt ∧ s'.control.mode = .probeRtt) ∨ s'.control.mode = .probeBw := by
  have hreceive := s.mode_receive t p
  rw [h]
  by_cases hmode : s.control.mode = .probeRtt
  · rw [if_pos hmode] at hreceive
    cases probing_exitProbeRtt hreceive t with
    | lasts hlasts => exact .inl ⟨hmode, hlasts⟩
    | ends hends => exact .inr hends
  · rw [if_neg hmode] at hreceive
    rw [exitProbeRtt_of_ne (by rw [hreceive]; decide), hreceive]
    exact .inr rfl

/-- The rates of an acknowledgement that does not enter `PROBE_RTT`. -/
theorem calculates_of_staying (hstays : ¬s.entersProbeRtt t p) (h : s.acceptAck t p = some s') :
    ∃ graph report, s.graph.onAck p t = some (graph, report) ∧
      (s.onEstimate report).rates.Calculates s'.control.mode s'.rates := by
  obtain ⟨graph, report, hack, haverage⟩ := MyBbrSender.acceptAck_staying hstays h
  refine ⟨graph, report, hack, ?_⟩
  have hrates : ({(s.receive t p).exitProbeRtt t with graph := graph}.onEstimate report).rates =
      (s.onEstimate report).rates := by
    rw [MyBbrSender.exitProbeRtt_eq]
    cases report <;> rfl
  rw [← hrates]
  generalize {(s.receive t p).exitProbeRtt t with graph := graph}.onEstimate report = estimated
    at haverage
  rw [MyBbrSender.averageClusters_eq haverage]
  exact (Rates.calculates ..).average _ _

/-- An entry into `PROBE_RTT` starts with no estimate and an empty map. -/
theorem rateStep_enters {graph : ClusterGraph} (henters : s.entersProbeRtt t p)
    (hseq : graph.seqRoundMap = .empty) (hsilent : reports s (.ack t p) = []) :
    RateStep s (.ack t p)
      (((s.receive t p).probeRttStart graph).exitProbeRtt t).calculatePacingRate := by
  have hmode : s.control.mode ≠ .probeRtt := by
    intro hmode
    exact henters.2 (by rw [MyBbrSender.mode_receive, if_pos hmode])
  have hprobing := probing_exitProbeRtt
    (show ((s.receive t p).probeRttStart graph).control.mode = .probeRtt from rfl) t
  have hmode' :
      (((s.receive t p).probeRttStart graph).exitProbeRtt t).control.mode ≠ .startUp := by
    cases hprobing with
    | lasts hlasts => rw [hlasts]; decide
    | ends hends => rw [hends]; decide
  apply RateStep.entered hsilent hmode
  · exact hmode'
  · rw [s.graph_entered]
    exact hseq
  · rw [MyBbrSender.calculatePacingRate, s.rates_entered]
    exact Rates.calculates ..

/-- Any other accepted acknowledgement sets the rates from what it reports, if anything. -/
theorem rateStep_stays {graph : ClusterGraph} {report : Option Estimate}
    (hlinked : s.graph.Linked s.control.roundTripCount)
    (hack : s.graph.onAck p t = some (graph, report)) (h : s.Stays t p graph report s')
    (hreports : reports s (.ack t p) = report.toList)
    (hcalc : (s.onEstimate report).rates.Calculates s'.control.mode s'.rates) :
    RateStep s (.ack t p) s' := by
  have hmode := mode_of_control h.control
  obtain ⟨-, hacks, -, -, hseq⟩ := h.graph_spec hlinked hack
  cases report with
  | none =>
    refine .unreported hreports (hmode.imp_left fun h => h.2.trans h.1.symm) ?_ hcalc
    intro _ hempty
    rw [hseq, hempty]
    rfl
  | some r =>
    obtain ⟨hsent, hacked⟩ := hacks.report_pos
    refine .reported hreports ?_ ?_ hsent hacked hcalc
    · intro hempty
      rw [ClusterGraph.onAck, hempty, OrderedMap.find?_empty] at hack
      cases hack
    · intro hprobe
      exact hmode.resolve_left fun h => absurd (hprobe.symm.trans h.1) (by decide)

theorem rateStep (hlinked : s.graph.Linked s.control.roundTripCount) (hstep : step s e = some s') :
    RateStep s e s' := by
  have hsame := reports_eq_nil hstep
  cases steps_of_step hstep with
  | unrecorded hmode =>
    exact .unreported (hsame rfl) (.inl rfl) (fun _ h => h) (Rates.calculates ..)
  | recorded hmode hadd =>
    exact .unreported (hsame rfl) (.inl rfl) (fun h => absurd hmode h) (Rates.calculates ..)
  | period => exact .untouched (hsame rfl) rfl rfl rfl
  | ignored hp => exact .untouched (hsame rfl) rfl rfl rfl
  | enters hp henters hclear hindex hseq hacked =>
    exact rateStep_enters henters hseq (hsame (s.estimates_entered ..))
  | @stays t p graph report _ hp hstays hack h =>
    have haccept : s.acceptAck t p = some s' := by
      rw [step, MyBbrSender.onAck, if_neg (Nat.not_le.mpr hp)] at hstep
      exact hstep
    obtain ⟨graph', report', hack', hcalc⟩ := calculates_of_staying hstays haccept
    obtain ⟨rfl, rfl⟩ := Prod.mk.inj (Option.some.inj (hack.symm.trans hack'))
    exact rateStep_stays hlinked hack h (reports_eq hstep h.estimates) hcalc

end Step

/-! ### The states that are reached -/

/-- The rates are those of the mode. Outside `PROBE_BW` no packet waits in a cluster and there is
no estimate, and there is none while a recovery is in effect. -/
structure Published (s : MyBbrSender) : Prop where
  hasObserver : s.rates.hasObserver = true
  reference : s.rates.sendingRate = s.rates.referenceIn s.control.mode
  target : s.rates.lastTargetRate = s.rates.targetIn s.control.mode
  noPacket : s.control.mode ≠ .probeBw → s.graph.seqRoundMap = .empty
  noEstimate : s.control.mode ≠ .probeBw ∨ s.rates.isRecoverEffective = true →
    s.rates.bandwidthEstimate = .zero
  startUp : s.control.mode = .startUp →
    s.rates.isRecoverEffective = false ∧ s.rates.maxRateRecord = .zero

theorem published_new (minBps : Nat) (random : MyQuicRandom) :
    Published (.new minBps true random) :=
  ⟨rfl, rfl, rfl, fun _ => rfl, fun _ => rfl, fun _ => ⟨rfl, rfl⟩⟩

namespace Rates
variable {r : Rates}

theorem onEstimateBandwidth_frame (r : Rates) (clusterId : Nat) (sentBw ackedBw : QuicBandwidth)
    (isProbe : Bool) :
    let after := r.onEstimateBandwidth clusterId sentBw ackedBw isProbe
    after.lastTargetRate = r.lastTargetRate ∧ after.bandwidthUpdates = r.bandwidthUpdates ∧
      after.hasObserver = r.hasObserver ∧ after.minRate = r.minRate ∧
      after.isRecoverEffective = false := by
  unfold onEstimateBandwidth
  split <;> exact ⟨rfl, rfl, rfl, rfl, rfl⟩

/-- Without a recovery and without an estimate the target is the minimum. -/
theorem targetRate_of_none (heffective : r.isRecoverEffective = false)
    (hzero : r.bandwidthEstimate = .zero) : r.targetRate = r.minRate := by
  unfold targetRate
  simp [heffective, hzero]

theorem targetRate_of_recovers (heffective : r.isRecoverEffective = true) :
    r.targetRate = max r.recoverRate r.minRate := by
  unfold targetRate
  simp [heffective]

/-- A target of zero: there is neither a minimum nor an estimate. -/
theorem eq_zero_of_targetRate (hzero : r.targetRate = .zero)
    (hrecovers : r.isRecoverEffective = true → r.bandwidthEstimate = .zero) :
    r.minRate = .zero ∧ r.bandwidthEstimate = .zero := by
  have hmin : r.minRate ≤ .zero := hzero ▸ le_max_right _ _
  refine ⟨le_antisymm hmin (QuicBandwidth.zero_le _), ?_⟩
  by_contra hne
  have heffective : r.isRecoverEffective = false :=
    Bool.eq_false_iff.mpr fun heffective => hne (hrecovers heffective)
  have hle : r.bandwidthEstimate ≤ r.targetRate := by
    unfold targetRate
    simp only [heffective, Bool.false_eq_true, if_false, if_neg hne]
    exact le_max_left _ _
  exact hne (le_antisymm (hzero ▸ hle) (QuicBandwidth.zero_le _))

/-- A share of nothing is recovered with. -/
theorem recoverRate_enterProbeRtt (hzero : r.bandwidthEstimate = .zero) :
    r.enterProbeRtt.recoverRate = .zero := by
  unfold enterProbeRtt
  simp only [hzero]
  split
  · decide
  · decide

theorem isRecoverEffective_enterProbeRtt (hzero : r.maxRateRecord = .zero) :
    r.enterProbeRtt.isRecoverEffective = false := by
  show decide (_ ∧ _) = false
  simp [hzero]

theorem targetIn_eq_referenceIn {mode : Mode} (h : r.targetIn mode ≠ .zero) :
    r.referenceIn mode = r.targetIn mode := by
  cases mode with
  | startUp => exact absurd rfl h
  | probeBw => rfl
  | probeRtt => exact absurd rfl h

end Rates

section Published
variable {s s' : MyBbrSender} {e : Event}

theorem Published.calculated (h : Published s) {pre : Rates}
    (hcalc : pre.Calculates s'.control.mode s'.rates)
    (hobserver : pre.hasObserver = s.rates.hasObserver)
    (hpacket : s'.control.mode ≠ .probeBw → s'.graph.seqRoundMap = .empty)
    (hestimate : s'.control.mode ≠ .probeBw ∨ pre.isRecoverEffective = true →
      pre.bandwidthEstimate = .zero)
    (hstart : s'.control.mode = .startUp →
      pre.isRecoverEffective = false ∧ pre.maxRateRecord = .zero) : Published s' where
  hasObserver := (hcalc.hasObserver.trans hobserver).trans h.hasObserver
  reference := hcalc.referenceIn_eq
  target := hcalc.targetIn_eq
  noPacket := hpacket
  noEstimate := by
    rw [hcalc.isRecoverEffective, Rates.bandwidthEstimate, hcalc.maxBandwidth]
    exact hestimate
  startUp := by
    rw [hcalc.isRecoverEffective, hcalc.maxRateRecord]
    exact hstart

theorem Published.mode_of_reported (h : Published s) (hseq : s.graph.seqRoundMap ≠ .empty) :
    s.control.mode = .probeBw := by
  by_contra hmode
  exact hseq (h.noPacket hmode)

theorem Published.step (h : Published s) (hstep : RateStep s e s') : Published s' := by
  cases hstep with
  | untouched hreports hrates hmode hgraph =>
    constructor
    · rw [hrates]; exact h.hasObserver
    · rw [hrates, hmode]; exact h.reference
    · rw [hrates, hmode]; exact h.target
    · rw [hgraph, hmode]; exact h.noPacket
    · rw [hrates, hmode]; exact h.noEstimate
    · rw [hrates, hmode]; exact h.startUp
  | entered hreports hmode hmode' hseq hcalc =>
    exact h.calculated hcalc rfl (fun _ => hseq) (fun _ => rfl) fun hstart => absurd hstart hmode'
  | unreported hreports hmode hseq hcalc =>
    have hkept (hmode' : s'.control.mode ≠ .probeBw) : s'.control.mode = s.control.mode :=
      hmode.resolve_right hmode'
    apply h.calculated hcalc rfl
    · intro hmode'
      exact hseq hmode' (h.noPacket (hkept hmode' ▸ hmode'))
    · rintro (hmode' | heffective)
      · exact h.noEstimate (.inl (hkept hmode' ▸ hmode'))
      · exact h.noEstimate (.inr heffective)
    · intro hstart
      exact h.startUp ((hkept (by rw [hstart]; decide)).symm.trans hstart)
  | @reported r hreports hseq hmode hsent hacked hcalc =>
    obtain ⟨-, -, hobserver, -, heffective⟩ := s.rates.onEstimateBandwidth_frame r.info.clusterId
      r.sentBw r.ackedBw r.info.isProbe
    have hmode' := hmode (h.mode_of_reported hseq)
    apply h.calculated hcalc hobserver
    · exact fun hne => absurd hmode' hne
    · rintro (hne | heffective')
      · exact absurd hmode' hne
      · rw [heffective] at heffective'
        cases heffective'
    · intro hstart
      exact absurd (hmode'.symm.trans hstart) (by decide)

theorem published_run {minBps : Nat} {random : MyQuicRandom} {es : List Event}
    (hrun : tryRun step (.new minBps true random) es = some s) : Published s := by
  refine tryRun_reaches (A := fun _ => True) (P := fun _ s => Published s) (fun _ _ _ => trivial)
    (published_new minBps random) ?_ trivial hrun
  intro es e s s' _ hrun hstep h
  exact h.step (rateStep (linked_run hrun) hstep)

/-! ### Which changes are announced -/

/-- If the reference rate changes, the observer is called. -/
def Announced (s s' : MyBbrSender) : Prop :=
  s'.getReferenceRate ≠ s.getReferenceRate → s.rates.bandwidthUpdates < s'.rates.bandwidthUpdates

/-- A change that the observer does not hear of: `PROBE_RTT` ends with a recovery rate that is
raised to the minimum, or the first estimate takes the place of a minimum of zero. -/
def Unheard (s : MyBbrSender) (e : Event) (s' : MyBbrSender) : Prop :=
  (s.control.mode = .probeRtt ∧ s'.control.mode = .probeBw ∧ s.rates.isRecoverEffective ∧
    s.rates.recoverRate < s.rates.minRate) ∨
  (s.control.mode = .probeBw ∧ s.getReferenceRate = .zero ∧ ∃ r ∈ reports s e, ¬r.Congested)

/-- Only from a last target of zero can a change go unannounced. -/
theorem Published.announced_iff (h : Published s) {pre : Rates}
    (hcalc : pre.Calculates s'.control.mode s'.rates)
    (hlast : pre.lastTargetRate = s.rates.lastTargetRate)
    (hupdates : pre.bandwidthUpdates = s.rates.bandwidthUpdates)
    (hobserver : pre.hasObserver = s.rates.hasObserver) :
    Announced s s' ↔ (s.rates.lastTargetRate = .zero →
      pre.referenceIn s'.control.mode = s.rates.sendingRate) := by
  unfold Announced MyBbrSender.getReferenceRate
  rw [hcalc.sendingRate, hcalc.bandwidthUpdates, hlast, hupdates, hobserver, h.hasObserver]
  by_cases hzero : s.rates.lastTargetRate = .zero
  · simp [hzero]
  · refine iff_of_true (fun hchanged => ?_) fun hzero' => absurd hzero' hzero
    have hsending : s.rates.sendingRate = s.rates.lastTargetRate := by
      rw [h.target] at hzero ⊢
      rw [h.reference, Rates.targetIn_eq_referenceIn hzero]
    by_cases htarget : s.rates.lastTargetRate = pre.targetIn s'.control.mode
    · rw [htarget] at hzero hsending
      exact absurd ((Rates.targetIn_eq_referenceIn hzero).trans hsending.symm) hchanged
    · rw [if_pos ⟨hzero, htarget, rfl⟩]
      exact Nat.lt_succ_self _

/-- From a target of zero in `PROBE_BW`: neither minimum nor estimate, and the rate is zero. -/
theorem Published.nothing (h : Published s) (hmode : s.control.mode = .probeBw)
    (hzero : s.rates.lastTargetRate = .zero) :
    s.rates.minRate = .zero ∧ s.rates.bandwidthEstimate = .zero ∧ s.rates.sendingRate = .zero := by
  have htarget : s.rates.targetRate = .zero := by
    rw [← hzero, h.target, hmode]
    rfl
  obtain ⟨hmin, hestimate⟩ :=
    Rates.eq_zero_of_targetRate htarget fun heffective => h.noEstimate (.inr heffective)
  refine ⟨hmin, hestimate, ?_⟩
  rw [h.reference, hmode]
  exact htarget

/-- An entry into `PROBE_RTT` from a target of zero leaves the reference rate alone. -/
theorem Published.entered (h : Published s) (hmode : s.control.mode ≠ .probeRtt)
    (hmode' : s'.control.mode ≠ .startUp) (hzero : s.rates.lastTargetRate = .zero) :
    s.rates.enterProbeRtt.referenceIn s'.control.mode = s.rates.sendingRate := by
  have hmin : s.rates.enterProbeRtt.minRate = s.rates.minRate := rfl
  cases hs : s.control.mode with
  | probeRtt => exact absurd hs hmode
  | startUp =>
    have heffective := Rates.isRecoverEffective_enterProbeRtt (h.startUp hs).2
    rw [h.reference, hs]
    cases hs' : s'.control.mode with
    | startUp => exact absurd hs' hmode'
    | probeBw => exact Rates.targetRate_of_none heffective rfl
    | probeRtt => simp [Rates.referenceIn, heffective, hmin]
  | probeBw =>
    obtain ⟨hminimum, hestimate, hsending⟩ := h.nothing hs hzero
    have hrecover := Rates.recoverRate_enterProbeRtt hestimate
    rw [hsending]
    cases hs' : s'.control.mode with
    | startUp => exact absurd hs' hmode'
    | probeBw =>
      show Rates.targetRate _ = _
      cases heffective : s.rates.enterProbeRtt.isRecoverEffective with
      | true =>
        rw [Rates.targetRate_of_recovers heffective, hrecover, hmin, hminimum]
        exact max_self _
      | false => rw [Rates.targetRate_of_none heffective rfl, hmin, hminimum]
    | probeRtt =>
      simp only [Rates.referenceIn, hrecover, hmin, hminimum]
      split <;> rfl

/-- Without a report the reference rate changes from a target of zero exactly if the recovery
rate is raised on the way out of `PROBE_RTT`. -/
theorem Published.unreported (h : Published s)
    (hmode : s'.control.mode = s.control.mode ∨ s'.control.mode = .probeBw) :
    (s.rates.lastTargetRate = .zero →
        s.rates.referenceIn s'.control.mode = s.rates.sendingRate) ↔
      ¬(s.control.mode = .probeRtt ∧ s'.control.mode = .probeBw ∧ s.rates.isRecoverEffective ∧
        s.rates.recoverRate < s.rates.minRate) := by
  by_cases hkept : s'.control.mode = s.control.mode
  · refine iff_of_true (fun _ => by rw [hkept, h.reference]) ?_
    intro hends
    exact absurd ((hkept.symm.trans hends.2.1).symm.trans hends.1) (by decide)
  · have hmode' := hmode.resolve_left hkept
    rw [h.target, h.reference, hmode']
    cases hs : s.control.mode with
    | probeBw => exact absurd (hmode'.trans hs.symm) hkept
    | startUp =>
      have hnone := Rates.targetRate_of_none (h.startUp hs).1
        (h.noEstimate (.inl (by rw [hs]; decide)))
      exact iff_of_true (fun _ => hnone) fun hends => by cases hends.1
    | probeRtt =>
      have hestimate := h.noEstimate (.inl (by rw [hs]; decide))
      cases heffective : s.rates.isRecoverEffective with
      | true =>
        simp [Rates.referenceIn, Rates.targetIn, Rates.targetRate_of_recovers heffective, heffective]
      | false =>
        simp [Rates.referenceIn, Rates.targetIn, Rates.targetRate_of_none heffective hestimate,
          heffective]

/-- A report changes the reference rate from a target of zero exactly if it leaves an estimate. -/
theorem Published.reported (h : Published s) (hmode : s.control.mode = .probeBw) {r : Estimate}
    (hsent : .zero < r.sentBw) (hacked : .zero < r.ackedBw) :
    (s.rates.lastTargetRate = .zero → (s.rates.onEstimateBandwidth r.info.clusterId r.sentBw
        r.ackedBw r.info.isProbe).targetRate = s.rates.sendingRate) ↔
      (s.rates.sendingRate = .zero → r.Congested) := by
  have hsame : s.rates.sendingRate = s.rates.lastTargetRate := by
    rw [h.reference, h.target, hmode]
    rfl
  rw [hsame]
  refine imp_congr_right fun hzero => ?_
  obtain ⟨hmin, hestimate, -⟩ := h.nothing hmode hzero
  obtain ⟨-, -, -, hmin', heffective⟩ := s.rates.onEstimateBandwidth_frame r.info.clusterId
    r.sentBw r.ackedBw r.info.isProbe
  have hpos := s.rates.onEstimateBandwidth_pos r.info.clusterId hsent hacked r.info.isProbe
  rw [hmin] at hmin'
  rw [hzero]
  generalize s.rates.onEstimateBandwidth r.info.clusterId r.sentBw r.ackedBw r.info.isProbe = after
    at hpos hmin' heffective ⊢
  simp only [hestimate, and_true] at hpos
  have htarget : after.targetRate = .zero ↔ after.bandwidthEstimate = .zero := by
    refine ⟨fun htarget => (Rates.eq_zero_of_targetRate htarget ?_).2, fun hnone => ?_⟩
    · rw [heffective]
      exact fun heq => by cases heq
    · rw [Rates.targetRate_of_none heffective hnone, hmin']
  have hne : ¬after.bandwidthEstimate = .zero ↔ .zero < after.bandwidthEstimate :=
    ⟨fun hne => lt_of_le_of_ne (QuicBandwidth.zero_le _) (Ne.symm hne), ne_of_gt⟩
  rw [htarget, ← not_iff_not, hne]
  exact hpos

theorem Published.announced_step (h : Published s) (hstep : RateStep s e s') :
    Announced s s' ↔ ¬Unheard s e s' := by
  cases hstep with
  | untouched hreports hrates hmode hgraph =>
    refine iff_of_true (fun hchanged => ?_) ?_
    · exact absurd (by rw [MyBbrSender.getReferenceRate, hrates]; rfl) hchanged
    · rintro (⟨hs, hs', -⟩ | ⟨-, -, r, hr, -⟩)
      · exact absurd ((hmode.symm.trans hs').symm.trans hs) (by decide)
      · rw [hreports] at hr
        cases hr
  | entered hreports hmode hmode' hseq hcalc =>
    rw [h.announced_iff hcalc rfl rfl rfl]
    refine iff_of_true (h.entered hmode hmode') ?_
    rintro (⟨hs, -⟩ | ⟨-, -, r, hr, -⟩)
    · exact hmode hs
    · rw [hreports] at hr
      cases hr
  | unreported hreports hmode hseq hcalc =>
    rw [h.announced_iff hcalc rfl rfl rfl, h.unreported hmode, Unheard, hreports]
    simp
  | @reported r hreports hseq hmode hsent hacked hcalc =>
    have hs := h.mode_of_reported hseq
    obtain ⟨hlast, hupdates, hobserver, -⟩ := s.rates.onEstimateBandwidth_frame r.info.clusterId
      r.sentBw r.ackedBw r.info.isProbe
    rw [h.announced_iff hcalc hlast hupdates hobserver, hmode hs]
    refine (h.reported hs hsent hacked).trans ?_
    rw [Unheard, hreports]
    simp [hs, MyBbrSender.getReferenceRate]

end Published

/-- **Every change of the reference rate is announced exactly if no recovery rate below the
minimum is raised to it at the end of `PROBE_RTT`, and no report leaves the first estimate where
the rate is zero.** -/
theorem rate_changes_announced_iff (minBps : Nat) (random : MyQuicRandom) (es : List Event) :
    Throughout (fun past e => ∀ s ∈ tryRun step (.new minBps true random) past, ∀ s' ∈ step s e,
        Announced s s') es ↔
      Throughout (fun past e => ∀ s ∈ tryRun step (.new minBps true random) past, ∀ s' ∈ step s e,
        ¬Unheard s e s') es := by
  have hiff (past : List Event) (e : Event) :
      (∀ s ∈ tryRun step (.new minBps true random) past, ∀ s' ∈ step s e, Announced s s') ↔
        ∀ s ∈ tryRun step (.new minBps true random) past, ∀ s' ∈ step s e, ¬Unheard s e s' := by
    refine forall₂_congr fun s hrun => forall₂_congr fun s' hstep => ?_
    exact (published_run hrun).announced_step (rateStep (linked_run hrun) hstep)
  simp only [hiff]

/-- A cluster at 320 Mbit/s, and twenty seconds later an acknowledgement that enters `PROBE_RTT` to
recover with 192 Mbit/s. -/
def recoversBelowMinimum : List Event :=
  [.sent 1 1 1000, .ack 100 1, .sent 110 2 1000, .sent 160 3 1000, .ack 210 2, .ack 260 3,
    .sent 270 4 1000, .ack 380 4, .sent 390 5 1000, .ack 20000000 5, .sent 20000001 6 1000]

/-- With a minimum of 200 Mbit/s, the acknowledgement of packet 6 ends `PROBE_RTT` and raises the
rate, and the observer is not called. -/
theorem raised_recovery_rate_unannounced :
    (∃ s s', tryRun step (.new 200000000 true ⟨fun _ => 2, 0⟩) recoversBelowMinimum = some s ∧
      step s (.ack 20001000 6) = some s' ∧ s.getReferenceRate.bitsPerSecond = 192000000 ∧
      s'.getReferenceRate.bitsPerSecond = 200000000 ∧
      s'.rates.bandwidthUpdates = s.rates.bandwidthUpdates) ∧
    ¬Throughout (fun past e => ∀ s ∈ tryRun step (.new 200000000 true ⟨fun _ => 2, 0⟩) past,
      ∀ s' ∈ step s e, Announced s s') (recoversBelowMinimum ++ [.ack 20001000 6]) := by
  have hbefore : (tryRun step (.new 200000000 true ⟨fun _ => 2, 0⟩) recoversBelowMinimum).map
      (fun s => (s.getReferenceRate.bitsPerSecond, s.rates.bandwidthUpdates)) =
        some (192000000, 2) := by decide +kernel
  have hafter : (tryRun step (.new 200000000 true ⟨fun _ => 2, 0⟩)
      (recoversBelowMinimum ++ [.ack 20001000 6])).map
        (fun s => (s.getReferenceRate.bitsPerSecond, s.rates.bandwidthUpdates)) =
          some (200000000, 2) := by decide +kernel
  obtain ⟨s', hrun', hs'⟩ := Option.map_eq_some_iff.mp hafter
  obtain ⟨s, hrun, hstep⟩ := tryRun_concat_eq_some hrun'
  rw [hrun] at hbefore
  obtain ⟨hrate, hupdates⟩ := Prod.mk.inj (Option.some.inj hbefore)
  obtain ⟨hrate', hupdates'⟩ := Prod.mk.inj hs'
  refine ⟨⟨s, s', hrun, hstep, hrate, hrate', hupdates'.trans hupdates.symm⟩, fun hall => ?_⟩
  have hannounced := (throughout_concat.mp hall).2 s hrun s' hstep
  have hchanged : s'.getReferenceRate ≠ s.getReferenceRate := by
    intro heq
    rw [heq, hrate] at hrate'
    exact absurd hrate' (by decide)
  have hless := hannounced hchanged
  rw [hupdates, hupdates'] at hless
  exact absurd hless (by decide)

end CongestionResponse.ClusterBbr
