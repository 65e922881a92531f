import CongestionResponse.ClusterBbr.Runs

/-! The minimal rate of `MyBbrSender`.

`CalculatePacingRate` puts the minimum under every rate it sets but one: in `PROBE_RTT`, while
a recovery is in effect, the recovery rate is taken as it is. That rate is a fraction of the
bandwidth estimate, computed once, by the acknowledgement that enters `PROBE_RTT`. -/
namespace CongestionResponse.ClusterBbr
open Lib Quic ClusterGraph

/-- The reference rate is at least the minimum, and so is the pacing rate in `START_UP` and
`PROBE_RTT`. -/
structure Floored (minBps : Nat) (s : MyBbrSender) : Prop where
  reference : minBps ≤ s.getReferenceRate.bitsPerSecond
  pace : s.control.mode = .startUp ∨ s.control.mode = .probeRtt →
    minBps ≤ s.paceRate.bitsPerSecond

/-- The estimate is close to the greatest rate since the last `PROBE_RTT`. -/
def Rates.Insists (r : Rates) : Prop :=
  r.maxRateRecord ≠ .zero ∧ r.maxRateRecord.mulFloat insistFactor ≤ r.bandwidthEstimate

/-- An accepted acknowledgement that enters `PROBE_RTT` to stay there, and insists on an
estimate of which the share to recover with is below the minimum. -/
def Undercuts (s : MyBbrSender) : Event → Prop
  | .ack t p => s.lastAckSeq < p ∧ s.entersProbeRtt t p ∧ 0 ≤ (s.receive t p).rtt.globalMinRtt ∧
    s.rates.Insists ∧ s.rates.bandwidthEstimate.mulFloat insistBackOff < s.rates.minRate
  | _ => False

instance (r : Rates) : Decidable r.Insists := inferInstanceAs (Decidable (_ ∧ _))

instance (s : MyBbrSender) : (e : Event) → Decidable (Undercuts s e)
  | .ack _ _ => inferInstanceAs (Decidable (_ ∧ _))
  | .sent _ _ _ => isFalse id
  | .period _ => isFalse id

/-! ### What the rates are computed from -/

/-- The rates are those `CalculatePacingRate` sets in this mode. -/
structure Settled (minBps : Nat) (s : MyBbrSender) : Prop where
  minBps : s.rates.minBps = minBps
  startUp : s.control.mode = .startUp →
    s.rates.sendingRate = s.rates.minRate ∧ s.rates.pacingRate = s.rates.minRate
  probeRtt : s.control.mode = .probeRtt →
    let rate := if s.rates.isRecoverEffective then s.rates.recoverRate else s.rates.minRate
    s.rates.sendingRate = rate ∧ s.rates.pacingRate = rate
  probeBw : s.control.mode = .probeBw → s.rates.minRate ≤ s.rates.sendingRate

/-- The one rate without the minimum under it. -/
def Recovers (s : MyBbrSender) : Prop :=
  s.control.mode = .probeRtt → s.rates.isRecoverEffective → s.rates.minRate ≤ s.rates.recoverRate

theorem settled_calculatePacingRate (s : MyBbrSender) :
    Settled s.rates.minBps s.calculatePacingRate := by
  unfold MyBbrSender.calculatePacingRate Rates.calculatePacingRate
  cases hmode : s.control.mode with
  | startUp =>
    refine ⟨rfl, fun _ => ⟨rfl, rfl⟩, fun h => ?_, fun h => ?_⟩
    all_goals simp [hmode] at h
  | probeRtt =>
    refine ⟨rfl, fun h => ?_, fun _ => ⟨rfl, rfl⟩, fun h => ?_⟩
    all_goals simp [hmode] at h
  | probeBw =>
    refine ⟨rfl, fun h => ?_, fun h => ?_, fun _ => le_max_right _ _⟩
    all_goals simp [hmode] at h

/-- The rest of the state does not matter. -/
theorem Settled.congr {minBps : Nat} {s s' : MyBbrSender} (h : Settled minBps s)
    (hrates : s'.rates = s.rates) (hmode : s'.control.mode = s.control.mode) :
    Settled minBps s' where
  minBps := by rw [hrates]; exact h.minBps
  startUp := by rw [hrates, hmode]; exact h.startUp
  probeRtt := by rw [hrates, hmode]; exact h.probeRtt
  probeBw := by rw [hrates, hmode]; exact h.probeBw

theorem calculatePacingRate_recovers (s : MyBbrSender) :
    Recovers s.calculatePacingRate ↔ Recovers s := by
  unfold MyBbrSender.calculatePacingRate Rates.calculatePacingRate
  cases s.control.mode <;> rfl

/-- In a settled state the minimum is kept exactly if the recovery rate keeps it. -/
theorem Settled.floored_iff {minBps : Nat} {s : MyBbrSender} (h : Settled minBps s)
    (hsmall : minBps < 2 ^ 63) : Floored minBps s ↔ Recovers s := by
  have hmin : s.rates.minRate.bitsPerSecond = minBps := by
    rw [Rates.minRate, h.minBps]
    exact QuicBandwidth.ofU64_of_lt hsmall
  unfold Recovers
  rw [QuicBandwidth.le_def, hmin]
  cases hmode : s.control.mode with
  | startUp =>
    obtain ⟨hsending, hpacing⟩ := h.startUp hmode
    refine iff_of_true ⟨?_, fun _ => ?_⟩ (fun heq => by cases heq)
    · rw [MyBbrSender.getReferenceRate, hsending, hmin]
    · rw [MyBbrSender.paceRate, hpacing, hmin]
  | probeBw =>
    refine iff_of_true ⟨?_, fun hmodes => by simp [hmode] at hmodes⟩ (fun heq => by cases heq)
    rw [← hmin]
    exact h.probeBw hmode
  | probeRtt =>
    obtain ⟨hsending, hpacing⟩ := h.probeRtt hmode
    constructor
    · intro hfloor _ heffective
      have := hfloor.reference
      rwa [MyBbrSender.getReferenceRate, hsending, if_pos heffective] at this
    · intro hrecover
      have hrate : minBps ≤ (if s.rates.isRecoverEffective then s.rates.recoverRate
          else s.rates.minRate).bitsPerSecond := by
        split
        · rename_i heffective
          exact hrecover rfl heffective
        · exact Nat.le_of_eq hmin.symm
      exact ⟨by rw [MyBbrSender.getReferenceRate, hsending]; exact hrate,
        fun _ => by rw [MyBbrSender.paceRate, hpacing]; exact hrate⟩

/-! ### One event -/

section Step
variable {s s' : MyBbrSender} {t : Int} {p : Nat}

/-- An estimate ends the recovery. -/
theorem onEstimate_recovers (s : MyBbrSender) (report : Option Estimate) :
    Recovers (s.onEstimate report) ↔ (report = none → Recovers s) := by
  cases report with
  | none => simp [MyBbrSender.onEstimate]
  | some e =>
    exact iff_of_true (fun _ heffective => by cases heffective) (fun hnone => by cases hnone)

theorem onEstimate_minBps (s : MyBbrSender) (report : Option Estimate) :
    (s.onEstimate report).rates.minBps = s.rates.minBps := by
  cases report with
  | none => rfl
  | some e =>
    show (Rates.onEstimateBandwidth _ _ _ _ _).minBps = _
    unfold Rates.onEstimateBandwidth
    split <;> rfl

/-- What an acknowledgement that stays out of `PROBE_RTT` or in it settles. -/
theorem settled_staying (hstays : ¬s.entersProbeRtt t p) (h : s.acceptAck t p = some s') :
    Settled s.rates.minBps s' ∧
      (Recovers ((s.receive t p).exitProbeRtt t) → Recovers s') := by
  obtain ⟨graph, report, -, haverage⟩ := MyBbrSender.acceptAck_staying hstays h
  have hsettled := settled_calculatePacingRate
    ({(s.receive t p).exitProbeRtt t with graph := graph}.onEstimate report)
  rw [onEstimate_minBps] at hsettled
  have hrecovers := (calculatePacingRate_recovers
    ({(s.receive t p).exitProbeRtt t with graph := graph}.onEstimate report)).trans
      (onEstimate_recovers {(s.receive t p).exitProbeRtt t with graph := graph} report)
  have hminBps : ((s.receive t p).exitProbeRtt t).rates.minBps = s.rates.minBps :=
    congrArg Rates.minBps (MyBbrSender.rates_exitProbeRtt _ t)
  rw [MyBbrSender.averageClusters_eq haverage]
  refine ⟨?_, fun h => hrecovers.mpr fun _ => h⟩
  rw [← hminBps]
  exact ⟨hsettled.minBps, hsettled.startUp, hsettled.probeRtt, hsettled.probeBw⟩

/-- Nothing but an entry brings about `PROBE_RTT`. -/
theorem recovers_exitProbeRtt (hrecovers : Recovers s) :
    Recovers ((s.receive t p).exitProbeRtt t) := by
  intro hmode heffective
  have hreceived : (s.receive t p).control.mode = .probeRtt := by
    by_contra hne
    rw [MyBbrSender.exitProbeRtt, if_neg hne] at hmode
    exact hne hmode
  have hprobing : s.control.mode = .probeRtt := by
    rw [MyBbrSender.mode_receive] at hreceived
    by_contra hne
    rw [if_neg hne] at hreceived
    cases hreceived
  rw [MyBbrSender.rates_exitProbeRtt] at heffective ⊢
  exact hrecovers hprobing heffective

/-- The recovery rate is a share of the estimate, and is in effect if that is insisted on. -/
theorem Rates.recovers_enterProbeRtt (r : Rates) :
    (r.enterProbeRtt.isRecoverEffective →
        r.enterProbeRtt.minRate ≤ r.enterProbeRtt.recoverRate) ↔
      (r.Insists → r.minRate ≤ r.bandwidthEstimate.mulFloat insistBackOff) := by
  have heffective : r.enterProbeRtt.isRecoverEffective = decide r.Insists := rfl
  have hrate : r.enterProbeRtt.recoverRate = r.bandwidthEstimate.mulFloat
    (if decide r.Insists then insistBackOff else cogestionBackOff) := rfl
  rw [heffective, hrate]
  by_cases hinsists : r.Insists
  · rw [decide_eq_true hinsists]
    exact ⟨fun h _ => h rfl, fun h _ => h hinsists⟩
  · rw [decide_eq_false hinsists]
    exact iff_of_true Bool.noConfusion fun h => absurd h hinsists

/-- `PROBE_RTT` lasts beyond its entry if no negative time was measured. -/
theorem mode_exitProbeRtt_enterProbeRtt (s : MyBbrSender) (graph : ClusterGraph) (t : Int) :
    (({s with
      control := s.control.enterProbeRtt
      rates := s.rates.enterProbeRtt
      rtt := s.rtt.forget
      graph := graph} : MyBbrSender).exitProbeRtt t).control.mode = .probeRtt ↔
        0 ≤ s.rtt.globalMinRtt := by
  by_cases hlasts : 0 ≤ s.rtt.globalMinRtt
  · have hstays : ¬t + 4 * s.rtt.globalMinRtt < t := by omega
    simp [MyBbrSender.exitProbeRtt, MyBbrSender.probeRttUntil, Control.enterProbeRtt,
      RttRecord.forget, RttRecord.hasSampledLastMinRtt, hstays, hlasts]
  · have hleaves : t + 4 * s.rtt.globalMinRtt < t := by omega
    simp [MyBbrSender.exitProbeRtt, MyBbrSender.probeRttUntil, Control.enterProbeRtt,
      RttRecord.forget, hleaves, Control.enterProbeBandwidthMode, hlasts]

/-- What an acknowledgement that enters `PROBE_RTT` settles. -/
theorem settled_entering (henters : s.entersProbeRtt t p) (h : s.acceptAck t p = some s') :
    Settled s.rates.minBps s' ∧
      (Recovers s' ↔ (0 ≤ (s.receive t p).rtt.globalMinRtt → s.rates.Insists →
        s.rates.minRate ≤ s.rates.bandwidthEstimate.mulFloat insistBackOff)) := by
  obtain ⟨graph, -, -, -, -, rfl⟩ := MyBbrSender.acceptAck_entering henters h
  have hrates : (((s.receive t p).probeRttStart graph).exitProbeRtt t).rates =
      s.rates.enterProbeRtt := MyBbrSender.rates_exitProbeRtt _ t
  have hsettled := settled_calculatePacingRate
    (((s.receive t p).probeRttStart graph).exitProbeRtt t)
  rw [hrates] at hsettled
  refine ⟨hsettled, (calculatePacingRate_recovers _).trans ?_⟩
  rw [Recovers, hrates, MyBbrSender.probeRttStart, mode_exitProbeRtt_enterProbeRtt]
  exact imp_congr_right fun _ => s.rates.recovers_enterProbeRtt

theorem Settled.acceptAck {minBps : Nat} (h : Settled minBps s) (hrecovers : Recovers s)
    (hp : s.lastAckSeq < p) (hack : s.acceptAck t p = some s') :
    Settled minBps s' ∧ (Recovers s' ↔ ¬Undercuts s (.ack t p)) := by
  rw [← h.minBps]
  by_cases henters : s.entersProbeRtt t p
  · obtain ⟨hsettled, hrecovers'⟩ := settled_entering henters hack
    refine ⟨hsettled, hrecovers'.trans ?_⟩
    simp only [Undercuts, hp, henters, true_and, not_and, not_lt]
  · obtain ⟨hsettled, hrecovers'⟩ := settled_staying henters hack
    refine ⟨hsettled, iff_of_true ?_ fun hundercuts => henters hundercuts.2.1⟩
    exact hrecovers' (recovers_exitProbeRtt hrecovers)

theorem Settled.step {minBps : Nat} (h : Settled minBps s) (hrecovers : Recovers s) {e : Event}
    (hstep : step s e = some s') :
    Settled minBps s' ∧ (Recovers s' ↔ ¬Undercuts s e) := by
  cases e with
  | sent t p bytes =>
    have hsettled := settled_calculatePacingRate s
    rw [h.minBps] at hsettled
    have hrecovers' := (calculatePacingRate_recovers s).mpr hrecovers
    simp only [ClusterBbr.step, MyBbrSender.onPacketSent] at hstep
    split at hstep
    · obtain ⟨graph, -, heq⟩ := Option.bind_eq_some_iff.mp hstep
      obtain rfl := Option.some.inj heq
      exact ⟨hsettled.congr rfl rfl, iff_of_true hrecovers' id⟩
    · obtain rfl := Option.some.inj hstep
      exact ⟨hsettled.congr rfl rfl, iff_of_true hrecovers' id⟩
  | period ms =>
    obtain rfl := Option.some.inj hstep
    exact ⟨h.congr rfl rfl, iff_of_true hrecovers id⟩
  | ack t p =>
    simp only [ClusterBbr.step, MyBbrSender.onAck] at hstep
    by_cases hp : p ≤ s.lastAckSeq
    · rw [if_pos hp] at hstep
      obtain rfl := Option.some.inj hstep
      exact ⟨h, iff_of_true hrecovers fun hundercuts => Nat.not_le.mpr hundercuts.1 hp⟩
    · rw [if_neg hp] at hstep
      exact h.acceptAck hrecovers (Nat.lt_of_not_le hp) hstep

end Step

/-! ### Whole runs -/

theorem settled_new (minBps : Nat) (hasObserver : Bool) (random : MyQuicRandom) :
    Settled minBps (.new minBps hasObserver random) ∧ Recovers (.new minBps hasObserver random) :=
  ⟨⟨rfl, fun _ => ⟨rfl, rfl⟩, fun h => Mode.noConfusion h, fun h => Mode.noConfusion h⟩,
    fun h => Mode.noConfusion h⟩

theorem settled_run {minBps : Nat} {s₀ : MyBbrSender} (h : Settled minBps s₀ ∧ Recovers s₀)
    {es : List Event}
    (hes : Along (attempt step) (fun state e => ∀ s ∈ state, ¬Undercuts s e) (some s₀) es) :
    ∀ s ∈ tryRun step s₀ es, Settled minBps s ∧ Recovers s := by
  refine run_preserves (P := fun state => ∀ s ∈ state, Settled minBps s ∧ Recovers s) ?_
    (by simpa using h) hes
  intro state e hok hstate s' hs'
  obtain ⟨s, rfl, hstep⟩ := Option.bind_eq_some_iff.mp hs'
  obtain ⟨hsettled, hrecovers⟩ := (hstate s rfl).1.step (hstate s rfl).2 hstep
  exact ⟨hsettled, hrecovers.mpr (hok s rfl)⟩

/-- **The minimal rate is kept exactly until an acknowledgement undercuts it.** It holds at
first if the minimum fits a bandwidth, and along every run no event of which undercuts it; in
a state so reached, the next event keeps it if and only if it does not undercut it. -/
theorem rate_floor_kept_iff (minBps : Nat) (hasObserver : Bool) (random : MyQuicRandom) :
    (Floored minBps (.new minBps hasObserver random) ↔ minBps < 2 ^ 63) ∧
    ∀ es s, tryRun step (.new minBps hasObserver random) es = some s → minBps < 2 ^ 63 →
      Along (attempt step) (fun state e => ∀ s ∈ state, ¬Undercuts s e)
        (some (.new minBps hasObserver random)) es →
      Floored minBps s ∧ ∀ e s', step s e = some s' → (Floored minBps s' ↔ ¬Undercuts s e) := by
  have hnew := settled_new minBps hasObserver random
  refine ⟨⟨fun h => ?_, fun hsmall => (hnew.1.floored_iff hsmall).mpr hnew.2⟩, ?_⟩
  · exact Nat.lt_of_le_of_lt h.reference (QuicBandwidth.isInt64 _)
  · intro es s hrun hsmall hes
    obtain ⟨hsettled, hrecovers⟩ := settled_run hnew hes s hrun
    refine ⟨(hsettled.floored_iff hsmall).mpr hrecovers, fun e s' hstep => ?_⟩
    obtain ⟨hsettled', hiff⟩ := hsettled.step hrecovers hstep
    exact (hsettled'.floored_iff hsmall).trans hiff

/-- Two packets at 320 Mbit/s, and twenty seconds later an acknowledgement that enters
`PROBE_RTT` and recovers with 192 Mbit/s. -/
def lateAck : List Event :=
  [.ack 1 1, .sent 1 2 1000, .sent 51 3 1000, .ack 100 2, .ack 150 3, .sent 160 4 1000, .ack 300 4,
    .ack 20000000 5]

theorem rate_floor_kept_late_ack :
    ((tryRun step (.new 100000000 false ⟨fun _ => 2, 0⟩) lateAck).map fun s => s.control.mode) =
      some .probeRtt ∧
    ∃ s, tryRun step (.new 100000000 false ⟨fun _ => 2, 0⟩) lateAck = some s ∧
      Floored 100000000 s := by
  have hmode : ((tryRun step (.new 100000000 false ⟨fun _ => 2, 0⟩) lateAck).map fun s =>
      s.control.mode) = some .probeRtt := by decide +kernel
  obtain ⟨s, hrun, -⟩ := Option.map_eq_some_iff.mp hmode
  exact ⟨hmode, s, hrun, ((rate_floor_kept_iff 100000000 false ⟨fun _ => 2, 0⟩).2 lateAck s hrun
    (by decide) (by decide +kernel)).1⟩

/-- With a minimum of 200 Mbit/s the recovery rate is below it. -/
theorem rate_below_minimum_in_probe_rtt :
    ((tryRun step (.new 200000000 false ⟨fun _ => 2, 0⟩) lateAck).map fun s =>
      (s.control.mode, s.getReferenceRate.bitsPerSecond, s.paceRate.bitsPerSecond)) =
        some (.probeRtt, 192000000, 192000000) ∧
    ∀ s ∈ tryRun step (.new 200000000 false ⟨fun _ => 2, 0⟩) lateAck, ¬Floored 200000000 s := by
  have hrates : ((tryRun step (.new 200000000 false ⟨fun _ => 2, 0⟩) lateAck).map fun s =>
      (s.control.mode, s.getReferenceRate.bitsPerSecond, s.paceRate.bitsPerSecond)) =
        some (.probeRtt, 192000000, 192000000) := by decide +kernel
  refine ⟨hrates, fun s hs hfloored => ?_⟩
  rw [Option.mem_def.mp hs, Option.map_some, Option.some.injEq, Prod.mk.injEq, Prod.mk.injEq]
    at hrates
  have hreference := hfloored.reference
  rw [hrates.2.1] at hreference
  exact absurd hreference (by decide)

end CongestionResponse.ClusterBbr
