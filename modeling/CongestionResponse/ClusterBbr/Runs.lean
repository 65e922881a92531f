import CongestionResponse.ClusterBbr.Graph

/-! Runs of `MyBbrSender`, seen from the cluster graph.

`AckStep` says once what an accepted acknowledgement does to the clusters: the graph
may be cleared on the way into `PROBE_RTT`, the acknowledgement is credited, and the
oldest estimated clusters may be removed. `acceptAck_spec` proves that the step
succeeds and is one; what holds of all runs follows from it. -/
namespace CongestionResponse.ClusterBbr
open Lib Quic ClusterGraph

namespace MyBbrSender

/-- The graph's invariant in a state of the sender. -/
def Coherent (s : MyBbrSender) : Prop :=
  s.graph.Coherent s.control.roundTripCount s.lastAckSeq

/-- Whether an accepted acknowledgement enters `PROBE_RTT`. -/
def entersProbeRtt (s : MyBbrSender) (t : Int) (p : Nat) : Prop :=
  (s.receive t p).rtt.isExpired t ∧ (s.receive t p).control.mode ≠ .probeRtt

instance (s : MyBbrSender) (t : Int) (p : Nat) : Decidable (s.entersProbeRtt t p) :=
  inferInstanceAs (Decidable (_ ∧ _))

/-- What an accepted acknowledgement does to the clusters and the estimates. -/
structure AckStep (s : MyBbrSender) (t : Int) (p : Nat) (s' : MyBbrSender) (g₀ g₁ : ClusterGraph)
    (report : Option Estimate) : Prop where
  kept : ¬s.entersProbeRtt t p → g₀ = s.graph
  cleared : s.entersProbeRtt t p →
    g₀.heap.contents = [] ∧ g₀.seqRoundMap = .empty ∧ g₀.ackedClusters = []
  coherent₀ : g₀.Coherent s'.control.roundTripCount s.lastAckSeq
  coherent₁ : g₁.Coherent s'.control.roundTripCount p
  coherent : s'.Coherent
  lastAckSeq : s'.lastAckSeq = p
  rounds : ¬s.entersProbeRtt t p → s.control.roundTripCount ≤ s'.control.roundTripCount
  probing : ¬s.entersProbeRtt t p → s.control.mode ≠ .probeRtt → s'.control.mode = .probeBw
  acks : Acks g₀ p t g₁.heap.contents g₁.ackedClusters report
  estimates : s'.estimates = s.estimates ++ report.toList
  seqRoundMap : s'.graph.seqRoundMap = g₀.seqRoundMap.erase p
  /-- The removal at the end takes only clusters that are older than an acknowledged one. -/
  trimmed : ∀ x ∈ s'.graph.heap.contents, x ∈ g₁.heap.contents
  gone : ∀ x ∈ g₁.heap.contents, x ∈ s'.graph.heap.contents ∨
    ∃ y ∈ s'.graph.heap.contents, y.2.firstAckTs ≠ 0 ∧ x.2.clusterId < y.2.clusterId

/-! ### Rounds only go up while the graph is kept -/

theorem roundTripCount_enterProbeBandwidthMode (c : Control) (now : Int) :
    c.roundTripCount ≤ (c.enterProbeBandwidthMode now).roundTripCount := by
  unfold Control.enterProbeBandwidthMode
  split
  · exact Nat.le_refl _
  · exact Nat.le_succ _

theorem roundTripCount_leaveStartUp (c : Control) (now : Int) :
    c.roundTripCount ≤ (c.leaveStartUp now).roundTripCount := by
  unfold Control.leaveStartUp
  split
  · exact roundTripCount_enterProbeBandwidthMode c now
  · exact Nat.le_refl _

theorem roundTripCount_cycleGain (c : Control) (minRtt now : Int) :
    c.roundTripCount ≤ (c.cycleGain minRtt now).roundTripCount := by
  unfold Control.cycleGain Control.updateGainCyclePhase
  split
  · split
    · exact Nat.le_succ _
    · exact Nat.le_refl _
  · exact Nat.le_refl _

theorem roundTripCount_receive (s : MyBbrSender) (t : Int) (p : Nat) :
    s.control.roundTripCount ≤ (s.receive t p).control.roundTripCount :=
  (roundTripCount_leaveStartUp _ _).trans (roundTripCount_cycleGain _ _ _)

theorem cycleGain_frame (c : Control) (minRtt now : Int) :
    (c.cycleGain minRtt now).mode = c.mode ∧ (c.cycleGain minRtt now).modeLog = c.modeLog := by
  unfold Control.cycleGain Control.updateGainCyclePhase
  split_ifs <;> exact ⟨rfl, rfl⟩

/-- The first acknowledgement of all ends `START_UP`. -/
theorem mode_receive (s : MyBbrSender) (t : Int) (p : Nat) : (s.receive t p).control.mode =
    if s.control.mode = .probeRtt then .probeRtt else .probeBw := by
  simp only [receive, (cycleGain_frame _ _ _).1, Control.leaveStartUp,
    Control.enterProbeBandwidthMode]
  cases hmode : s.control.mode <;> simp [hmode]

theorem exitProbeRtt_eq (s : MyBbrSender) (now : Int) : s.exitProbeRtt now =
    {s with control := (s.exitProbeRtt now).control, rtt := (s.exitProbeRtt now).rtt} := by
  unfold exitProbeRtt
  split
  · simp only
    split <;> rfl
  · rfl

section ExitProbeRtt
variable (s : MyBbrSender) (now : Int)

theorem graph_exitProbeRtt : (s.exitProbeRtt now).graph = s.graph := by rw [exitProbeRtt_eq]

theorem rates_exitProbeRtt : (s.exitProbeRtt now).rates = s.rates := by rw [exitProbeRtt_eq]

theorem lastAckSeq_exitProbeRtt : (s.exitProbeRtt now).lastAckSeq = s.lastAckSeq := by
  rw [exitProbeRtt_eq]

theorem estimates_exitProbeRtt : (s.exitProbeRtt now).estimates = s.estimates := by
  rw [exitProbeRtt_eq]

end ExitProbeRtt

theorem roundTripCount_exitProbeRtt (s : MyBbrSender) (now : Int) :
    s.control.roundTripCount ≤ (s.exitProbeRtt now).control.roundTripCount := by
  unfold exitProbeRtt
  split
  · simp only
    split
    · exact roundTripCount_enterProbeBandwidthMode
        {s.control with exitProbeRttAt := s.probeRttUntil now} now
    · exact Nat.le_refl _
  · exact Nat.le_refl _

/-! ### One acknowledgement -/

/-- The way through `PROBE_RTT`: the graph is kept, or cleared and the rounds start over. -/
theorem enterProbeRtt_spec {s : MyBbrSender} {last : Nat} (expired : Bool)
    (h : s.graph.Coherent s.control.roundTripCount last) :
    ∃ s', s.enterProbeRtt expired = some s' ∧
      s'.graph.Coherent s'.control.roundTripCount last ∧
      s'.lastAckSeq = s.lastAckSeq ∧ s'.estimates = s.estimates ∧
      (¬(expired ∧ s.control.mode ≠ .probeRtt) → s' = s) ∧
      (expired ∧ s.control.mode ≠ .probeRtt → s'.graph.heap.contents = [] ∧
        s'.graph.seqRoundMap = .empty ∧ s'.graph.ackedClusters = []) := by
  unfold enterProbeRtt
  by_cases henter : expired ∧ s.control.mode ≠ .probeRtt
  · obtain ⟨g', hclear, hcoherent, hempty⟩ := h.clusterInfoClear 0 last
    rw [if_pos henter, hclear]
    exact ⟨_, rfl, hcoherent, rfl, rfl, fun hne => absurd henter hne, fun _ => hempty⟩
  · rw [if_neg henter]
    exact ⟨s, rfl, h, rfl, rfl, fun _ => rfl, fun he => absurd he henter⟩

theorem averageClusters_spec {s : MyBbrSender} (h : s.Coherent) :
    ∃ s', s.averageClusters = some s' ∧ s'.Coherent ∧ s'.control = s.control ∧
      s'.lastAckSeq = s.lastAckSeq ∧ s'.estimates = s.estimates ∧
      s'.graph.seqRoundMap = s.graph.seqRoundMap ∧
      (∀ x ∈ s'.graph.heap.contents, x ∈ s.graph.heap.contents) ∧
      ∀ x ∈ s.graph.heap.contents, x ∈ s'.graph.heap.contents ∨
        ∃ y ∈ s'.graph.heap.contents, y.2.firstAckTs ≠ 0 ∧
          x.2.clusterId < y.2.clusterId := by
  simp only [averageClusters]
  split
  · obtain ⟨infos, hinfos, -⟩ := ClusterGraph.Coherent.ackedInfos h
    obtain ⟨g', hstale, hcoherent, hseq, -, hsub, hgone⟩ :=
      ClusterGraph.Coherent.removeStale h (Nat.sub_le _ (kAverageAckRateWindowSize - 1))
    rw [hinfos, hstale]
    exact ⟨_, rfl, hcoherent, rfl, rfl, rfl, hseq, hsub, hgone⟩
  · exact ⟨s, rfl, h, rfl, rfl, rfl, rfl, fun _ hx => hx, fun _ hx => .inl hx⟩

theorem onEstimate_eq (s : MyBbrSender) (report : Option Estimate) : s.onEstimate report =
    {s with
      rates := (s.onEstimate report).rates
      estimates := s.estimates ++ report.toList} := by
  cases report with
  | none => simp [onEstimate]
  | some e => rfl

/-- The stages of an accepted acknowledgement that succeeds. -/
theorem acceptAck_stages {s s' : MyBbrSender} {t : Int} {p : Nat} (h : s.acceptAck t p = some s') :
    ∃ entered graph report,
      (s.receive t p).enterProbeRtt ((s.receive t p).rtt.isExpired t) = some entered ∧
      (entered.exitProbeRtt t).graph.onAck p t = some (graph, report) ∧
      ({entered.exitProbeRtt t with
        graph := graph}.onEstimate report).calculatePacingRate.averageClusters = some s' := by
  simp only [acceptAck, ackCluster, Option.bind_eq_bind, Option.bind_eq_some_iff] at h
  obtain ⟨entered, henter, next, ⟨⟨graph, report⟩, hack, heq⟩, haverage⟩ := h
  obtain rfl := Option.some.inj heq
  exact ⟨entered, graph, report, henter, hack, haverage⟩

theorem averageClusters_eq {s s' : MyBbrSender} (h : s.averageClusters = some s') :
    s' = {s with
      graph := s'.graph
      rates := {s.rates with
        averageRound := s'.rates.averageRound
        avergaeBandwidth := s'.rates.avergaeBandwidth}} := by
  simp only [averageClusters] at h
  split at h
  · simp only [Option.bind_eq_bind, Option.bind_eq_some_iff] at h
    obtain ⟨infos, -, graph, -, heq⟩ := h
    obtain rfl := Option.some.inj heq
    rfl
  · obtain rfl := Option.some.inj h
    rfl

/-- The state right after an entry into `PROBE_RTT`. -/
def probeRttStart (s : MyBbrSender) (graph : ClusterGraph) : MyBbrSender :=
  {s with
    control := s.control.enterProbeRtt
    rates := s.rates.enterProbeRtt
    rtt := s.rtt.forget
    graph := graph}

/-- An acknowledgement that enters `PROBE_RTT` finds nothing left to credit or to average. -/
theorem acceptAck_entering {s s' : MyBbrSender} {t : Int} {p : Nat} (henters : s.entersProbeRtt t p)
    (h : s.acceptAck t p = some s') :
    ∃ graph, s.graph.clusterInfoClear = some graph ∧ graph.connectionInfo.entries = [] ∧
      graph.seqRoundMap = .empty ∧ graph.ackedClusters = [] ∧
      s' = (((s.receive t p).probeRttStart graph).exitProbeRtt t).calculatePacingRate := by
  obtain ⟨entered, graph, report, henter, hack, haverage⟩ := acceptAck_stages h
  rw [henters.1, enterProbeRtt, if_pos ⟨rfl, henters.2⟩] at henter
  obtain ⟨cleared, hclear, heq⟩ := Option.bind_eq_some_iff.mp henter
  obtain rfl : (s.receive t p).probeRttStart cleared = entered := Option.some.inj heq
  obtain ⟨heap, -, hgraph⟩ := Option.bind_eq_some_iff.mp hclear
  have hentries : cleared.connectionInfo.entries = [] := by
    rw [← Option.some.inj hgraph]
    exact (OrderedMap.popWhile_all _ _ _).2
  have hseq : cleared.seqRoundMap = .empty := by rw [← Option.some.inj hgraph]
  have hacked : cleared.ackedClusters = [] := by rw [← Option.some.inj hgraph]
  refine ⟨cleared, hclear, hentries, hseq, hacked, ?_⟩
  have hgraph' := graph_exitProbeRtt ((s.receive t p).probeRttStart cleared) t
  generalize ((s.receive t p).probeRttStart cleared).exitProbeRtt t = exited
    at hack haverage hgraph' ⊢
  change exited.graph = cleared at hgraph'
  subst hgraph'
  simp only [ClusterGraph.onAck, hseq, OrderedMap.find?_empty, Option.some.injEq, Prod.mk.injEq]
    at hack
  obtain ⟨rfl, rfl⟩ := hack
  have hfew : exited.calculatePacingRate.averageClusters = some exited.calculatePacingRate := by
    rw [averageClusters, show exited.calculatePacingRate.graph.ackedClusters = [] from hacked]
    rfl
  exact Option.some.inj (haverage.symm.trans hfew)

theorem acceptAck_staying {s s' : MyBbrSender} {t : Int} {p : Nat} (hstays : ¬s.entersProbeRtt t p)
    (h : s.acceptAck t p = some s') :
    ∃ graph report, s.graph.onAck p t = some (graph, report) ∧
      ({(s.receive t p).exitProbeRtt t with
        graph := graph}.onEstimate report).calculatePacingRate.averageClusters = some s' := by
  obtain ⟨entered, graph, report, henter, hack, haverage⟩ := acceptAck_stages h
  rw [enterProbeRtt, if_neg (show ¬(_ ∧ _) from hstays)] at henter
  obtain rfl : s.receive t p = entered := Option.some.inj henter
  rw [graph_exitProbeRtt] at hack
  exact ⟨graph, report, hack, haverage⟩

/-- **An accepted acknowledgement succeeds**, and does to the clusters what `AckStep` says. -/
theorem acceptAck_spec {s : MyBbrSender} (h : s.Coherent) {t : Int} (ht : t ≠ 0) {p : Nat}
    (hp : s.lastAckSeq < p) :
    ∃ s' g₀ g₁ report, s.acceptAck t p = some s' ∧ AckStep s t p s' g₀ g₁ report := by
  have hreceive : (s.receive t p).graph.Coherent (s.receive t p).control.roundTripCount
      s.lastAckSeq := h.weaken (roundTripCount_receive s t p) (Nat.le_refl _)
  obtain ⟨s₀, henter, hcoherent₀, hlast₀, hestimates₀, hkept, hcleared⟩ :=
    enterProbeRtt_spec ((s.receive t p).rtt.isExpired t) hreceive
  -- Leaving `PROBE_RTT` starts a new round and does not touch the graph.
  have hcoherent₁ : s₀.graph.Coherent (s₀.exitProbeRtt t).control.roundTripCount s.lastAckSeq :=
    hcoherent₀.weaken (roundTripCount_exitProbeRtt s₀ t) (Nat.le_refl _)
  have hgraph := graph_exitProbeRtt s₀ t
  have hlast : (s₀.exitProbeRtt t).lastAckSeq = p := (lastAckSeq_exitProbeRtt s₀ t).trans hlast₀
  have hestimates : (s₀.exitProbeRtt t).estimates = s.estimates :=
    (estimates_exitProbeRtt s₀ t).trans hestimates₀
  obtain ⟨g₁, report, hack, hcoherent, hseq, hacks⟩ := hcoherent₁.onAck hp ht
  have hs₂ :
      ({s₀.exitProbeRtt t with graph := g₁}.onEstimate report).calculatePacingRate.Coherent := by
    rw [onEstimate_eq]
    show g₁.Coherent (s₀.exitProbeRtt t).control.roundTripCount (s₀.exitProbeRtt t).lastAckSeq
    rw [hlast]
    exact hcoherent
  obtain ⟨s', haverage, hcoherent', hcontrol, hlast', hestimates', hseq', hsub, hgone⟩ :=
    averageClusters_spec hs₂
  rw [onEstimate_eq] at hcontrol hlast' hestimates' hseq' hsub hgone
  refine ⟨s', s₀.graph, g₁, report, ?_, ?_⟩
  · simp only [acceptAck, henter, ackCluster, hgraph, hack, Option.bind_eq_bind, Option.bind_some]
    exact haverage
  · exact
      { kept := fun hne => by rw [hkept hne]; rfl
        cleared := hcleared
        coherent₀ := by rw [hcontrol]; exact hcoherent₁
        coherent₁ := by rw [hcontrol]; exact hcoherent
        coherent := hcoherent'
        lastAckSeq := hlast'.trans hlast
        rounds := fun hne => by
          rw [hcontrol]
          refine (roundTripCount_receive s t p).trans ?_
          rw [← hkept hne]
          exact roundTripCount_exitProbeRtt s₀ t
        probing := fun hne hmode => by
          have hprobing : (s.receive t p).control.mode = .probeBw := by
            rw [mode_receive, if_neg hmode]
          rw [hcontrol]
          show (s₀.exitProbeRtt t).control.mode = .probeBw
          rw [hkept hne, exitProbeRtt, if_neg (by rw [hprobing]; decide)]
          exact hprobing
        acks := hacks
        estimates := by rw [hestimates', ← hestimates]; rfl
        seqRoundMap := hseq'.trans hseq
        trimmed := hsub
        gone := hgone }

/-! ### One packet sent -/

/-- What sending a packet does to the clusters. -/
structure SendStep (s : MyBbrSender) (t : Int) (p bytes : Nat) (s' : MyBbrSender) : Prop where
  coherent : s'.Coherent
  control : s'.control = s.control
  lastAckSeq : s'.lastAckSeq = s.lastAckSeq
  estimates : s'.estimates = s.estimates
  idle : s.control.mode ≠ .probeBw → s'.graph = s.graph
  probing : s.control.mode = .probeBw →
    s'.graph.seqRoundMap = s.graph.seqRoundMap.insert p s.control.roundTripCount ∧
    s'.graph.ackedClusters = s.graph.ackedClusters ∧
    s.graph.Sends s.control.roundTripCount s.control.shouldSendProbePacket t p bytes
      s'.graph.heap.contents

theorem onPacketSent_spec {s : MyBbrSender} (h : s.Coherent) (t : Int) {p : Nat} (bytes : Nat)
    (hp : ∀ k ∈ s.graph.seqRoundMap.keys, k < p) :
    ∃ s', s.onPacketSent t p bytes = some s' ∧ SendStep s t p bytes s' := by
  simp only [onPacketSent]
  by_cases hmode : s.control.mode = .probeBw
  · obtain ⟨g', hadd, hcoherent, hseq, hacked, hsends⟩ :=
      ClusterGraph.Coherent.addPacketInfoSampler h hp s.control.shouldSendProbePacket t bytes
    rw [if_pos hmode, hadd]
    exact ⟨_, rfl, hcoherent, rfl, rfl, rfl, fun hne => absurd hmode hne,
      fun _ => ⟨hseq, hacked, hsends⟩⟩
  · rw [if_neg hmode]
    exact ⟨_, rfl, h, rfl, rfl, rfl, fun _ => rfl, fun heq => absurd heq hmode⟩

end MyBbrSender

/-! ### Whole runs -/

/-- The packet numbers a run sends, in order. -/
def sentNumbers (es : List Event) : List Nat :=
  es.filterMap fun
    | .sent _ p _ => some p
    | _ => none

theorem sentNumbers_append (a b : List Event) :
    sentNumbers (a ++ b) = sentNumbers a ++ sentNumbers b := List.filterMap_append

theorem mem_sentNumbers_concat {es : List Event} {k : Nat} (hk : k ∈ sentNumbers es) (e : Event) :
    k ∈ sentNumbers (es ++ [e]) := by
  rw [sentNumbers, List.filterMap_append, List.mem_append]
  exact .inl hk

/-- What the connection promises: packet numbers go up, and no acknowledgement comes at
time zero. -/
structure Admissible (es : List Event) : Prop where
  increasing : (sentNumbers es).Pairwise (· < ·)
  nonzero : ∀ t p, .ack t p ∈ es → t ≠ 0

theorem Admissible.init {es : List Event} {e : Event} (h : Admissible (es ++ [e])) :
    Admissible es := by
  have hincreasing := h.increasing
  rw [sentNumbers, List.filterMap_append, List.pairwise_append] at hincreasing
  exact ⟨hincreasing.1, fun t p hmem => h.nonzero t p (List.mem_append_left _ hmem)⟩

theorem Admissible.above {es : List Event} {t : Int} {p bytes : Nat}
    (h : Admissible (es ++ [.sent t p bytes])) : ∀ k ∈ sentNumbers es, k < p := by
  intro k hk
  have hincreasing := h.increasing
  rw [sentNumbers, List.filterMap_append, List.pairwise_append] at hincreasing
  exact hincreasing.2.2 k hk p (by simp)

/-- The invariant of a run: coherent, and only sent packets are recorded. -/
structure Sound (es : List Event) (s : MyBbrSender) : Prop where
  coherent : s.Coherent
  recorded : ∀ k ∈ s.graph.seqRoundMap.keys, k ∈ sentNumbers es

theorem sound_sent {es : List Event} {s : MyBbrSender} (h : Sound es s) {t : Int} {p bytes : Nat}
    (hes : Admissible (es ++ [.sent t p bytes])) :
    ∃ s', step s (.sent t p bytes) = some s' ∧ s.SendStep t p bytes s' ∧
      Sound (es ++ [.sent t p bytes]) s' := by
  obtain ⟨s', hsent, hstep⟩ := MyBbrSender.onPacketSent_spec h.coherent t bytes
    fun k hk => hes.above k (h.recorded k hk)
  refine ⟨s', hsent, hstep, hstep.coherent, ?_⟩
  intro k hk
  by_cases hmode : s.control.mode = .probeBw
  · rw [(hstep.probing hmode).1] at hk
    rcases OrderedMap.mem_keys_insert.mp hk with hk | rfl
    · exact mem_sentNumbers_concat (h.recorded k hk) _
    · simp [sentNumbers]
  · rw [hstep.idle hmode] at hk
    exact mem_sentNumbers_concat (h.recorded k hk) _

theorem sound_ack {es : List Event} {s : MyBbrSender} (h : Sound es s) {t : Int} {p : Nat}
    (hes : Admissible (es ++ [.ack t p])) (hp : s.lastAckSeq < p) :
    ∃ s' g₀ g₁ report, step s (.ack t p) = some s' ∧ s.AckStep t p s' g₀ g₁ report ∧
      Sound (es ++ [.ack t p]) s' := by
  obtain ⟨s', g₀, g₁, report, hack, hstep⟩ := MyBbrSender.acceptAck_spec h.coherent
    (hes.nonzero t p (List.mem_append_right _ (List.mem_singleton_self _))) hp
  refine ⟨s', g₀, g₁, report, ?_, hstep, hstep.coherent, ?_⟩
  · simp only [step, MyBbrSender.onAck, Nat.not_le.mpr hp, if_false]
    exact hack
  intro k hk
  apply mem_sentNumbers_concat
  rw [hstep.seqRoundMap] at hk
  have hk₀ := (OrderedMap.mem_keys_erase.mp hk).1
  by_cases henters : s.entersProbeRtt t p
  · rw [(hstep.cleared henters).2.1] at hk₀
    cases hk₀
  · rw [hstep.kept henters] at hk₀
    exact h.recorded k hk₀

/-- Every admissible run succeeds, and ends in a sound state. -/
theorem sound_run (minBps : Nat) (hasObserver : Bool) (random : MyQuicRandom) (es : List Event)
    (hes : Admissible es) :
    ∃ s, tryRun step (.new minBps hasObserver random) es = some s ∧ Sound es s := by
  refine tryRun_history (A := Admissible) (P := Sound) (fun _ _ h => h.init) ?_ ?_ es hes
  · exact ⟨ClusterGraph.coherent_new, fun k hk => by cases hk⟩
  · intro es e s hes _ h
    cases e with
    | sent t p bytes =>
      obtain ⟨s', hstep, -, hsound⟩ := sound_sent h hes
      exact ⟨s', hstep, hsound⟩
    | ack t p =>
      by_cases hp : s.lastAckSeq < p
      · obtain ⟨s', -, -, -, hstep, -, hsound⟩ := sound_ack h hes hp
        exact ⟨s', hstep, hsound⟩
      · refine ⟨s, ?_, h.coherent, fun k hk => mem_sentNumbers_concat (h.recorded k hk) _⟩
        simp only [step, MyBbrSender.onAck, Nat.le_of_not_lt hp, if_true]
    | period ms =>
      exact ⟨_, rfl, h.coherent, fun k hk => mem_sentNumbers_concat (h.recorded k hk) _⟩

/-! ### No pointer to a deleted cluster -/

/-- What the pointers of the graph refer to. `k` and `j` are keys of `connection_info_`. -/
structure RefersToLive (g : ClusterGraph) : Prop where
  acked_live : ∀ a ∈ g.ackedClusters, ∃ k, (k, a) ∈ g.connectionInfo.entries
  acked_increasing : ∃ infos, g.ackedInfos = some infos ∧
    (infos.map SentClusterInfo.clusterId).Pairwise (· < ·)
  live : ∀ k a, (k, a) ∈ g.connectionInfo.entries →
    ∃ c, g.heap.read a = some c ∧ c.value.clusterId = k ∧ c.value.packetInfos ≠ []
  prev : ∀ k a c q, (k, a) ∈ g.connectionInfo.entries → g.heap.read a = some c →
    c.prev = some q → ∃ j, (j, q) ∈ g.connectionInfo.entries ∧ j < k ∧
      ∀ i ∈ g.connectionInfo.keys, i < k → i ≤ j
  next : ∀ k a c n, (k, a) ∈ g.connectionInfo.entries → g.heap.read a = some c →
    c.next = some n → ∃ j, (j, n) ∈ g.connectionInfo.entries ∧ k < j ∧
      ∀ i ∈ g.connectionInfo.keys, k < i → j ≤ i
  inverse : ∀ k a c j b d, (k, a) ∈ g.connectionInfo.entries → g.heap.read a = some c →
    (j, b) ∈ g.connectionInfo.entries → g.heap.read b = some d →
    (c.next = some b ↔ d.prev = some a)

section Coherent
variable {g : ClusterGraph} {round last : Nat}

theorem mem_connectionInfo (h : g.Coherent round last) {k a : Nat} :
    (k, a) ∈ g.connectionInfo.entries ↔ ∃ c, (a, c) ∈ g.heap.contents ∧ c.clusterId = k := by
  rw [← OrderedMap.find?_eq_some]
  exact h.toLinked.find?_connectionInfo

theorem mem_connectionInfo_keys (h : g.Coherent round last) {k : Nat}
    (hk : k ∈ g.connectionInfo.keys) : ∃ a c, (a, c) ∈ g.heap.contents ∧ c.clusterId = k := by
  obtain ⟨a, ha⟩ := OrderedMap.mem_keys.mp hk
  exact ⟨a, h.toLinked.find?_connectionInfo.mp ha⟩

theorem refersToLive (h : g.Coherent round last) : RefersToLive g where
  acked_live := by
    intro a ha
    obtain ⟨⟨c, hc⟩, -⟩ := h.acked a ha
    exact ⟨c.clusterId, (mem_connectionInfo h).mpr ⟨c, hc, rfl⟩⟩
  acked_increasing := h.ackedInfos
  live := by
    intro k a hka
    obtain ⟨c, hc, rfl⟩ := (mem_connectionInfo h).mp hka
    obtain ⟨cell, hread, rfl⟩ := Heap.mem_contents.mp hc
    exact ⟨cell, hread, rfl, h.holdsPackets _ hc⟩
  prev := by
    intro k a c q hka hread hprev
    obtain ⟨d, hd, rfl⟩ := (mem_connectionInfo h).mp hka
    obtain ⟨⟨e, he⟩, hqa, hgreatest⟩ := Heap.prev_some h.chained hread hprev
    refine ⟨e.clusterId, (mem_connectionInfo h).mpr ⟨e, he, rfl⟩,
      (h.toLinked.clusterId_lt_iff he hd).mpr hqa, ?_⟩
    intro i hi hlt
    obtain ⟨b, f, hf, rfl⟩ := mem_connectionInfo_keys h hi
    have hbq := hgreatest _ hf ((h.toLinked.clusterId_lt_iff hf hd).mp hlt)
    exact Nat.le_of_not_lt fun hgt =>
      absurd ((h.toLinked.clusterId_lt_iff he hf).mp hgt) (Nat.not_lt.mpr hbq)
  next := by
    intro k a c n hka hread hnext
    obtain ⟨d, hd, rfl⟩ := (mem_connectionInfo h).mp hka
    obtain ⟨⟨e, he⟩, han, hleast⟩ := Heap.next_some h.chained hread hnext
    refine ⟨e.clusterId, (mem_connectionInfo h).mpr ⟨e, he, rfl⟩,
      (h.toLinked.clusterId_lt_iff hd he).mpr han, ?_⟩
    intro i hi hlt
    obtain ⟨b, f, hf, rfl⟩ := mem_connectionInfo_keys h hi
    have hnb := hleast _ hf ((h.toLinked.clusterId_lt_iff hd hf).mp hlt)
    exact Nat.le_of_not_lt fun hgt =>
      absurd ((h.toLinked.clusterId_lt_iff hf he).mp hgt) (Nat.not_lt.mpr hnb)
  inverse := by
    intro k a c j b d _ hreada _ hreadb
    exact Heap.next_iff_prev h.chained hreada hreadb

end Coherent

/-- **The cluster graph never refers to a deleted cluster.** Every run with increasing
packet numbers and nonzero acknowledgement times succeeds, so it follows no pointer to a
deleted cluster, and in the state it ends in all pointers are to live clusters. -/
theorem cluster_graph_refers_to_live (minBps : Nat) (hasObserver : Bool) (random : MyQuicRandom)
    (es : List Event) (hes : Admissible es) :
    ∃ s, tryRun step (.new minBps hasObserver random) es = some s ∧ RefersToLive s.graph := by
  obtain ⟨s, hrun, hsound⟩ := sound_run minBps hasObserver random es hes
  exact ⟨s, hrun, refersToLive hsound.coherent⟩

/-- A cluster of two packets, and the next round's first packet, whose acknowledgement
has the first cluster estimated. -/
def twoRounds : List Event :=
  [.ack 1 1, .sent 1 2 1000, .sent 2 3 1000, .ack 100 2, .ack 150 3, .sent 160 4 1000, .ack 300 4]

theorem cluster_graph_refers_to_live_two_rounds :
    ((tryRun step (.new 100000 false ⟨fun _ => 2, 0⟩) twoRounds).map fun s =>
      (s.graph.connectionInfo.keys, s.graph.ackedClusters.length)) = some ([1, 2], 1) ∧
    ∃ s, tryRun step (.new 100000 false ⟨fun _ => 2, 0⟩) twoRounds = some s ∧ RefersToLive s.graph :=
  ⟨by decide +kernel, cluster_graph_refers_to_live 100000 false ⟨fun _ => 2, 0⟩ twoRounds
    ⟨by decide, fun t p h => by simp [twoRounds] at h; omega⟩⟩

end CongestionResponse.ClusterBbr
