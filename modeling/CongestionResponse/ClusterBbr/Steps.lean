import CongestionResponse.ClusterBbr.Runs

/-! What an event does to `MyBbrSender`, in any state.

`Steps` lists the ways a step can go: a packet is sent in a cluster or not, an
acknowledgement is ignored, enters `PROBE_RTT` or is credited. Every step that succeeds is
one of them (`steps_of_step`). Nothing is assumed of the packet numbers or the times here, so
an invariant proved by cases on `Steps` holds of every run that does not follow a pointer to a
deleted cluster. -/
namespace CongestionResponse.ClusterBbr
open Lib Quic ClusterGraph

/-! ### The ways a step can go -/

namespace MyBbrSender

/-- What sending a packet does besides recording it in a cluster. -/
def track (s : MyBbrSender) (t : Int) (p : Nat) : MyBbrSender :=
  {s with rtt := {s.rtt with seqTsMap := s.rtt.seqTsMap.insert p t}}.calculatePacingRate

/-- What an accepted acknowledgement does that does not enter `PROBE_RTT`. -/
structure Stays (s : MyBbrSender) (t : Int) (p : Nat) (graph : ClusterGraph)
    (report : Option Estimate) (s' : MyBbrSender) : Prop where
  lastAckSeq : s'.lastAckSeq = p
  rtt : s'.rtt = ((s.receive t p).exitProbeRtt t).rtt
  control : s'.control = ((s.receive t p).exitProbeRtt t).control
  estimates : s'.estimates = s.estimates ++ report.toList
  maxBandwidth : s'.rates.maxBandwidth = (s.onEstimate report).rates.maxBandwidth
  trimmed : ∃ n, graph.removeStale n = some s'.graph

theorem maxBandwidth_calculatePacingRate (s : MyBbrSender) :
    s.calculatePacingRate.rates.maxBandwidth = s.rates.maxBandwidth := by
  unfold calculatePacingRate Rates.calculatePacingRate
  cases s.control.mode <;> rfl

theorem averageClusters_graph {s s' : MyBbrSender} (h : s.averageClusters = some s') :
    ∃ n, s.graph.removeStale n = some s'.graph := by
  simp only [averageClusters] at h
  split at h
  · obtain ⟨infos, -, h⟩ := Option.bind_eq_some_iff.mp h
    obtain ⟨graph, hstale, heq⟩ := Option.bind_eq_some_iff.mp h
    obtain rfl := Option.some.inj heq
    exact ⟨_, hstale⟩
  · obtain rfl := Option.some.inj h
    exact ⟨0, rfl⟩

theorem stays_of_acceptAck {s s' : MyBbrSender} {t : Int} {p : Nat} (hstays : ¬s.entersProbeRtt t p)
    (h : s.acceptAck t p = some s') :
    ∃ graph report, s.graph.onAck p t = some (graph, report) ∧ s.Stays t p graph report s' := by
  obtain ⟨graph, report, hack, haverage⟩ := acceptAck_staying hstays h
  refine ⟨graph, report, hack, ?_⟩
  have htrimmed := averageClusters_graph haverage
  have hframe := averageClusters_eq haverage
  have hmax := maxBandwidth_calculatePacingRate
    ({(s.receive t p).exitProbeRtt t with graph := graph}.onEstimate report)
  rw [onEstimate_eq, exitProbeRtt_eq] at htrimmed
  constructor
  case lastAckSeq => rw [hframe, onEstimate_eq, exitProbeRtt_eq]; rfl
  case rtt => rw [hframe, onEstimate_eq]; rfl
  case control => rw [hframe, onEstimate_eq]; rfl
  case estimates => rw [hframe, onEstimate_eq, exitProbeRtt_eq]; rfl
  case maxBandwidth =>
    rw [hframe]
    refine hmax.trans ?_
    rw [exitProbeRtt_eq]
    cases report <;> rfl
  case trimmed => exact htrimmed

section Entered
variable (s : MyBbrSender) (t : Int) (p : Nat) (graph : ClusterGraph)

theorem graph_entered :
    (((s.receive t p).probeRttStart graph).exitProbeRtt t).calculatePacingRate.graph = graph :=
  graph_exitProbeRtt _ t

theorem lastAckSeq_entered :
    (((s.receive t p).probeRttStart graph).exitProbeRtt t).calculatePacingRate.lastAckSeq = p :=
  lastAckSeq_exitProbeRtt _ t

theorem estimates_entered :
    (((s.receive t p).probeRttStart graph).exitProbeRtt t).calculatePacingRate.estimates =
      s.estimates :=
  estimates_exitProbeRtt _ t

theorem rates_entered :
    (((s.receive t p).probeRttStart graph).exitProbeRtt t).rates = s.rates.enterProbeRtt :=
  rates_exitProbeRtt _ t

end Entered

end MyBbrSender

open MyBbrSender in
/-- The ways a step can go. -/
inductive Steps (s : MyBbrSender) : Event → MyBbrSender → Prop
  | unrecorded {t : Int} {p bytes : Nat} (hmode : s.control.mode ≠ .probeBw) :
    Steps s (.sent t p bytes) (s.track t p)
  | recorded {t : Int} {p bytes : Nat} {graph : ClusterGraph} (hmode : s.control.mode = .probeBw)
    (hadd : s.graph.addPacketInfoSampler s.control.roundTripCount s.control.shouldSendProbePacket t
      p bytes = some graph) :
    Steps s (.sent t p bytes) {s.track t p with graph := graph}
  | period {ms : Nat} : Steps s (.period ms) (s.userDefinePeriod ms)
  | ignored {t : Int} {p : Nat} (hp : p ≤ s.lastAckSeq) : Steps s (.ack t p) s
  | enters {t : Int} {p : Nat} {graph : ClusterGraph} (hp : s.lastAckSeq < p)
    (henters : s.entersProbeRtt t p) (hclear : s.graph.clusterInfoClear = some graph)
    (hindex : graph.connectionInfo.entries = []) (hseq : graph.seqRoundMap = .empty)
    (hacked : graph.ackedClusters = []) :
    Steps s (.ack t p) (((s.receive t p).probeRttStart graph).exitProbeRtt t).calculatePacingRate
  | stays {t : Int} {p : Nat} {graph : ClusterGraph} {report : Option Estimate} {s' : MyBbrSender}
    (hp : s.lastAckSeq < p) (hstays : ¬s.entersProbeRtt t p)
    (hack : s.graph.onAck p t = some (graph, report)) (h : s.Stays t p graph report s') :
    Steps s (.ack t p) s'

theorem steps_of_step {s s' : MyBbrSender} {e : Event} (h : step s e = some s') : Steps s e s' := by
  cases e with
  | sent t p bytes =>
    simp only [step, MyBbrSender.onPacketSent] at h
    split at h
    · rename_i hmode
      obtain ⟨graph, hadd, heq⟩ := Option.bind_eq_some_iff.mp h
      obtain rfl := Option.some.inj heq
      exact .recorded hmode hadd
    · rename_i hmode
      obtain rfl := Option.some.inj h
      exact .unrecorded hmode
  | period ms =>
    obtain rfl := Option.some.inj h
    exact .period
  | ack t p =>
    simp only [step, MyBbrSender.onAck] at h
    split at h
    · rename_i hp
      obtain rfl := Option.some.inj h
      exact .ignored hp
    · rename_i hp
      by_cases henters : s.entersProbeRtt t p
      · obtain ⟨graph, hclear, hindex, hseq, hacked, rfl⟩ :=
          MyBbrSender.acceptAck_entering henters h
        exact .enters (Nat.lt_of_not_le hp) henters hclear hindex hseq hacked
      · obtain ⟨graph, report, hack, hstays⟩ := MyBbrSender.stays_of_acceptAck henters h
        exact .stays (Nat.lt_of_not_le hp) henters hack hstays

/-! ### The chain -/

/-- What an acknowledgement that stays does to a linked graph. -/
theorem MyBbrSender.Stays.graph_spec {s s' : MyBbrSender} {t : Int} {p : Nat} {graph : ClusterGraph}
    {report : Option Estimate} (h : s.Stays t p graph report s') {round : Nat}
    (hlinked : s.graph.Linked round) (hack : s.graph.onAck p t = some (graph, report)) :
    graph.Linked round ∧ Acks s.graph p t graph.heap.contents graph.ackedClusters report ∧
      s'.graph.Linked round ∧ s'.graph.heap.fresh = s.graph.heap.fresh ∧
      s'.graph.seqRoundMap = s.graph.seqRoundMap.erase p := by
  obtain ⟨g, r, hack', hlinked', hfresh, hseq, hacks⟩ := hlinked.onAck p t
  obtain ⟨rfl, rfl⟩ := Prod.mk.inj (Option.some.inj (hack'.symm.trans hack))
  obtain ⟨n, hstale⟩ := h.trimmed
  obtain ⟨hlinked'', hfresh', hseq', -⟩ := hlinked'.removeStale hstale
  exact ⟨hlinked', hacks, hlinked'', hfresh'.trans hfresh, hseq'.trans hseq⟩

theorem MyBbrSender.Stays.roundTripCount_le {s s' : MyBbrSender} {t : Int} {p : Nat}
    {graph : ClusterGraph} {report : Option Estimate} (h : s.Stays t p graph report s') :
    s.control.roundTripCount ≤ s'.control.roundTripCount := by
  rw [h.control]
  exact (MyBbrSender.roundTripCount_receive s t p).trans
    (MyBbrSender.roundTripCount_exitProbeRtt _ t)

theorem Steps.toLinked {s s' : MyBbrSender} {e : Event} (h : Steps s e s')
    (hlinked : s.graph.Linked s.control.roundTripCount) :
    s'.graph.Linked s'.control.roundTripCount := by
  cases h with
  | unrecorded hmode => exact hlinked
  | recorded hmode hadd => exact (hlinked.added hadd).1
  | period => exact hlinked
  | ignored hp => exact hlinked
  | @enters t p graph hp henters hclear hindex hseq hacked =>
    rw [MyBbrSender.graph_entered]
    exact (hlinked.cleared hclear _).1
  | stays hp hstays hack h =>
    exact (h.graph_spec hlinked hack).2.2.1.weaken h.roundTripCount_le

/-- The clusters are linked after every run that succeeds. -/
theorem linked_run {minBps : Nat} {hasObserver : Bool} {random : MyQuicRandom} {es : List Event}
    {s : MyBbrSender} (hrun : tryRun step (.new minBps hasObserver random) es = some s) :
    s.graph.Linked s.control.roundTripCount := by
  refine tryRun_reaches (A := fun _ => True)
    (P := fun _ s => s.graph.Linked s.control.roundTripCount) (fun _ _ _ => trivial) linked_new ?_
    trivial hrun
  intro _ _ _ _ _ _ hstep hlinked
  exact (steps_of_step hstep).toLinked hlinked

/-- Whether an event enters `PROBE_RTT`. -/
def EntersProbeRtt (s : MyBbrSender) : Event → Prop
  | .ack t p => s.lastAckSeq < p ∧ s.entersProbeRtt t p
  | _ => False

instance (s : MyBbrSender) : (e : Event) → Decidable (EntersProbeRtt s e)
  | .ack _ _ => inferInstanceAs (Decidable (_ ∧ _))
  | .sent _ _ _ => isFalse id
  | .period _ => isFalse id

end CongestionResponse.ClusterBbr
