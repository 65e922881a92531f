import CongestionResponse.ClusterBbr.Reports
import CongestionResponse.ClusterBbr.Tally

/-! Under which gain the packets of a cluster were sent.

A cluster is keyed by the round, and the gain changes together with the round or when all
clusters are deleted (`Turns`). `Dispatch` is what a run records of a packet when it is sent:
the mode, the gain and the round. `Members` says that a live cluster holds exactly the packets
dispatched in its round since the last entry into `PROBE_RTT`, and it holds along every run,
whatever the numbers and the times are. So a cluster is sent under one gain, and only those
sent at 1.25 are taken for probes (`cluster_sent_under_one_gain`). -/
namespace CongestionResponse.ClusterBbr
open Lib Quic ClusterGraph

/-! ### Rounds and gains -/

/-- A change of the gain is a change to a later round. -/
inductive Turns (c c' : Control) : Prop
  | same (hmode : c'.mode = c.mode) (hround : c'.roundTripCount = c.roundTripCount)
    (hgain : c'.pacingGain = c.pacingGain)
  | later (hmode : c'.mode = .probeBw) (hround : c.roundTripCount < c'.roundTripCount)
    (hgain : c'.pacingGain ∈ kPacingGain)

theorem Turns.trans {c c' c'' : Control} (h : Turns c c') (h' : Turns c' c'') : Turns c c'' := by
  cases h' with
  | same hmode' hround' hgain' =>
    cases h with
    | same hmode hround hgain =>
      exact .same (hmode'.trans hmode) (hround'.trans hround) (hgain'.trans hgain)
    | later hmode hround hgain =>
      exact .later (hmode'.trans hmode) (hround' ▸ hround) (hgain' ▸ hgain)
  | later hmode' hround' hgain' =>
    cases h with
    | same hmode hround hgain => exact .later hmode' (hround ▸ hround') hgain'
    | later hmode hround hgain => exact .later hmode' (hround.trans hround') hgain'

theorem Turns.round_le {c c' : Control} (h : Turns c c') : c.roundTripCount ≤ c'.roundTripCount := by
  cases h with
  | same _ hround _ => exact hround.ge
  | later _ hround _ => exact hround.le

theorem turns_refl (c : Control) : Turns c c := .same rfl rfl rfl

/-- Past the end of the table there is its default, which is in it. -/
theorem getD_mem_kPacingGain (offset : Nat) : kPacingGain.getD offset .one ∈ kPacingGain := by
  rw [List.getD_eq_getElem?_getD]
  cases hget : kPacingGain[offset]? with
  | none => decide
  | some gain => exact List.mem_of_getElem? hget

theorem turns_enterProbeBandwidthMode (c : Control) (now : Int) :
    Turns c (c.enterProbeBandwidthMode now) := by
  unfold Control.enterProbeBandwidthMode
  split
  · exact turns_refl c
  · exact .later rfl (Nat.lt_succ_self _) (getD_mem_kPacingGain _)

theorem turns_receive (s : MyBbrSender) (t : Int) (p : Nat) :
    Turns s.control (s.receive t p).control := by
  have hstart : Turns s.control (s.control.leaveStartUp t) := by
    unfold Control.leaveStartUp
    split
    · exact turns_enterProbeBandwidthMode s.control t
    · exact turns_refl _
  apply hstart.trans
  show Turns _ ((s.control.leaveStartUp t).cycleGain _ t)
  unfold Control.cycleGain Control.updateGainCyclePhase
  split
  · rename_i hmode
    split
    · exact .later hmode (Nat.lt_succ_self _) (getD_mem_kPacingGain _)
    · exact turns_refl _
  · exact turns_refl _

theorem turns_exitProbeRtt (s : MyBbrSender) (now : Int) :
    Turns s.control (s.exitProbeRtt now).control := by
  have huntil : Turns s.control {s.control with exitProbeRttAt := s.probeRttUntil now} :=
    .same rfl rfl rfl
  unfold MyBbrSender.exitProbeRtt
  split
  · simp only
    split
    · exact huntil.trans (turns_enterProbeBandwidthMode _ now)
    · exact huntil
  · exact turns_refl _

theorem MyBbrSender.Stays.turns {s s' : MyBbrSender} {t : Int} {p : Nat} {graph : ClusterGraph}
    {report : Option Estimate} (h : s.Stays t p graph report s') : Turns s.control s'.control := by
  rw [h.control]
  exact (turns_receive s t p).trans (turns_exitProbeRtt _ t)

/-- Rounds are counted in `PROBE_BW` only, and its gains are those of the table. -/
structure Control.Phased (c : Control) : Prop where
  idle : c.mode ≠ .probeBw → c.roundTripCount = 0
  probing : c.mode = .probeBw → 0 < c.roundTripCount ∧ c.pacingGain ∈ kPacingGain

theorem Turns.phased {c c' : Control} (h : Turns c c') (hc : c.Phased) : c'.Phased := by
  cases h with
  | same hmode hround hgain =>
    exact ⟨by rw [hmode, hround]; exact hc.idle, by rw [hmode, hround, hgain]; exact hc.probing⟩
  | later hmode hround hgain =>
    exact ⟨fun hne => absurd hmode hne, fun _ => ⟨Nat.zero_lt_of_lt hround, hgain⟩⟩

/-! ### What is recorded of a packet that is sent -/

structure Dispatch where
  seq : Nat
  sentTs : Int
  len : Nat
  mode : Mode
  pacingGain : BinaryFloat
  round : Nat

namespace Dispatch

/-- The packet, as a cluster has it. -/
def packet (d : Dispatch) : Nat × Int × Nat := (d.seq, d.sentTs, d.len)

end Dispatch

def MyBbrSender.dispatch (s : MyBbrSender) (t : Int) (p bytes : Nat) : Dispatch :=
  ⟨p, t, bytes, s.control.mode, s.control.pacingGain, s.control.roundTripCount⟩

def nextDispatches (s : MyBbrSender) (ds : List Dispatch) (e : Event) : List Dispatch :=
  match e with
  | .sent t p bytes => ds ++ [s.dispatch t p bytes]
  | .ack t p => if s.lastAckSeq < p ∧ s.entersProbeRtt t p then [] else ds
  | .period _ => ds

/-- The packets sent since the last entry into `PROBE_RTT`, in all modes. -/
def dispatchesOf (s : MyBbrSender) (es : List Event) : List Dispatch :=
  record step nextDispatches s [] es

theorem dispatchesOf_concat {s s' : MyBbrSender} {es : List Event} (h : tryRun step s es = some s')
    (e : Event) : dispatchesOf s (es ++ [e]) = nextDispatches s' (dispatchesOf s es) e :=
  record_concat nextDispatches [] h e

def dispatchesIn (ds : List Dispatch) (round : Nat) : List Dispatch :=
  ds.filter fun d => decide (d.round = round)

theorem mem_dispatchesIn {ds : List Dispatch} {round : Nat} {d : Dispatch} :
    d ∈ dispatchesIn ds round ↔ d ∈ ds ∧ d.round = round := by
  rw [dispatchesIn, List.mem_filter, decide_eq_true_eq]

theorem dispatchesIn_concat_of_ne {ds : List Dispatch} {d : Dispatch} {round : Nat}
    (h : d.round ≠ round) : dispatchesIn (ds ++ [d]) round = dispatchesIn ds round := by
  simp [dispatchesIn, h]

theorem dispatchesIn_concat_self (ds : List Dispatch) (d : Dispatch) :
    dispatchesIn (ds ++ [d]) d.round = dispatchesIn ds d.round ++ [d] := by
  simp [dispatchesIn]

/-! ### One cluster -/

/-- A cluster holds the packets dispatched in its round, and knows whether their gain was one
to probe with. -/
structure InRound (ds : List Dispatch) (c : SentClusterInfo) : Prop where
  pos : 0 < c.clusterId
  packets : c.packets = (dispatchesIn ds c.clusterId).map Dispatch.packet
  isProbe : ∀ d ∈ dispatchesIn ds c.clusterId, c.isProbe = !(d.pacingGain.le .one)

section InRound
variable {ds : List Dispatch} {d : Dispatch} {c : SentClusterInfo}

theorem InRound.elsewhere (h : InRound ds c) (hround : d.round ≠ c.clusterId) :
    InRound (ds ++ [d]) c where
  pos := h.pos
  packets := by rw [dispatchesIn_concat_of_ne hround]; exact h.packets
  isProbe := by rw [dispatchesIn_concat_of_ne hround]; exact h.isProbe

theorem InRound.joined (h : InRound ds c) (hround : c.clusterId = d.round)
    (hprobe : c.isProbe = !(d.pacingGain.le .one)) :
    InRound (ds ++ [d]) (c.onPacketSent d.sentTs d.seq d.len) where
  pos := h.pos
  packets := by
    show (c.onPacketSent d.sentTs d.seq d.len).packets =
      (dispatchesIn (ds ++ [d]) c.clusterId).map Dispatch.packet
    rw [c.packets_onPacketSent, h.packets, hround, dispatchesIn_concat_self, List.map_append]
    rfl
  isProbe := by
    intro d' hd'
    show c.isProbe = _
    rw [show (c.onPacketSent d.sentTs d.seq d.len).clusterId = d.round from hround,
      dispatchesIn_concat_self, List.mem_append, List.mem_singleton] at hd'
    rcases hd' with hd' | rfl
    · exact h.isProbe d' (hround ▸ hd')
    · exact hprobe

theorem inRound_new {round : Nat} (hpos : 0 < round) (hnone : dispatchesIn ds round = [])
    (isProbe : Bool) : InRound ds (.new round isProbe) where
  pos := hpos
  packets := by
    rw [show (SentClusterInfo.new round isProbe).clusterId = round from rfl, hnone]
    rfl
  isProbe := by
    rw [show (SentClusterInfo.new round isProbe).clusterId = round from rfl, hnone]
    exact fun d hd => absurd hd List.not_mem_nil

theorem InRound.acked (h : InRound ds c) {g : ClusterGraph} {p : Nat} {t : Int}
    {c' : SentClusterInfo} (hfrom : ComesFrom g p t c c') : InRound ds c' where
  pos := by rw [hfrom.clusterId]; exact h.pos
  packets := by rw [hfrom.sameSends.packets, hfrom.clusterId]; exact h.packets
  isProbe := by rw [hfrom.isProbe, hfrom.clusterId]; exact h.isProbe

/-- A cluster that holds packets had one dispatched. -/
theorem InRound.exists_dispatch (h : InRound ds c) (hpackets : c.packetInfos ≠ []) :
    ∃ d, d ∈ dispatchesIn ds c.clusterId := by
  apply List.exists_mem_of_ne_nil
  intro hnil
  have hempty := h.packets
  rw [hnil, List.map_nil, SentClusterInfo.packets, List.map_eq_nil_iff] at hempty
  exact hpackets hempty

end InRound

/-! ### All clusters -/

structure Members (ds : List Dispatch) (s : MyBbrSender) : Prop where
  phased : s.control.Phased
  /-- A packet of a round was sent in `PROBE_BW`, at a gain of the table. -/
  probing : ∀ d ∈ ds, 0 < d.round → d.mode = .probeBw ∧ d.pacingGain ∈ kPacingGain
  rounds : ∀ d ∈ ds, d.round ≤ s.control.roundTripCount
  /-- Rounds do not go back, and each has one gain. -/
  ordered : ds.Pairwise fun d d' =>
    d.round ≤ d'.round ∧ (d.round = d'.round → d.pacingGain = d'.pacingGain)
  current : ∀ d ∈ ds, d.round = s.control.roundTripCount → d.pacingGain = s.control.pacingGain
  clusters : ∀ x ∈ s.graph.heap.contents, InRound ds x.2
  /-- The cluster of the current round is not deleted. -/
  live : ∀ d ∈ ds, 0 < d.round → d.round = s.control.roundTripCount →
    ∃ x ∈ s.graph.heap.contents, x.2.clusterId = d.round
  acked : ∀ a ∈ s.graph.ackedClusters, a < s.graph.heap.fresh ∧
    ∀ c, (a, c) ∈ s.graph.heap.contents → c.clusterId < s.control.roundTripCount

/-- Where there is no cluster, nothing need have been dispatched. -/
theorem members_empty {s : MyBbrSender} (hphased : s.control.Phased)
    (hcontents : s.graph.heap.contents = []) (hacked : s.graph.ackedClusters = []) :
    Members [] s where
  phased := hphased
  probing := fun d hd => by cases hd
  rounds := fun d hd => by cases hd
  ordered := List.Pairwise.nil
  current := fun d hd => by cases hd
  clusters := by rw [hcontents]; exact fun x hx => by cases hx
  live := fun d hd => by cases hd
  acked := by rw [hacked]; exact fun a ha => by cases ha

section Members
variable {ds : List Dispatch} {s s' : MyBbrSender} {t : Int} {p bytes : Nat}

theorem Members.gains (h : Members ds s) {d d' : Dispatch} (hd : d ∈ ds) (hd' : d' ∈ ds)
    (hround : d.round = d'.round) : d.pacingGain = d'.pacingGain := by
  rcases pairwise_cases h.ordered hd hd' with rfl | hbefore | hafter
  · rfl
  · exact hbefore.2 hround
  · exact (hafter.2 hround.symm).symm

/-- The cluster of the current round has the flag that the current gain gives. -/
theorem Members.isProbe_current (h : Members ds s) {x : Nat × SentClusterInfo}
    (hx : x ∈ s.graph.heap.contents) (hpackets : x.2.packetInfos ≠ [])
    (hround : x.2.clusterId = s.control.roundTripCount) :
    x.2.isProbe = s.control.shouldSendProbePacket := by
  obtain ⟨d, hd⟩ := (h.clusters x hx).exists_dispatch hpackets
  rw [(h.clusters x hx).isProbe d hd, Control.shouldSendProbePacket,
    h.current d (mem_dispatchesIn.mp hd).1 ((mem_dispatchesIn.mp hd).2.trans hround)]

/-- A packet is dispatched; what is left to say is what becomes of the clusters. -/
theorem Members.sent (h : Members ds s) (t : Int) (p bytes : Nat)
    (hcontrol : s'.control = s.control)
    (hclusters : ∀ x ∈ s'.graph.heap.contents, InRound (ds ++ [s.dispatch t p bytes]) x.2)
    (hlive : ∀ d ∈ ds ++ [s.dispatch t p bytes], 0 < d.round →
      d.round = s.control.roundTripCount → ∃ x ∈ s'.graph.heap.contents, x.2.clusterId = d.round)
    (hacked : ∀ a ∈ s'.graph.ackedClusters, a < s'.graph.heap.fresh ∧
      ∀ c, (a, c) ∈ s'.graph.heap.contents → c.clusterId < s.control.roundTripCount) :
    Members (ds ++ [s.dispatch t p bytes]) s' where
  phased := by rw [hcontrol]; exact h.phased
  probing := by
    intro d hd hpos
    rcases List.mem_append.mp hd with hd | hd
    · exact h.probing d hd hpos
    · obtain rfl := List.mem_singleton.mp hd
      have hmode : s.control.mode = .probeBw := by
        by_contra hne
        exact absurd (h.phased.idle hne) (Nat.ne_of_gt hpos)
      exact ⟨hmode, (h.phased.probing hmode).2⟩
  rounds := by
    intro d hd
    rw [hcontrol]
    rcases List.mem_append.mp hd with hd | hd
    · exact h.rounds d hd
    · rw [List.mem_singleton.mp hd]
      exact Nat.le_refl _
  ordered := by
    rw [List.pairwise_append]
    refine ⟨h.ordered, List.pairwise_singleton _ _, ?_⟩
    intro d hd d' hd'
    rw [List.mem_singleton.mp hd']
    exact ⟨h.rounds d hd, h.current d hd⟩
  current := by
    intro d hd hround
    rw [hcontrol] at hround ⊢
    rcases List.mem_append.mp hd with hd | hd
    · exact h.current d hd hround
    · rw [List.mem_singleton.mp hd]
      rfl
  clusters := hclusters
  live := by rw [hcontrol]; exact hlive
  acked := by rw [hcontrol]; exact hacked

/-- Outside `PROBE_BW` a packet is dispatched in no round. -/
theorem Members.unrecorded (h : Members ds s) (hmode : s.control.mode ≠ .probeBw) :
    Members (ds ++ [s.dispatch t p bytes]) (s.track t p) := by
  have hround : (s.dispatch t p bytes).round = 0 := h.phased.idle hmode
  refine h.sent t p bytes rfl ?_ ?_ h.acked
  · intro x hx
    apply (h.clusters x hx).elsewhere
    rw [hround]
    exact (Nat.ne_of_gt (h.clusters x hx).pos).symm
  · intro d hd hpos hcurrent
    rw [hcurrent, h.phased.idle hmode] at hpos
    exact absurd hpos (Nat.lt_irrefl 0)

/-- No cluster of the round is live only before a packet was dispatched in it. -/
theorem Members.dispatchesIn_round (h : Members ds s) (hpos : 0 < s.control.roundTripCount)
    (hnone : ∀ x ∈ s.graph.heap.contents, x.2.clusterId ≠ s.control.roundTripCount) :
    dispatchesIn ds s.control.roundTripCount = [] := by
  rw [List.eq_nil_iff_forall_not_mem]
  intro d hd
  obtain ⟨hd, hround⟩ := mem_dispatchesIn.mp hd
  obtain ⟨x, hx, hid⟩ := h.live d hd (hround ▸ hpos) hround
  exact hnone x hx (hid.trans hround)

theorem Members.clusters_sent (h : Members ds s) (hpos : 0 < s.control.roundTripCount)
    (hpackets : ∀ x ∈ s.graph.heap.contents, x.2.packetInfos ≠ [])
    (hids : ∀ {a b : Nat} {c d : SentClusterInfo}, (a, c) ∈ s.graph.heap.contents →
      (b, d) ∈ s.graph.heap.contents → c.clusterId = d.clusterId → a = b)
    {contents : List (Nat × SentClusterInfo)}
    (hsends : s.graph.Sends s.control.roundTripCount s.control.shouldSendProbePacket t p bytes
      contents) : ∀ x ∈ contents, InRound (ds ++ [s.dispatch t p bytes]) x.2 := by
  rintro ⟨b, c'⟩ hx
  rcases hsends with ⟨a, c, hc, hid, rfl⟩ | ⟨hnone, rfl⟩
  · obtain ⟨d, hd, ⟨rfl, rfl⟩ | ⟨hne, rfl⟩⟩ := Heap.mem_mapAt_cases hx
    · obtain rfl := Heap.contents_unique hc hd
      exact (h.clusters _ hc).joined hid (h.isProbe_current hc (hpackets _ hc) hid)
    · exact (h.clusters _ hd).elsewhere fun hround => hne (hids hd hc (hround.symm.trans hid.symm))
  · rcases List.mem_append.mp hx with hx | hx
    · exact (h.clusters _ hx).elsewhere fun hround => hnone _ hx hround.symm
    · obtain ⟨rfl, rfl⟩ := Prod.mk.inj (List.mem_singleton.mp hx)
      exact (inRound_new hpos (h.dispatchesIn_round hpos hnone) _).joined rfl rfl

theorem Members.recorded (h : Members ds s) (hlinked : s.graph.Linked s.control.roundTripCount)
    (hmode : s.control.mode = .probeBw) {graph : ClusterGraph}
    (hadd : s.graph.addPacketInfoSampler s.control.roundTripCount s.control.shouldSendProbePacket t
      p bytes = some graph) :
    Members (ds ++ [s.dispatch t p bytes]) {s.track t p with graph := graph} := by
  obtain ⟨-, hfresh, -, hacked, hsends⟩ := hlinked.added hadd
  have hpos := (h.phased.probing hmode).1
  refine h.sent t p bytes rfl (h.clusters_sent hpos hlinked.holdsPackets hlinked.clusterId_inj
    hsends) ?_ ?_
  · -- The packet itself went to a cluster of the round.
    intro d hd _ hround
    rw [hround]
    rcases hsends with ⟨a, c, hc, hid, hcontents⟩ | ⟨-, hcontents⟩
    · refine ⟨(a, c.onPacketSent t p bytes), ?_, hid⟩
      show _ ∈ graph.heap.contents
      rw [hcontents, Heap.mem_mapAt hc]
      exact .inl rfl
    · refine ⟨(s.graph.heap.fresh, (SentClusterInfo.new s.control.roundTripCount
        s.control.shouldSendProbePacket).onPacketSent t p bytes), ?_, rfl⟩
      show _ ∈ graph.heap.contents
      rw [hcontents]
      exact List.mem_append_right _ (List.mem_singleton_self _)
  · intro a ha
    obtain ⟨hlt, hids⟩ := h.acked a (hacked ▸ ha)
    refine ⟨hlt.trans_le hfresh, ?_⟩
    intro c' hc'
    rcases hsends with ⟨b, c, -, -, hcontents⟩ | ⟨-, hcontents⟩
    · have hx : (a, c') ∈ Heap.mapAt b (fun c => c.onPacketSent t p bytes) s.graph.heap.contents :=
        hcontents ▸ hc'
      obtain ⟨d, hd, ⟨-, rfl⟩ | ⟨-, rfl⟩⟩ := Heap.mem_mapAt_cases hx
      · exact hids d hd
      · exact hids _ hd
    · have hx : (a, c') ∈ s.graph.heap.contents ++ [_] := hcontents ▸ hc'
      rcases List.mem_append.mp hx with hx | hx
      · exact hids c' hx
      · exact absurd (Prod.mk.inj (List.mem_singleton.mp hx)).1 (Nat.ne_of_lt hlt)

/-- A cluster is estimated when a newer one is there. -/
theorem Members.acked_ack (h : Members ds s) (hlinked : s.graph.Linked s.control.roundTripCount)
    {contents : List (Nat × SentClusterInfo)} {acked : List Nat} {report : Option Estimate}
    (hacks : Acks s.graph p t contents acked report) :
    ∀ a ∈ acked, a < s.graph.heap.fresh ∧
      ∀ c, (a, c) ∈ contents → c.clusterId < s.control.roundTripCount := by
  have hbefore : ∀ a ∈ acked, a < s.graph.heap.fresh ∧
      ∀ c, (a, c) ∈ s.graph.heap.contents → c.clusterId < s.control.roundTripCount := by
    intro a ha
    rcases hacks.acked_cases with heq | ⟨q, b, d, heq, ⟨e, he⟩, hd, -, -, hqb, -⟩
    · exact h.acked a (heq ▸ ha)
    · rw [heq, List.mem_append, List.mem_singleton] at ha
      rcases ha with ha | rfl
      · exact h.acked a ha
      · refine ⟨Heap.lt_fresh he, fun c hc => ?_⟩
        exact ((hlinked.clusterId_lt_iff hc hd).mpr hqb).trans_le (hlinked.clusterId_le _ hd)
  intro a ha
  refine ⟨(hbefore a ha).1, fun c hc => ?_⟩
  obtain ⟨d, hd, hfrom⟩ := hlinked.origin hacks hc
  rw [hfrom.clusterId]
  exact (hbefore a ha).2 d hd

theorem Members.stays (h : Members ds s) (hlinked : s.graph.Linked s.control.roundTripCount)
    {graph : ClusterGraph} {report : Option Estimate}
    (hack : s.graph.onAck p t = some (graph, report)) (hs : s.Stays t p graph report s') :
    Members ds s' := by
  obtain ⟨hlinked', hacks, -, hfresh, -⟩ := hs.graph_spec hlinked hack
  obtain ⟨n, hstale⟩ := hs.trimmed
  obtain ⟨-, -, -, hacked, hsub, hstay⟩ := hlinked'.removeStale hstale
  have hrounds := hs.turns.round_le
  have hackedIds := h.acked_ack hlinked hacks
  constructor
  case phased => exact hs.turns.phased h.phased
  case probing => exact h.probing
  case rounds => exact fun d hd => (h.rounds d hd).trans hrounds
  case ordered => exact h.ordered
  case current =>
    intro d hd hround
    have hle := h.rounds d hd
    cases hs.turns with
    | same hmode hsame hgain => rw [hgain]; exact h.current d hd (hround.trans hsame)
    | later hmode hlater hgain => omega
  case clusters =>
    intro x hx
    obtain ⟨c, hc, hfrom⟩ := hlinked.origin hacks (hsub x hx)
    exact (h.clusters _ hc).acked hfrom
  case live =>
    intro d hd hpos hround
    have hcurrent : d.round = s.control.roundTripCount :=
      Nat.le_antisymm (h.rounds d hd) (hround ▸ hrounds)
    obtain ⟨x, hx, hid⟩ := h.live d hd hpos hcurrent
    obtain ⟨c, hc, hfrom⟩ := hlinked.survives hacks hx
    have hc' : c.clusterId = d.round := hfrom.clusterId.trans hid
    refine ⟨(x.1, c), hstay _ hc fun a ha e he => ?_, hc'⟩
    show e.clusterId < c.clusterId
    rw [hc', hcurrent]
    exact (hackedIds a ha).2 e he
  case acked =>
    intro a ha
    obtain ⟨hlt, hids⟩ := hackedIds a (hacked a ha)
    exact ⟨hfresh ▸ hlt, fun c hc => (hids c (hsub _ hc)).trans_le hrounds⟩

/-- An entry into `PROBE_RTT` deletes all clusters and forgets all dispatches. -/
theorem members_enters (hlinked : s.graph.Linked s.control.roundTripCount) {graph : ClusterGraph}
    (hclear : s.graph.clusterInfoClear = some graph) (hacked : graph.ackedClusters = []) :
    Members [] (((s.receive t p).probeRttStart graph).exitProbeRtt t).calculatePacingRate := by
  have hphased : ((s.receive t p).probeRttStart graph).control.Phased :=
    ⟨fun _ => rfl, fun hmode => by cases hmode⟩
  apply members_empty
  · exact (turns_exitProbeRtt _ t).phased hphased
  · rw [s.graph_entered, (hlinked.cleared hclear 0).2]
  · rw [s.graph_entered, hacked]

theorem Members.step {e : Event} (h : Members ds s)
    (hlinked : s.graph.Linked s.control.roundTripCount) (hstep : Steps s e s') :
    Members (nextDispatches s ds e) s' := by
  cases hstep with
  | unrecorded hmode => exact h.unrecorded hmode
  | recorded hmode hadd => exact h.recorded hlinked hmode hadd
  | period =>
    exact ⟨⟨h.phased.idle, h.phased.probing⟩, h.probing, h.rounds, h.ordered, h.current, h.clusters,
      h.live, h.acked⟩
  | ignored hp =>
    rw [nextDispatches, if_neg fun henters => Nat.not_le.mpr henters.1 hp]
    exact h
  | enters hp henters hclear hindex hseq hacked =>
    rw [nextDispatches, if_pos ⟨hp, henters⟩]
    exact members_enters hlinked hclear hacked
  | stays hp hstays hack hs =>
    rw [nextDispatches, if_neg fun henters => hstays henters.2]
    exact h.stays hlinked hack hs

end Members

theorem members_run {minBps : Nat} {hasObserver : Bool} {random : MyQuicRandom} {es : List Event}
    {s : MyBbrSender} (hrun : tryRun step (.new minBps hasObserver random) es = some s) :
    Members (dispatchesOf (.new minBps hasObserver random) es) s := by
  refine tryRun_reaches (A := fun _ => True)
    (P := fun es s => Members (dispatchesOf (.new minBps hasObserver random) es) s)
    (fun _ _ _ => trivial) (members_empty ?_ rfl rfl) ?_ trivial hrun
  · exact ⟨fun _ => rfl, fun hmode => by cases hmode⟩
  intro es e s s' _ hrun hstep h
  rw [dispatchesOf_concat hrun]
  exact h.step (linked_run hrun) (steps_of_step hstep)

/-! ### One gain -/

/-- A cluster whose packets were all sent in `PROBE_BW` at one gain. -/
structure SentAt (ds : List Dispatch) (gain : BinaryFloat) (c : SentClusterInfo) : Prop where
  nonempty : c.packets ≠ []
  packets : c.packets = (dispatchesIn ds c.clusterId).map Dispatch.packet
  dispatched : ∀ d ∈ dispatchesIn ds c.clusterId, d.mode = .probeBw ∧ d.pacingGain = gain
  isProbe : c.isProbe = true ↔ gain.le .one = false

theorem Members.sentAt {ds : List Dispatch} {s : MyBbrSender} (h : Members ds s)
    (hlinked : s.graph.Linked s.control.roundTripCount) {x : Nat × SentClusterInfo}
    (hx : x ∈ s.graph.heap.contents) : ∃ gain ∈ kPacingGain, SentAt ds gain x.2 := by
  have hround := h.clusters x hx
  have hpackets := hlinked.holdsPackets x hx
  obtain ⟨d, hd⟩ := hround.exists_dispatch hpackets
  obtain ⟨hmem, hid⟩ := mem_dispatchesIn.mp hd
  refine ⟨d.pacingGain, (h.probing d hmem (hid ▸ hround.pos)).2, ?_, hround.packets, ?_, ?_⟩
  · rw [SentClusterInfo.packets, ne_eq, List.map_eq_nil_iff]
    exact hpackets
  · intro d' hd'
    obtain ⟨hmem', hid'⟩ := mem_dispatchesIn.mp hd'
    exact ⟨(h.probing d' hmem' (hid' ▸ hround.pos)).1, h.gains hmem' hmem (hid'.trans hid.symm)⟩
  · rw [hround.isProbe d hd, Bool.not_eq_true']

/-- A report is of a live cluster, and is judged with the flag of that cluster. -/
theorem reported_live {s s' : MyBbrSender} {e : Event}
    (hlinked : s.graph.Linked s.control.roundTripCount) (hstep : step s e = some s') {r : Estimate}
    (hr : r ∈ reports s e) :
    (∃ x ∈ s.graph.heap.contents, r.info = {x.2 with bw := r.info.bw}) ∧
      s'.rates.maxBandwidth = (s.rates.onEstimateBandwidth r.info.clusterId r.sentBw r.ackedBw
        r.info.isProbe).maxBandwidth := by
  have hsilent : s'.estimates = s.estimates → r ∈ ([] : List Estimate) := fun hsame =>
    reports_eq_nil hstep hsame ▸ hr
  cases steps_of_step hstep with
  | unrecorded hmode => cases hsilent rfl
  | recorded hmode hadd => cases hsilent rfl
  | period => cases hsilent rfl
  | ignored hp => cases hsilent rfl
  | enters hp henters hclear hindex hseq hacked =>
    cases hsilent (s.estimates_entered ..)
  | stays hp hstays hack h =>
    rw [reports_eq hstep h.estimates, Option.mem_toList] at hr
    have hacks := (h.graph_spec hlinked hack).2.1
    have hmax := h.maxBandwidth
    rw [hr] at hacks hmax
    obtain ⟨-, -, d, -, -, -, hd, -, -, -, hinfo, -⟩ := hacks.reported
    exact ⟨⟨(r.cluster, d), hd, hinfo⟩, hmax⟩

/-- Of the gains of the table only 1.25 is above one. -/
theorem le_one_eq_false_iff :
    ∀ gain ∈ kPacingGain, gain.le .one = false ↔ gain = hundredths 125 := by decide

/-- `OnEstimateBandwidth` judges a report, of a cluster sent at this gain, and updates the filter:
the sent rate is corrected by `kBackoffGain` exactly if the gain is 1.25. -/
structure JudgedAt (s s' : MyBbrSender) (r : Estimate) (gain : BinaryFloat) : Prop where
  maxBandwidth : s'.rates.maxBandwidth = (s.rates.onEstimateBandwidth r.info.clusterId r.sentBw
    r.ackedBw (decide (gain = hundredths 125))).maxBandwidth
  congested : r.Congested ↔ r.sentBw ≠ .infinite ∧ r.ackedBw ≤
    (if gain = hundredths 125 then r.sentBw.mulFloat kBackoffGain else r.sentBw).mulFloat
      (hundredths 90)

/-- **A cluster is sent under one gain, and is a probe exactly if that is above one.** So a report
is corrected by `kBackoffGain` exactly if the reported cluster was sent at 1.25. -/
theorem cluster_sent_under_one_gain (minBps : Nat) (hasObserver : Bool) (random : MyQuicRandom)
    (es : List Event) {s : MyBbrSender}
    (hrun : tryRun step (.new minBps hasObserver random) es = some s) :
    (∀ x ∈ s.graph.heap.contents, ∃ gain ∈ kPacingGain,
      SentAt (dispatchesOf (.new minBps hasObserver random) es) gain x.2) ∧
    ∀ e s', step s e = some s' → ∀ r ∈ reports s e, ∃ x ∈ s.graph.heap.contents,
      ∃ gain ∈ kPacingGain, r.info = {x.2 with bw := r.info.bw} ∧
        SentAt (dispatchesOf (.new minBps hasObserver random) es) gain x.2 ∧
        JudgedAt s s' r gain := by
  have hlinked := linked_run hrun
  have hmembers := members_run hrun
  refine ⟨fun x hx => hmembers.sentAt hlinked hx, ?_⟩
  intro e s' hstep r hr
  obtain ⟨⟨x, hx, hinfo⟩, hmax⟩ := reported_live hlinked hstep hr
  obtain ⟨gain, hgain, hsent⟩ := hmembers.sentAt hlinked hx
  refine ⟨x, hx, gain, hgain, hinfo, hsent, ?_⟩
  have hprobe : r.info.isProbe = decide (gain = hundredths 125) := by
    rw [Bool.eq_iff_iff, decide_eq_true_eq, hinfo, ← le_one_eq_false_iff gain hgain]
    exact hsent.isProbe
  rw [hprobe] at hmax
  refine ⟨hmax, ?_⟩
  rw [Estimate.Congested, Rates.isCongested, decide_eq_true_eq, hprobe]
  simp only [decide_eq_true_eq]

/-- The first cluster, of packets 2 and 3, is sent at 1.25 and reported when packet 4 of the next
one is acknowledged. -/
def probeFirst : List Event :=
  [.sent 1 1 1000, .ack 2 1, .sent 3 2 1000, .sent 53 3 1000, .ack 100 2, .ack 150 3,
    .sent 160 4 1000]

theorem cluster_sent_under_one_gain_probe_first :
    ∃ s s', tryRun step (.new 100000 false ⟨fun _ => 0, 0⟩) probeFirst = some s ∧
      step s (.ack 300 4) = some s' ∧
      (s.graph.heap.contents.map fun x => (x.2.clusterId, x.2.numbers, x.2.isProbe)) =
        [(1, [2, 3], true), (3, [4], false)] ∧
      (∀ x ∈ s.graph.heap.contents, ∃ gain ∈ kPacingGain,
        SentAt (dispatchesOf (.new 100000 false ⟨fun _ => 0, 0⟩) probeFirst) gain x.2) ∧
      ∃ r ∈ reports s (.ack 300 4), JudgedAt s s' r (hundredths 125) := by
  have hreports : (tryRun step (.new 100000 false ⟨fun _ => 0, 0⟩) probeFirst).map (fun s =>
      (s.graph.heap.contents.map fun x => (x.2.clusterId, x.2.numbers, x.2.isProbe),
        (reports s (.ack 300 4)).map fun r => r.info.isProbe, (step s (.ack 300 4)).isSome)) =
      some ([(1, [2, 3], true), (3, [4], false)], [true], true) := by decide +kernel
  obtain ⟨s, hrun, hs⟩ := Option.map_eq_some_iff.mp hreports
  obtain ⟨hcontents, hprobes, hsome⟩ := Prod.mk.injEq .. ▸ Prod.mk.injEq .. ▸ hs
  obtain ⟨s', hstep⟩ := Option.isSome_iff_exists.mp hsome
  obtain ⟨r, hr, hprobe⟩ := List.mem_map.mp (hprobes ▸ List.mem_singleton_self true)
  obtain ⟨hclusters, hreported⟩ :=
    cluster_sent_under_one_gain 100000 false ⟨fun _ => 0, 0⟩ probeFirst hrun
  obtain ⟨x, -, gain, hgain, hinfo, hsent, hjudged⟩ := hreported _ s' hstep r hr
  obtain rfl : gain = hundredths 125 := by
    rw [← le_one_eq_false_iff gain hgain, ← hsent.isProbe, ← hprobe, hinfo]
  exact ⟨s, s', hrun, hstep, hcontents, hclusters, r, hr, hjudged⟩

end CongestionResponse.ClusterBbr
