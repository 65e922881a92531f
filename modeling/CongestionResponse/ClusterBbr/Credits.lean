import CongestionResponse.ClusterBbr.Dispatches
import CongestionResponse.ClusterBbr.Pruning

/-! Which packets a cluster counts as acknowledged.

`OnAck` finds the cluster of a packet by its round in `seq_round_map_`, and the packet by its
distance from the first one of the cluster. With consecutive numbers the round is the right one
(`Filed`) and the distance too, as far as 32 bits hold it: the counters of all clusters are right,
and every packet still to be acknowledged is found, exactly if none is 2^32 numbers or more behind
the first packet of its cluster (`acks_credited_iff`). -/
namespace CongestionResponse.ClusterBbr
open Lib Quic ClusterGraph

/-! ### The run -/

/-- Packets are numbered consecutively, and only packets that were sent are acknowledged. -/
structure InSequence (es : List Event) : Prop where
  consecutive : ∃ n, sentNumbers es = List.range' n (sentNumbers es).length
  acked : Throughout AckedSent es

theorem InSequence.init {es : List Event} {e : Event} (h : InSequence (es ++ [e])) :
    InSequence es where
  consecutive := by
    obtain ⟨n, hn⟩ := h.consecutive
    apply eq_range'_of_infix (n := n) (m := (sentNumbers (es ++ [e])).length)
    rw [← hn, sentNumbers_append]
    exact (List.prefix_append _ _).isInfix
  acked := (throughout_concat.mp h.acked).1

theorem InSequence.nodup {es : List Event} (h : InSequence es) : (sentNumbers es).Nodup := by
  obtain ⟨n, hn⟩ := h.consecutive
  rw [hn]
  exact List.nodup_range'

theorem sentNumbers_of_quiet (es : List Event) {e : Event} (h : sentNumbers [e] = []) :
    sentNumbers (es ++ [e]) = sentNumbers es := by
  rw [sentNumbers_append, h, List.append_nil]

/-- A packet is sent with a number that none before it had. -/
theorem InSequence.fresh {es : List Event} {t : Int} {p bytes : Nat}
    (h : InSequence (es ++ [.sent t p bytes])) : p ∉ sentNumbers es := by
  have hnodup := h.nodup
  rw [sentNumbers_append, List.nodup_append] at hnodup
  exact fun hp => hnodup.2.2 p hp p (List.mem_singleton_self p) rfl

/-- The acknowledgements above the last one at their time. -/
def nextAccepted (s : MyBbrSender) (accepted : List Nat) : Event → List Nat
  | .ack _ p => if s.lastAckSeq < p then accepted ++ [p] else accepted
  | _ => accepted

def acceptedOf (s : MyBbrSender) (es : List Event) : List Nat := record step nextAccepted s [] es

theorem acceptedOf_concat {s s' : MyBbrSender} {es : List Event} (h : tryRun step s es = some s')
    (e : Event) : acceptedOf s (es ++ [e]) = nextAccepted s' (acceptedOf s es) e :=
  record_concat nextAccepted [] h e

/-! ### Finding the cluster -/

/-- What `seq_round_map_` knows: the rounds of packets that were sent, and that of every packet
above the last acknowledgement that was sent in a cluster. -/
structure Filed (es : List Event) (ds : List Dispatch) (accepted : List Nat) (s : MyBbrSender) :
    Prop where
  members : Members ds s
  sent : ds.map Dispatch.seq <:+ sentNumbers es
  recorded : ∀ p r, s.graph.seqRoundMap.find? p = some r → ∃ d ∈ ds, d.seq = p ∧ d.round = r
  pending : ∀ d ∈ ds, 0 < d.round → s.lastAckSeq < d.seq →
    s.graph.seqRoundMap.find? d.seq = some d.round
  accepted_sent : ∀ p ∈ accepted, p ∈ sentNumbers es
  accepted_le : ∀ p ∈ accepted, p ≤ s.lastAckSeq

section Filed
variable {es : List Event} {ds : List Dispatch} {accepted : List Nat} {s s' : MyBbrSender}
  {t : Int} {p bytes : Nat}

theorem Filed.seq_mem (h : Filed es ds accepted s) {d : Dispatch} (hd : d ∈ ds) :
    d.seq ∈ sentNumbers es :=
  h.sent.subset (List.mem_map_of_mem hd)

theorem InRound.numbers_eq {c : SentClusterInfo} (h : InRound ds c) :
    c.numbers = (dispatchesIn ds c.clusterId).map Dispatch.seq := by
  have hfst := congrArg (List.map Prod.fst) h.packets
  simpa [SentClusterInfo.packets, SentClusterInfo.numbers, Dispatch.packet, Function.comp_def]
    using hfst

/-- The numbers of a cluster are consecutive: rounds do not go back. -/
theorem Filed.consecutive (h : Filed es ds accepted s) (hes : InSequence es)
    {x : Nat × SentClusterInfo} (hx : x ∈ s.graph.heap.contents) : x.2.Consecutive := by
  have hround : dispatchesIn ds x.2.clusterId <:+: ds :=
    filter_eq_infix Dispatch.round _ (h.members.ordered.imp And.left)
  obtain ⟨n, hn⟩ := hes.consecutive
  have hinfix : x.2.numbers <:+: List.range' n (sentNumbers es).length := by
    rw [← hn, (h.members.clusters x hx).numbers_eq]
    exact (hround.map Dispatch.seq).trans h.sent.isInfix
  obtain ⟨k, hk⟩ := eq_range'_of_infix hinfix
  refine ⟨k, ?_⟩
  rw [hk, SentClusterInfo.numbers, List.length_map]

theorem Filed.mem_numbers (h : Filed es ds accepted s) {x : Nat × SentClusterInfo}
    (hx : x ∈ s.graph.heap.contents) {p : Nat} :
    p ∈ x.2.numbers ↔ ∃ d ∈ ds, d.round = x.2.clusterId ∧ d.seq = p := by
  rw [(h.members.clusters x hx).numbers_eq]
  simp [mem_dispatchesIn, and_assoc]

/-- A packet above the last acknowledgement is in the cluster that the map leads to, and in no
other. -/
theorem Filed.find?_iff (h : Filed es ds accepted s) {x : Nat × SentClusterInfo}
    (hx : x ∈ s.graph.heap.contents) {p : Nat} (hp : s.lastAckSeq < p) :
    s.graph.seqRoundMap.find? p = some x.2.clusterId ↔ p ∈ x.2.numbers := by
  rw [h.mem_numbers hx]
  constructor
  · intro hfind
    obtain ⟨d, hd, hseq, hround⟩ := h.recorded p _ hfind
    exact ⟨d, hd, hround, hseq⟩
  · rintro ⟨d, hd, hround, rfl⟩
    rw [← hround]
    exact h.pending d hd (hround ▸ (h.members.clusters x hx).pos) hp

/-- A packet is sent; what is left to say is what the map holds of it. -/
theorem Filed.sends (h : Filed es ds accepted s) (hes : InSequence (es ++ [.sent t p bytes]))
    (hmembers : Members (ds ++ [s.dispatch t p bytes]) s') (hlast : s'.lastAckSeq = s.lastAckSeq)
    (hother : ∀ q, q ≠ p → s'.graph.seqRoundMap.find? q = s.graph.seqRoundMap.find? q)
    (hself : s'.graph.seqRoundMap.find? p =
      if 0 < s.control.roundTripCount then some s.control.roundTripCount else none) :
    Filed (es ++ [.sent t p bytes]) (ds ++ [s.dispatch t p bytes]) accepted s' where
  members := hmembers
  sent := by
    obtain ⟨old, hold⟩ := h.sent
    refine ⟨old, ?_⟩
    rw [sentNumbers_append, ← hold, List.map_append, List.append_assoc]
    rfl
  recorded := by
    intro q r hfind
    by_cases hq : q = p
    · subst hq
      rw [hself] at hfind
      split at hfind
      · exact ⟨s.dispatch t q bytes, List.mem_append_right _ (List.mem_singleton_self _), rfl,
          Option.some.inj hfind⟩
      · cases hfind
    · rw [hother q hq] at hfind
      obtain ⟨d, hd, hseq⟩ := h.recorded q r hfind
      exact ⟨d, List.mem_append_left _ hd, hseq⟩
  pending := by
    intro d hd hpos hlt
    rw [hlast] at hlt
    rcases List.mem_append.mp hd with hd | hd
    · have hne : d.seq ≠ p := fun heq => hes.fresh (heq ▸ h.seq_mem hd)
      rw [hother _ hne]
      exact h.pending d hd hpos hlt
    · obtain rfl := List.mem_singleton.mp hd
      have hround : 0 < s.control.roundTripCount := hpos
      exact hself.trans (if_pos hround)
  accepted_sent := fun q hq => mem_sentNumbers_concat (h.accepted_sent q hq) _
  accepted_le := by rw [hlast]; exact h.accepted_le

/-- A packet that was not sent yet is not in the map. -/
theorem Filed.find?_fresh (h : Filed es ds accepted s)
    (hes : InSequence (es ++ [.sent t p bytes])) : s.graph.seqRoundMap.find? p = none := by
  cases hfind : s.graph.seqRoundMap.find? p with
  | none => rfl
  | some r =>
    obtain ⟨d, hd, rfl, -⟩ := h.recorded p r hfind
    exact absurd (h.seq_mem hd) hes.fresh

/-- An accepted acknowledgement is of a packet that was sent. -/
theorem Filed.accepts (h : Filed es ds accepted s) (hes : InSequence (es ++ [.ack t p]))
    (hp : s.lastAckSeq < p) {ds' : List Dispatch} (hmembers : Members ds' s')
    (hlast : s'.lastAckSeq = p) (hsent : ds'.map Dispatch.seq <:+ sentNumbers es)
    (hrecorded : ∀ q r, s'.graph.seqRoundMap.find? q = some r → ∃ d ∈ ds', d.seq = q ∧ d.round = r)
    (hpending : ∀ d ∈ ds', 0 < d.round → p < d.seq →
      s'.graph.seqRoundMap.find? d.seq = some d.round) :
    Filed (es ++ [.ack t p]) ds' (accepted ++ [p]) s' := by
  have hsame : sentNumbers (es ++ [.ack t p]) = sentNumbers es := sentNumbers_of_quiet es rfl
  refine ⟨hmembers, hsame ▸ hsent, hrecorded, by rw [hlast]; exact hpending, ?_, ?_⟩
  · intro q hq
    rw [hsame]
    rcases List.mem_append.mp hq with hq | hq
    · exact h.accepted_sent q hq
    · rw [List.mem_singleton.mp hq]
      exact (throughout_concat.mp hes.acked).2
  · intro q hq
    rw [hlast]
    rcases List.mem_append.mp hq with hq | hq
    · exact (h.accepted_le q hq).trans hp.le
    · exact (List.mem_singleton.mp hq).le

theorem Filed.quiet {e : Event} (h : Filed es ds accepted s) (hmembers : Members ds s')
    (hquiet : sentNumbers [e] = []) (hgraph : s'.graph = s.graph)
    (hlast : s'.lastAckSeq = s.lastAckSeq) : Filed (es ++ [e]) ds accepted s' where
  members := hmembers
  sent := by rw [sentNumbers_of_quiet es hquiet]; exact h.sent
  recorded := by rw [hgraph]; exact h.recorded
  pending := by rw [hgraph, hlast]; exact h.pending
  accepted_sent := by rw [sentNumbers_of_quiet es hquiet]; exact h.accepted_sent
  accepted_le := by rw [hlast]; exact h.accepted_le

/-- A packet that a cluster gets is filed under the round. -/
theorem Filed.records (h : Filed es ds accepted s) (hes : InSequence (es ++ [.sent t p bytes]))
    (hlinked : s.graph.Linked s.control.roundTripCount) (hmode : s.control.mode = .probeBw)
    {graph : ClusterGraph} (hadd : s.graph.addPacketInfoSampler s.control.roundTripCount
      s.control.shouldSendProbePacket t p bytes = some graph) :
    Filed (es ++ [.sent t p bytes]) (ds ++ [s.dispatch t p bytes]) accepted
      {s.track t p with graph := graph} := by
  obtain ⟨-, -, hseq, -⟩ := hlinked.added hadd
  refine h.sends hes (h.members.recorded hlinked hmode hadd) rfl (fun q hq => ?_) ?_
  · show graph.seqRoundMap.find? q = _
    rw [hseq, OrderedMap.find?_insert_of_ne _ _ hq]
  · show graph.seqRoundMap.find? p = _
    rw [if_pos (h.members.phased.probing hmode).1, hseq]
    exact OrderedMap.find?_insert_self _ _ (OrderedMap.find?_eq_none.mp (h.find?_fresh hes))

/-- An entry into `PROBE_RTT` leaves nothing filed. -/
theorem Filed.enters (h : Filed es ds accepted s) (hes : InSequence (es ++ [.ack t p]))
    (hp : s.lastAckSeq < p) {graph : ClusterGraph} (hseq : graph.seqRoundMap = .empty)
    (hmembers : Members []
      (((s.receive t p).probeRttStart graph).exitProbeRtt t).calculatePacingRate) :
    Filed (es ++ [.ack t p]) [] (accepted ++ [p])
      (((s.receive t p).probeRttStart graph).exitProbeRtt t).calculatePacingRate := by
  apply h.accepts hes hp hmembers
  · exact s.lastAckSeq_entered t p graph
  · exact List.nil_suffix
  · intro q r hfind
    rw [s.graph_entered, hseq] at hfind
    cases hfind
  · exact fun d hd => absurd hd List.not_mem_nil

/-- Otherwise the acknowledged packet is taken out of the map. -/
theorem Filed.stays (h : Filed es ds accepted s) (hes : InSequence (es ++ [.ack t p]))
    (hp : s.lastAckSeq < p) (hmembers : Members ds s') (hlast : s'.lastAckSeq = p)
    (hseq : s'.graph.seqRoundMap = s.graph.seqRoundMap.erase p) :
    Filed (es ++ [.ack t p]) ds (accepted ++ [p]) s' := by
  apply h.accepts hes hp hmembers hlast h.sent
  · intro q r hfind
    rw [hseq] at hfind
    by_cases hq : q = p
    · rw [hq, OrderedMap.find?_erase_self] at hfind
      cases hfind
    · rw [OrderedMap.find?_erase_of_ne _ hq] at hfind
      exact h.recorded q r hfind
  · intro d hd hpos hlt
    rw [hseq, OrderedMap.find?_erase_of_ne _ (Nat.ne_of_gt hlt)]
    exact h.pending d hd hpos (hp.trans hlt)

theorem Filed.step {e : Event} (h : Filed es ds accepted s) (hes : InSequence (es ++ [e]))
    (hlinked : s.graph.Linked s.control.roundTripCount) (hstep : Steps s e s') :
    Filed (es ++ [e]) (nextDispatches s ds e) (nextAccepted s accepted e) s' := by
  have hmembers := h.members.step hlinked hstep
  cases hstep with
  | unrecorded hmode =>
    refine h.sends hes hmembers rfl (fun q _ => rfl) ?_
    rw [h.members.phased.idle hmode]
    exact h.find?_fresh hes
  | recorded hmode hadd => exact h.records hes hlinked hmode hadd
  | @period ms => exact h.quiet hmembers (e := .period ms) rfl rfl rfl
  | @ignored t p hp =>
    have hds : nextDispatches s ds (.ack t p) = ds :=
      if_neg fun henters => Nat.not_le.mpr henters.1 hp
    rw [nextAccepted, if_neg (Nat.not_lt.mpr hp), hds]
    exact h.quiet h.members rfl rfl rfl
  | @enters t p graph hp henters hclear hindex hseq hacked =>
    have hds : nextDispatches s ds (.ack t p) = [] := if_pos ⟨hp, henters⟩
    rw [hds] at hmembers ⊢
    rw [nextAccepted, if_pos hp]
    exact h.enters hes hp hseq hmembers
  | @stays t p graph report _ hp hstays hack hs =>
    have hds : nextDispatches s ds (.ack t p) = ds := if_neg fun henters => hstays henters.2
    rw [hds] at hmembers ⊢
    rw [nextAccepted, if_pos hp]
    exact h.stays hes hp hmembers hs.lastAckSeq (hs.graph_spec hlinked hack).2.2.2.2

end Filed

theorem filed_run {minBps : Nat} {hasObserver : Bool} {random : MyQuicRandom} {es : List Event}
    (hes : InSequence es) {s : MyBbrSender}
    (hrun : tryRun step (.new minBps hasObserver random) es = some s) :
    Filed es (dispatchesOf (.new minBps hasObserver random) es)
      (acceptedOf (.new minBps hasObserver random) es) s := by
  refine tryRun_reaches (A := InSequence) (P := fun es s =>
    Filed es (dispatchesOf (.new minBps hasObserver random) es)
      (acceptedOf (.new minBps hasObserver random) es) s) (fun _ _ h => h.init) ?_ ?_ hes hrun
  · refine ⟨members_empty ⟨fun _ => rfl, fun hmode => by cases hmode⟩ rfl rfl,
      List.suffix_refl _, fun p r hfind => ?_, fun d hd => ?_, fun p hp => ?_, fun p hp => ?_⟩
    · cases hfind
    · cases hd
    · cases hp
    · cases hp
  · intro es e s s' hes hrun hstep h
    rw [dispatchesOf_concat hrun, acceptedOf_concat hrun]
    exact h.step hes (linked_run hrun) (steps_of_step hstep)

/-! ### Counting -/

/-- The counters of a cluster: all its bytes, and those of its packets that were acknowledged. -/
structure Summed (accepted : List Nat) (c : SentClusterInfo) : Prop where
  sent : c.sentPackets = (c.sizes.map Prod.snd).sum
  acked : c.ackedPackets = OrderedMap.weightOn c.sizes fun p => decide (p ∈ accepted)

section Summed
variable {accepted : List Nat} {c c' : SentClusterInfo} {p bytes : Nat} {t : Int}

theorem Summed.joined (h : Summed accepted c) (hp : p ∉ accepted) :
    Summed accepted (c.onPacketSent t p bytes) := by
  have hsizes : (c.onPacketSent t p bytes).sizes = c.sizes ++ [(p, bytes)] := by
    simp [SentClusterInfo.sizes, SentClusterInfo.onPacketSent]
  constructor
  · rw [hsizes, List.map_append, List.sum_append, ← h.sent]
    simp [SentClusterInfo.onPacketSent]
  · rw [hsizes, OrderedMap.weightOn_append, ← h.acked]
    simp [SentClusterInfo.onPacketSent, OrderedMap.weightOn, hp]

theorem summed_new (round : Nat) (isProbe : Bool) : Summed accepted (.new round isProbe) :=
  ⟨rfl, rfl⟩

/-- An acknowledgement of a packet elsewhere changes nothing. -/
theorem Summed.elsewhere (h : Summed accepted c) (hp : p ∉ c.numbers) (bw : QuicBandwidth) :
    Summed (accepted ++ [p]) {c with bw := bw} where
  sent := h.sent
  acked := by
    refine h.acked.trans (OrderedMap.weightOn_congr fun e he => ?_)
    have hne : e.1 ≠ p := fun heq =>
      hp (heq ▸ c.fst_sizes ▸ List.mem_map_of_mem (f := Prod.fst) he)
    simp [hne]

/-- An acknowledgement of a packet that is found counts its bytes. -/
theorem Summed.credited (h : Summed accepted c) (hc : c.Consecutive) (hp : p ∈ c.numbers)
    (hnew : p ∉ accepted) (hnear : ∀ head, c.packetInfos.head? = some head → p < head.seq + 2 ^ 32)
    {first : Int} (hack : {c with firstAckTs := first}.recordAck p t = some c') :
    Summed (accepted ++ [p]) c' := by
  have hsame := SentClusterInfo.recordAck_sameSends hack
  have hsizes : c'.sizes = c.sizes := hsame.sizes
  obtain ⟨head, hhead, rfl⟩ := Option.map_eq_some_iff.mp hack
  obtain ⟨packet, htarget, -, hmem⟩ :=
    SentClusterInfo.target_of_near hc hhead hp (hnear head hhead)
  have hcount : c.ackedPackets + packet.len =
      OrderedMap.weightOn c.sizes fun q => decide (q ∈ accepted ++ [p]) := by
    rw [OrderedMap.weightOn_insert (c.fst_sizes ▸ SentClusterInfo.nodup_numbers hc) hnew hmem,
      ← h.acked]
  constructor
  · rw [hsizes, hsame.sentPackets]
    exact h.sent
  · rw [hsizes, ← hcount, show ({c with firstAckTs := first} : SentClusterInfo).target head p =
      some (p - head.seq, packet) from htarget]

end Summed

/-! ### Whole runs -/

/-- Every packet of a live cluster that is above the last acknowledgement has a distance from the
first one that fits in 32 bits. -/
def Near (s : MyBbrSender) : Prop :=
  ∀ x ∈ s.graph.heap.contents, ∀ p head, s.lastAckSeq < p →
    s.graph.seqRoundMap.find? p = some x.2.clusterId → x.2.packetInfos.head? = some head →
    p < head.seq + 2 ^ 32

/-- A cluster has the right counters, and finds every packet that is above the last
acknowledgement. -/
structure Credited (s : MyBbrSender) (accepted : List Nat) (c : SentClusterInfo) : Prop where
  distinct : c.numbers.Nodup
  sent : c.sentPackets = (c.sizes.map Prod.snd).sum
  acked : c.ackedPackets = OrderedMap.weightOn c.sizes fun p => decide (p ∈ accepted)
  acked_le : c.ackedPackets ≤ c.sentPackets
  hits : ∀ p head, s.lastAckSeq < p → s.graph.seqRoundMap.find? p = some c.clusterId →
    c.packetInfos.head? = some head →
    ∃ packet, c.target head p = some (p - head.seq, packet) ∧ packet.seq = p

theorem Credited.near {s : MyBbrSender} {accepted : List Nat} {c : SentClusterInfo}
    (h : Credited s accepted c) {p : Nat} {head : SentPacketInfo} (hp : s.lastAckSeq < p)
    (hfind : s.graph.seqRoundMap.find? p = some c.clusterId)
    (hhead : c.packetInfos.head? = some head) : p < head.seq + 2 ^ 32 := by
  obtain ⟨packet, htarget, -⟩ := h.hits p head hp hfind hhead
  unfold SentClusterInfo.target at htarget
  split at htarget
  · obtain ⟨_, -, heq⟩ := Option.map_eq_some_iff.mp htarget
    have hoffset : (p - head.seq) % 2 ^ 32 = p - head.seq := (Prod.mk.inj heq).1
    omega
  · cases htarget

section Credits
variable {es : List Event} {ds : List Dispatch} {accepted : List Nat} {s s' : MyBbrSender}

theorem Filed.credited (h : Filed es ds accepted s) (hes : InSequence es) (hnear : Near s)
    {x : Nat × SentClusterInfo} (hx : x ∈ s.graph.heap.contents) (hsum : Summed accepted x.2) :
    Credited s accepted x.2 where
  distinct := SentClusterInfo.nodup_numbers (h.consecutive hes hx)
  sent := hsum.sent
  acked := hsum.acked
  acked_le := by
    rw [hsum.acked, hsum.sent]
    exact OrderedMap.weightOn_le_sum _ _
  hits := by
    intro p head hp hfind hhead
    obtain ⟨packet, htarget, hseq, -⟩ := SentClusterInfo.target_of_near (h.consecutive hes hx)
      hhead ((h.find?_iff hx hp).mp hfind) (hnear x hx p head hp hfind hhead)
    exact ⟨packet, htarget, hseq⟩

/-- The counters of the clusters an acknowledgement leaves, if the packet is near the first one of
its cluster. -/
theorem Filed.summed_acked (h : Filed es ds accepted s) (hes : InSequence es)
    (hlinked : s.graph.Linked s.control.roundTripCount) (hnear : Near s) (hp : s.lastAckSeq < p)
    {graph : ClusterGraph} {report : Option Estimate}
    (hacks : Acks s.graph p t graph.heap.contents graph.ackedClusters report)
    (hsum : ∀ x ∈ s.graph.heap.contents, Summed accepted x.2) :
    ∀ x ∈ graph.heap.contents, Summed (accepted ++ [p]) x.2 := by
  intro x hx
  obtain ⟨c, hc, hfrom⟩ := hlinked.origin hacks hx
  have hiff := h.find?_iff hc hp
  have hnew : p ∉ accepted := fun hmem => Nat.not_le.mpr hp (h.accepted_le p hmem)
  rcases hfrom with ⟨hne, bw, heq⟩ | ⟨hfind, hrecords⟩
  · rw [heq]
    exact (hsum _ hc).elsewhere (fun hmem => hne (hiff.mpr hmem)) bw
  · have hfound : ∀ head, c.packetInfos.head? = some head → p < head.seq + 2 ^ 32 :=
      fun head => hnear _ hc p head hp hfind
    have hconsecutive : c.Consecutive := h.consecutive hes hc
    rcases hrecords with ⟨-, hack⟩ | ⟨-, hack⟩
    · exact (hsum _ hc).credited hconsecutive (hiff.mp hfind) hnew hfound hack
    · exact (hsum _ hc).credited hconsecutive (hiff.mp hfind) hnew hfound hack

/-- The counters stay right if the acknowledged packet is near the first one of its cluster. -/
theorem summed_step {e : Event} (h : Filed es ds accepted s) (hes : InSequence (es ++ [e]))
    (hlinked : s.graph.Linked s.control.roundTripCount) (hnear : Near s) (hstep : Steps s e s')
    (hsum : ∀ x ∈ s.graph.heap.contents, Summed accepted x.2) :
    ∀ x ∈ s'.graph.heap.contents, Summed (nextAccepted s accepted e) x.2 := by
  cases hstep with
  | unrecorded hmode => exact hsum
  | @recorded t p bytes graph hmode hadd =>
    obtain ⟨-, -, -, -, hsends⟩ := hlinked.added hadd
    have hp : p ∉ accepted := fun hp => hes.fresh (h.accepted_sent p hp)
    intro x hx
    show Summed accepted x.2
    rcases hsends.origin hx with ⟨c, hc, hsame | hjoined⟩ | hstarted
    · rw [hsame]
      exact hsum _ hc
    · rw [hjoined]
      exact (hsum _ hc).joined hp
    · rw [hstarted]
      exact (summed_new _ _).joined hp
  | period => exact hsum
  | ignored hp =>
    rw [nextAccepted, if_neg (Nat.not_lt.mpr hp)]
    exact hsum
  | enters hp henters hclear hindex hseq hacked =>
    intro x hx
    rw [s.graph_entered, (hlinked.cleared hclear 0).2] at hx
    cases hx
  | stays hp hstays hack hs =>
    obtain ⟨hlinked', hacks, -⟩ := hs.graph_spec hlinked hack
    obtain ⟨n, hstale⟩ := hs.trimmed
    obtain ⟨-, -, -, -, hsub, -⟩ := hlinked'.removeStale hstale
    rw [nextAccepted, if_pos hp]
    intro x hx
    exact h.summed_acked hes.init hlinked hnear hp hacks hsum x (hsub x hx)

end Credits

theorem summed_run {minBps : Nat} {hasObserver : Bool} {random : MyQuicRandom} {es : List Event}
    (hes : InSequence es) (hnear : ∀ past s, past <+: es →
      tryRun step (.new minBps hasObserver random) past = some s → Near s) {s : MyBbrSender}
    (hrun : tryRun step (.new minBps hasObserver random) es = some s) :
    ∀ x ∈ s.graph.heap.contents, Summed (acceptedOf (.new minBps hasObserver random) es) x.2 := by
  refine tryRun_reaches (A := fun es => InSequence es ∧ ∀ past s, past <+: es →
      tryRun step (.new minBps hasObserver random) past = some s → Near s)
    (P := fun es s => ∀ x ∈ s.graph.heap.contents,
      Summed (acceptedOf (.new minBps hasObserver random) es) x.2) ?_ ?_ ?_ ⟨hes, hnear⟩ hrun
  · intro es e h
    exact ⟨h.1.init, fun past s hpast => h.2 past s (hpast.trans (List.prefix_append _ _))⟩
  · exact fun x hx => by cases hx
  · intro es e s s' h hrun hstep hsum
    rw [acceptedOf_concat hrun]
    exact summed_step (filed_run h.1.init hrun) h.1 (linked_run hrun)
      (h.2 es s (List.prefix_append _ _) hrun) (steps_of_step hstep) hsum

theorem InSequence.initial {past es : List Event} (hpast : past <+: es) (h : InSequence es) :
    InSequence past := by
  induction es using List.reverseRecOn with
  | nil => exact List.prefix_nil.mp hpast ▸ h
  | append_singleton es e ih =>
    rcases List.prefix_concat_iff.mp hpast with rfl | hpast
    · exact h
    · exact ih hpast h.init

/-- **Acknowledgements are credited to the right packets, exactly as long as 32 bits hold their
distances.** In every state of a run all live clusters count all their bytes as sent and those of
their acknowledged packets as acknowledged, and find every packet that may still be acknowledged;
or else some packet is too far from the first one of its cluster. -/
theorem acks_credited_iff (minBps : Nat) (hasObserver : Bool) (random : MyQuicRandom)
    (es : List Event) (hes : InSequence es) :
    (∀ past s, past <+: es → tryRun step (.new minBps hasObserver random) past = some s →
      ∀ x ∈ s.graph.heap.contents,
        Credited s (acceptedOf (.new minBps hasObserver random) past) x.2) ↔
    ∀ past s, past <+: es → tryRun step (.new minBps hasObserver random) past = some s →
      Near s := by
  constructor
  · intro hcredited past s hpast hrun x hx p head hp hfind hhead
    exact (hcredited past s hpast hrun x hx).near hp hfind hhead
  · intro hnear past s hpast hrun x hx
    have hpast' := hes.initial hpast
    refine (filed_run hpast' hrun).credited hpast' (hnear past s hpast hrun) hx ?_
    exact summed_run hpast' (fun past' s' hpast'' => hnear past' s' (hpast''.trans hpast)) hrun x hx

/-- Few packets are all near each other. -/
theorem near_of_few {minBps : Nat} {hasObserver : Bool} {random : MyQuicRandom} {es : List Event}
    (hes : InSequence es) (hfew : (sentNumbers es).length ≤ 2 ^ 32) {s : MyBbrSender}
    (hrun : tryRun step (.new minBps hasObserver random) es = some s) : Near s := by
  have hfiled := filed_run hes hrun
  obtain ⟨n, hn⟩ := hes.consecutive
  have hsent : ∀ {x : Nat × SentClusterInfo}, x ∈ s.graph.heap.contents → ∀ q ∈ x.2.numbers,
      n ≤ q ∧ q < n + (sentNumbers es).length := by
    intro x hx q hq
    obtain ⟨d, hd, -, rfl⟩ := (hfiled.mem_numbers hx).mp hq
    have hmem := hfiled.seq_mem hd
    rw [hn, List.mem_range'_1] at hmem
    exact hmem
  intro x hx p head hp hfind hhead
  have hpacket := hsent hx p ((hfiled.find?_iff hx hp).mp hfind)
  have hfirst := hsent hx head.seq (SentClusterInfo.head_mem_numbers hhead)
  omega

theorem acks_credited_probe_first :
    InSequence (probeFirst ++ [.ack 300 4]) ∧
    ((tryRun step (.new 100000 false ⟨fun _ => 0, 0⟩) (probeFirst ++ [.ack 300 4])).map fun s =>
      s.graph.heap.contents.map fun x => (x.2.numbers, x.2.sentPackets, x.2.ackedPackets)) =
        some [([2, 3], 2000, 2000), ([4], 1000, 1000)] ∧
    ∀ past s, past <+: probeFirst ++ [.ack 300 4] →
      tryRun step (.new 100000 false ⟨fun _ => 0, 0⟩) past = some s →
      ∀ x ∈ s.graph.heap.contents,
        Credited s (acceptedOf (.new 100000 false ⟨fun _ => 0, 0⟩) past) x.2 := by
  have hes : InSequence (probeFirst ++ [.ack 300 4]) := ⟨⟨1, by decide⟩, by decide⟩
  refine ⟨hes, by decide +kernel,
    (acks_credited_iff 100000 false ⟨fun _ => 0, 0⟩ (probeFirst ++ [.ack 300 4]) hes).mpr ?_⟩
  intro past s hpast hrun
  have hle : (sentNumbers past).length ≤ (sentNumbers (probeFirst ++ [.ack 300 4])).length :=
    (hpast.filterMap _).length_le
  exact near_of_few (hes.initial hpast) (hle.trans (by decide)) hrun

/-! ### A cluster that is too long -/

/-- After packet 1 has ended `START_UP`, `n` packets are sent in the first cluster. -/
def longCluster (n : Nat) : List Event :=
  [.sent 1 1 1, .ack 2 1] ++ (List.range' 2 n).map fun p => .sent 3 p 1

theorem longCluster_succ (n : Nat) : longCluster (n + 1) = longCluster n ++ [.sent 3 (2 + n) 1] := by
  rw [longCluster, longCluster, List.range'_concat, List.map_append, List.append_assoc, Nat.one_mul]
  rfl

theorem sentNumbers_longCluster (n : Nat) : sentNumbers (longCluster n) = List.range' 1 (n + 1) := by
  induction n with
  | zero => rfl
  | succ n ih =>
    rw [longCluster_succ, sentNumbers_append, ih, List.range'_concat (n := n + 1), Nat.one_mul,
      show 1 + (n + 1) = 2 + n by omega]
    rfl

theorem longCluster_inSequence (n : Nat) : InSequence (longCluster n) where
  consecutive := ⟨1, by rw [sentNumbers_longCluster, List.length_range']⟩
  acked := by
    induction n with
    | zero => decide
    | succ n ih =>
      rw [longCluster_succ, throughout_concat]
      exact ⟨ih, trivial⟩

theorem longCluster_admissible (n : Nat) : Admissible (longCluster n) where
  increasing := by
    rw [sentNumbers_longCluster]
    exact List.pairwise_lt_range'
  nonzero := by
    intro t p hmem
    have hack : (t, p) = (2, 1) := by
      rcases List.mem_append.mp hmem with hmem | hmem
      · simpa using hmem
      · obtain ⟨q, -, hq⟩ := List.mem_map.mp hmem
        cases hq
    rw [(Prod.mk.inj hack).1]
    decide

/-- All the packets are in the first round. -/
theorem longCluster_run (n : Nat) {s : MyBbrSender}
    (hrun : tryRun step (.new 100000 false ⟨fun _ => 2, 0⟩) (longCluster n) = some s) :
    (s.control.mode = .probeBw ∧ s.control.roundTripCount = 1 ∧ s.lastAckSeq = 1) ∧
      (dispatchesIn (dispatchesOf (.new 100000 false ⟨fun _ => 2, 0⟩) (longCluster n)) 1).map
        Dispatch.seq = List.range' 2 n := by
  induction n generalizing s with
  | zero =>
    have hstart : (tryRun step (.new 100000 false ⟨fun _ => 2, 0⟩) (longCluster 0)).map (fun s =>
        (s.control.mode, s.control.roundTripCount, s.lastAckSeq)) = some (.probeBw, 1, 1) := by
      decide +kernel
    rw [hrun, Option.map_some, Option.some.injEq, Prod.mk.injEq, Prod.mk.injEq] at hstart
    exact ⟨hstart, by decide +kernel⟩
  | succ n ih =>
    rw [longCluster_succ] at hrun ⊢
    obtain ⟨s₀, hrun₀, hstep⟩ := tryRun_concat_eq_some hrun
    obtain ⟨⟨hmode, hround, hlast⟩, hnumbers⟩ := ih hrun₀
    rw [dispatchesOf_concat hrun₀]
    cases steps_of_step hstep with
    | unrecorded hother => exact absurd hmode hother
    | recorded _ hadd =>
      refine ⟨⟨hmode, hround, hlast⟩, ?_⟩
      have hin := dispatchesIn_concat_self
        (dispatchesOf (.new 100000 false ⟨fun _ => 2, 0⟩) (longCluster n)) (s₀.dispatch 3 (2 + n) 1)
      rw [show (s₀.dispatch 3 (2 + n) 1).round = 1 from hround] at hin
      show (dispatchesIn (_ ++ [s₀.dispatch 3 (2 + n) 1]) 1).map Dispatch.seq = _
      rw [hin, List.map_append, hnumbers, List.range'_concat, Nat.one_mul]
      rfl

/-- Once there are more than 2^32 packets, the one 2^32 numbers behind the first packet is taken
for it. -/
theorem longCluster_far {n : Nat} (hn : 2 ^ 32 < n) :
    ∃ s x head, tryRun step (.new 100000 false ⟨fun _ => 2, 0⟩) (longCluster n) = some s ∧
      x ∈ s.graph.heap.contents ∧ s.lastAckSeq < 2 ^ 32 + 2 ∧
      s.graph.seqRoundMap.find? (2 ^ 32 + 2) = some x.2.clusterId ∧
      x.2.packetInfos.head? = some head ∧ head.seq = 2 ∧
      x.2.target head (2 ^ 32 + 2) = some (0, head) := by
  obtain ⟨s, hrun, -⟩ := sound_run 100000 false ⟨fun _ => 2, 0⟩ (longCluster n)
    (longCluster_admissible n)
  obtain ⟨⟨hmode, hround, hlast⟩, hnumbers⟩ := longCluster_run n hrun
  have hfiled := filed_run (longCluster_inSequence n) hrun
  have hlt : s.lastAckSeq < 2 ^ 32 + 2 := by rw [hlast]; decide
  -- The packet was sent in the first round, whose cluster is live.
  have hmem : 2 ^ 32 + 2 ∈ (dispatchesIn (dispatchesOf (.new 100000 false ⟨fun _ => 2, 0⟩)
      (longCluster n)) 1).map Dispatch.seq := by
    rw [hnumbers, List.mem_range'_1]
    omega
  obtain ⟨d, hd, hseq⟩ := List.mem_map.mp hmem
  obtain ⟨hd, hone⟩ := mem_dispatchesIn.mp hd
  obtain ⟨x, hx, hid⟩ := hfiled.members.live d hd (by omega) (hone.trans hround.symm)
  have hfind : s.graph.seqRoundMap.find? (2 ^ 32 + 2) = some x.2.clusterId :=
    (hfiled.find?_iff hx hlt).mpr ((hfiled.mem_numbers hx).mpr ⟨d, hd, hid.symm, hseq⟩)
  have hall : x.2.numbers = List.range' 2 n := by
    rw [(hfiled.members.clusters x hx).numbers_eq, hid, hone, hnumbers]
  obtain ⟨head, rest, hpackets⟩ := List.exists_cons_of_ne_nil ((linked_run hrun).holdsPackets x hx)
  have hfirst : head.seq = 2 := by
    obtain ⟨m, rfl⟩ : ∃ m, n = m + 1 := ⟨n - 1, by omega⟩
    rw [SentClusterInfo.numbers, hpackets, List.map_cons, List.range'_succ] at hall
    exact (List.cons.inj hall).1
  refine ⟨s, x, head, hrun, hx, hlt, hfind, by rw [hpackets]; rfl, hfirst, ?_⟩
  have hoffset : (2 ^ 32 + 2 - head.seq) % 2 ^ 32 = 0 := by rw [hfirst]; decide
  rw [SentClusterInfo.target, if_pos (by omega)]
  simp only [hoffset, hpackets, List.getElem?_cons_zero, Option.map_some]

/-- Packet 2^32 + 2 of a cluster that begins with packet 2 is taken for packet 2. -/
theorem far_packet_taken_for_first :
    InSequence (longCluster (2 ^ 32 + 1)) ∧
    ∃ s x head, tryRun step (.new 100000 false ⟨fun _ => 2, 0⟩) (longCluster (2 ^ 32 + 1)) =
        some s ∧ x ∈ s.graph.heap.contents ∧ s.lastAckSeq < 2 ^ 32 + 2 ∧
      s.graph.seqRoundMap.find? (2 ^ 32 + 2) = some x.2.clusterId ∧
      x.2.packetInfos.head? = some head ∧ head.seq = 2 ∧
      x.2.target head (2 ^ 32 + 2) = some (0, head) :=
  ⟨longCluster_inSequence _, longCluster_far (Nat.lt_succ_self _)⟩

end CongestionResponse.ClusterBbr
