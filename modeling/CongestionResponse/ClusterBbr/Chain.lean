import CongestionResponse.ClusterBbr.Sender

/-! The cluster graph as a chain of clusters.

`connection_info_` is the index, by id, of the clusters that `prev_` and `next_` chain in the
order of their ids. That is `Linked`, and every operation keeps it, whatever the packet
numbers and the times are. `Sends` and `Acks` say what sending and acknowledging do to the
clusters of a linked graph, `ComesFrom` what an acknowledgement leaves of each of them. The
pointers of `acked_clusters_` are another matter: they stay good only if acknowledgements come
in the order of the rounds. -/
namespace CongestionResponse.ClusterBbr
open Lib Quic

namespace ClusterGraph

/-- The index and the chain agree, and hold clusters up to the round. -/
structure Linked (g : ClusterGraph) (round : Nat) : Prop where
  chained : g.heap.Chained
  index : g.connectionInfo.entries = g.heap.contents.map fun x => (x.2.clusterId, x.1)
  holdsPackets : ∀ x ∈ g.heap.contents, x.2.packetInfos ≠ []
  clusterId_le : ∀ x ∈ g.heap.contents, x.2.clusterId ≤ round

variable {g : ClusterGraph} {round : Nat}

theorem linked_new : new.Linked 0 where
  chained := trivial
  index := rfl
  holdsPackets := by intro x hx; cases hx
  clusterId_le := by intro x hx; cases hx

theorem Linked.weaken (h : g.Linked round) {round' : Nat} (hround : round ≤ round') :
    g.Linked round' :=
  {h with clusterId_le := fun x hx => (h.clusterId_le x hx).trans hround}

/-! ### Order of addresses and ids -/

/-- Clusters are allocated in the order of their ids. -/
theorem Linked.sorted (h : g.Linked round) :
    g.heap.contents.Pairwise fun x y => x.1 < y.1 ∧ x.2.clusterId < y.2.clusterId := by
  have hids : g.heap.contents.Pairwise fun x y => x.2.clusterId < y.2.clusterId := by
    have hindex := g.connectionInfo.sorted
    rw [h.index, List.pairwise_map] at hindex
    exact hindex
  exact g.heap.contents_sorted.and hids

theorem Linked.order (h : g.Linked round) {x y : Nat × SentClusterInfo}
    (hx : x ∈ g.heap.contents) (hy : y ∈ g.heap.contents) :
    x = y ∨ (x.1 < y.1 ∧ x.2.clusterId < y.2.clusterId) ∨
      (y.1 < x.1 ∧ y.2.clusterId < x.2.clusterId) :=
  pairwise_cases h.sorted hx hy

/-- Clusters are in the order of their addresses: what is less in one is less in the other. -/
theorem Linked.clusterId_lt_iff (h : g.Linked round) {a b : Nat} {c d : SentClusterInfo}
    (hc : (a, c) ∈ g.heap.contents) (hd : (b, d) ∈ g.heap.contents) :
    c.clusterId < d.clusterId ↔ a < b := by
  rcases h.order hc hd with heq | hlt | hgt
  · obtain ⟨rfl, rfl⟩ := Prod.mk.inj heq
    simp
  · exact iff_of_true hlt.2 hlt.1
  · exact iff_of_false (Nat.lt_asymm hgt.2) (Nat.lt_asymm hgt.1)

theorem Linked.clusterId_inj (h : g.Linked round) {a b : Nat} {c d : SentClusterInfo}
    (hc : (a, c) ∈ g.heap.contents) (hd : (b, d) ∈ g.heap.contents)
    (hid : c.clusterId = d.clusterId) : a = b := by
  have hlt := h.clusterId_lt_iff hc hd
  have hgt := h.clusterId_lt_iff hd hc
  omega

/-- The index leads to the cluster of a round, and only to live ones. -/
theorem Linked.find?_connectionInfo (h : g.Linked round) {r a : Nat} :
    g.connectionInfo.find? r = some a ↔ ∃ c, (a, c) ∈ g.heap.contents ∧ c.clusterId = r := by
  rw [OrderedMap.find?_eq_some, h.index, List.mem_map]
  constructor
  · rintro ⟨⟨b, c⟩, hx, hra⟩
    obtain ⟨rfl, rfl⟩ := Prod.mk.inj hra
    exact ⟨c, hx, rfl⟩
  · rintro ⟨c, hx, rfl⟩
    exact ⟨(a, c), hx, rfl⟩

/-! ### Changing a cluster -/

/-- A write to a live cluster that keeps its id and some packets. -/
theorem Linked.update (h : g.Linked round) {a : Nat} {c : SentClusterInfo}
    (hc : (a, c) ∈ g.heap.contents) {f : SentClusterInfo → SentClusterInfo}
    (hid : (f c).clusterId = c.clusterId) (hpackets : (f c).packetInfos ≠ []) :
    ∃ heap, g.heap.update a f = some heap ∧ {g with heap := heap}.Linked round ∧
      heap.fresh = g.heap.fresh ∧ heap.contents = Heap.mapAt a f g.heap.contents := by
  obtain ⟨heap, hupdate, hchained, hfresh, hcontents⟩ := Heap.update_spec h.chained hc f
  have hmem : ∀ x, x ∈ heap.contents ↔ x = (a, f c) ∨ x ∈ g.heap.contents ∧ x.1 ≠ a := by
    intro x
    rw [hcontents, Heap.mem_mapAt hc]
  refine ⟨heap, hupdate, ⟨hchained, ?index, ?packets, ?ids⟩, hfresh, hcontents⟩
  case index =>
    show g.connectionInfo.entries = heap.contents.map _
    rw [h.index, hcontents, Heap.mapAt, List.map_map]
    apply List.map_congr_left
    intro x hx
    simp only [Function.comp]
    split
    · rename_i hxa
      obtain ⟨b, d⟩ := x
      subst hxa
      rw [Heap.contents_unique hx hc, hid]
    · rfl
  case packets =>
    intro x hx
    rcases (hmem x).mp hx with rfl | ⟨hx, -⟩
    · exact hpackets
    · exact h.holdsPackets x hx
  case ids =>
    intro x hx
    rcases (hmem x).mp hx with rfl | ⟨hx, -⟩
    · rw [hid]
      exact h.clusterId_le (a, c) hc
    · exact h.clusterId_le x hx

/-! ### Sending -/

/-- A new cluster goes to the end of the chain and of the index. -/
theorem Linked.append (h : g.Linked round) (hnew : g.connectionInfo.find? round = none)
    {c : SentClusterInfo} (hid : c.clusterId = round) (hpackets : c.packetInfos ≠ [])
    {heap : Heap SentClusterInfo} (hchained : heap.Chained)
    (hcontents : heap.contents = g.heap.contents ++ [(g.heap.fresh, c)]) :
    {g with
      heap := heap
      connectionInfo := g.connectionInfo.insert round g.heap.fresh}.Linked round := by
  have hmem : ∀ x, x ∈ heap.contents ↔ x ∈ g.heap.contents ∨ x = (g.heap.fresh, c) := by
    intro x
    rw [hcontents, List.mem_append, List.mem_singleton]
  refine ⟨hchained, ?index, ?packets, ?ids⟩
  case index =>
    have hlt : ∀ k ∈ g.connectionInfo.keys, k < round := by
      intro k hk
      have hne : k ≠ round := by
        rintro rfl
        exact OrderedMap.find?_eq_none.mp hnew hk
      obtain ⟨a, ha⟩ := OrderedMap.mem_keys.mp hk
      obtain ⟨d, hd, rfl⟩ := h.find?_connectionInfo.mp ha
      exact Nat.lt_of_le_of_ne (h.clusterId_le _ hd) hne
    show (g.connectionInfo.insert round g.heap.fresh).entries = heap.contents.map _
    rw [OrderedMap.insert_of_lt _ _ hlt, h.index, hcontents, List.map_append, ← hid]
    rfl
  case packets =>
    intro x hx
    rcases (hmem x).mp hx with hx | rfl
    · exact h.holdsPackets x hx
    · exact hpackets
  case ids =>
    intro x hx
    rcases (hmem x).mp hx with hx | rfl
    · exact h.clusterId_le x hx
    · exact Nat.le_of_eq hid

/-- What sending a packet does to the clusters: it joins the cluster of the round, or
starts it. -/
def Sends (g : ClusterGraph) (round : Nat) (isProbe : Bool) (now : Int) (p bytes : Nat)
    (contents : List (Nat × SentClusterInfo)) : Prop :=
  (∃ a c, (a, c) ∈ g.heap.contents ∧ c.clusterId = round ∧
    contents = Heap.mapAt a (fun c => c.onPacketSent now p bytes) g.heap.contents) ∨
  (∀ x ∈ g.heap.contents, x.2.clusterId ≠ round) ∧
    contents = g.heap.contents ++
      [(g.heap.fresh, (SentClusterInfo.new round isProbe).onPacketSent now p bytes)]

theorem Linked.addPacketInfoSampler (h : g.Linked round) (isProbe : Bool) (now : Int)
    (p bytes : Nat) :
    ∃ g', g.addPacketInfoSampler round isProbe now p bytes = some g' ∧ g'.Linked round ∧
      g.heap.fresh ≤ g'.heap.fresh ∧ g'.seqRoundMap = g.seqRoundMap.insert p round ∧
      g'.ackedClusters = g.ackedClusters ∧ g.Sends round isProbe now p bytes g'.heap.contents := by
  have hnonempty : ∀ c : SentClusterInfo, (c.onPacketSent now p bytes).packetInfos ≠ [] := by
    intro c
    simp [SentClusterInfo.onPacketSent]
  cases hfind : g.connectionInfo.find? round with
  | some a =>
    obtain ⟨c, hc, hid⟩ := h.find?_connectionInfo.mp hfind
    obtain ⟨heap, hupdate, hlinked, hfresh, hcontents⟩ :=
      h.update (f := fun c => c.onPacketSent now p bytes) hc rfl (hnonempty c)
    refine ⟨{g with heap := heap, seqRoundMap := g.seqRoundMap.insert p round}, ?_,
      {hlinked with}, Nat.le_of_eq hfresh.symm, rfl, rfl, .inl ⟨a, c, hc, hid, hcontents⟩⟩
    simp [ClusterGraph.addPacketInfoSampler, clusterOf, hfind, hupdate]
  | none =>
    have hlast : g.connectionInfo.entries.getLast?.map Prod.snd =
        g.heap.contents.getLast?.map Prod.fst := by
      rw [h.index, List.getLast?_map, Option.map_map]
      rfl
    obtain ⟨heap₁, happend, hchained₁, hfresh₁, hcontents₁⟩ :=
      Heap.append_spec h.chained hlast (.new round isProbe)
    have hc : (g.heap.fresh, SentClusterInfo.new round isProbe) ∈ heap₁.contents := by
      rw [hcontents₁]
      exact List.mem_append_right _ (List.mem_singleton_self _)
    obtain ⟨heap, hupdate, hchained, hfresh, hcontents⟩ :=
      Heap.update_spec hchained₁ hc fun c => c.onPacketSent now p bytes
    rw [hcontents₁, Heap.mapAt_concat _ _ fun x hx => Nat.ne_of_lt (Heap.lt_fresh hx)] at hcontents
    have hlinked := h.append hfind rfl (hnonempty _) hchained hcontents
    refine ⟨{g with
      heap := heap
      connectionInfo := g.connectionInfo.insert round g.heap.fresh
      seqRoundMap := g.seqRoundMap.insert p round}, ?_, {hlinked with}, ?_, rfl, rfl,
      .inr ⟨?_, hcontents⟩⟩
    · simp [ClusterGraph.addPacketInfoSampler, clusterOf, hfind, happend, hupdate]
    · rw [hfresh, hfresh₁]
      exact Nat.le_succ _
    · rintro ⟨a, c⟩ hx rfl
      have hsome := h.find?_connectionInfo.mpr ⟨c, hx, rfl⟩
      rw [hfind] at hsome
      cases hsome

/-- What an addition that succeeded has done. -/
theorem Linked.added (h : g.Linked round) {isProbe : Bool} {now : Int} {p bytes : Nat}
    {g' : ClusterGraph} (hadd : g.addPacketInfoSampler round isProbe now p bytes = some g') :
    g'.Linked round ∧ g.heap.fresh ≤ g'.heap.fresh ∧
      g'.seqRoundMap = g.seqRoundMap.insert p round ∧ g'.ackedClusters = g.ackedClusters ∧
      g.Sends round isProbe now p bytes g'.heap.contents := by
  obtain ⟨g'', hadd', hspec⟩ := h.addPacketInfoSampler isProbe now p bytes
  obtain rfl := Option.some.inj (hadd'.symm.trans hadd)
  exact hspec

section Sends
variable {isProbe : Bool} {now : Int} {p bytes : Nat} {contents : List (Nat × SentClusterInfo)}

/-- A cluster is as before, or it is the one of the round. -/
theorem Sends.origin (h : g.Sends round isProbe now p bytes contents) {x : Nat × SentClusterInfo}
    (hx : x ∈ contents) :
    (∃ c, (x.1, c) ∈ g.heap.contents ∧ (x.2 = c ∨ x.2 = c.onPacketSent now p bytes)) ∨
      x.2 = (SentClusterInfo.new round isProbe).onPacketSent now p bytes := by
  rcases h with ⟨a, c, -, -, rfl⟩ | ⟨-, rfl⟩
  · obtain ⟨c, hc, hcases⟩ := Heap.mem_mapAt_cases hx
    exact .inl ⟨c, hc, hcases.elim (fun h => .inr h.2) fun h => .inl h.2⟩
  · rcases List.mem_append.mp hx with hx | hx
    · exact .inl ⟨x.2, hx, .inl rfl⟩
    · rw [List.mem_singleton.mp hx]
      exact .inr rfl

theorem Sends.survives (h : g.Sends round isProbe now p bytes contents) {x : Nat × SentClusterInfo}
    (hx : x ∈ g.heap.contents) :
    ∃ c, (x.1, c) ∈ contents ∧ (c = x.2 ∨ c = x.2.onPacketSent now p bytes) := by
  rcases h with ⟨a, c, -, -, rfl⟩ | ⟨-, rfl⟩
  · by_cases hxa : x.1 = a
    · exact ⟨_, List.mem_map.mpr ⟨x, hx, if_pos hxa⟩, .inr rfl⟩
    · exact ⟨_, List.mem_map.mpr ⟨x, hx, if_neg hxa⟩, .inl rfl⟩
  · exact ⟨x.2, List.mem_append_left _ hx, .inl rfl⟩

end Sends

/-! ### Acknowledging -/

/-- The list of estimated clusters and the report, after a trigger at `q`. -/
def Reports (acked : List Nat) (q : Nat) (d : SentClusterInfo) (acked' : List Nat)
    (report : Option Estimate) : Prop :=
  let triggered := d.triggerBandwidthEstimate
  if triggered.2 then
    acked' = acked ++ [q] ∧
      report = some ⟨q, triggered.1, triggered.1.sendRate, triggered.1.ackRate⟩
  else acked' = acked ∧ report = none

theorem Linked.triggerPrev (h : g.Linked round) {q : Nat} {d : SentClusterInfo}
    (hd : (q, d) ∈ g.heap.contents) :
    ∃ g' report, g.triggerPrev (some q) = some (g', report) ∧ g'.Linked round ∧
      g'.heap.fresh = g.heap.fresh ∧ g'.seqRoundMap = g.seqRoundMap ∧
      g'.heap.contents = Heap.mapAt q (fun _ => d.triggerBandwidthEstimate.1) g.heap.contents ∧
      Reports g.ackedClusters q d g'.ackedClusters report := by
  obtain ⟨cell, hread, rfl⟩ := Heap.mem_contents.mp hd
  have heq := SentClusterInfo.triggerBandwidthEstimate_eq cell.value
  have hpackets : cell.value.triggerBandwidthEstimate.1.packetInfos = cell.value.packetInfos := by
    rw [heq]
  obtain ⟨heap, hupdate, hlinked, hfresh, hcontents⟩ :=
    h.update (f := fun _ => cell.value.triggerBandwidthEstimate.1) hd (by rw [heq])
      (by rw [hpackets]; exact h.holdsPackets _ hd)
  unfold Reports
  by_cases hcalled : cell.value.triggerBandwidthEstimate.2
  · simp only [hcalled, if_true]
    refine ⟨{g with heap := heap, ackedClusters := g.ackedClusters ++ [q]}, _, ?_, {hlinked with},
      hfresh, rfl, hcontents, rfl, rfl⟩
    simp [ClusterGraph.triggerPrev, hread, hupdate, hcalled]
  · simp only [hcalled, Bool.false_eq_true, if_false]
    refine ⟨{g with heap := heap}, none, ?_, hlinked, hfresh, rfl, hcontents, rfl, rfl⟩
    simp [ClusterGraph.triggerPrev, hread, hupdate, hcalled]

/-- What the acknowledgement `p` at time `t` does to the clusters `l` and the estimated ones
when it is credited to the cluster `c` at `a`. The first one a cluster gets has the cluster
before it estimated. -/
inductive Credits (l : List (Nat × SentClusterInfo)) (estimated : List Nat) (a : Nat)
    (c : SentClusterInfo) (p : Nat) (t : Int) :
    List (Nat × SentClusterInfo) → List Nat → Option Estimate → Prop
  | again {c' : SentClusterInfo} (hfirst : c.firstAckTs ≠ 0) (hack : c.recordAck p t = some c') :
    Credits l estimated a c p t (Heap.mapAt a (fun _ => c') l) estimated none
  | first {c' : SentClusterInfo} (hfirst : c.firstAckTs = 0)
    (hack : {c with firstAckTs := t}.recordAck p t = some c') (hprev : ∀ x ∈ l, a ≤ x.1) :
    Credits l estimated a c p t (Heap.mapAt a (fun _ => c') l) estimated none
  | firstAfter {q : Nat} {c' d : SentClusterInfo} {acked : List Nat} {report : Option Estimate}
    (hfirst : c.firstAckTs = 0) (hack : {c with firstAckTs := t}.recordAck p t = some c')
    (hd : (q, d) ∈ l) (hqa : q < a) (hprev : ∀ x ∈ l, x.1 < a → x.1 ≤ q)
    (hreports : Reports estimated q d acked report) :
    Credits l estimated a c p t (Heap.mapAt a (fun _ => c')
      (Heap.mapAt q (fun _ => d.triggerBandwidthEstimate.1) l)) acked report

/-- What an acknowledgement does to the clusters: it is credited to the one its packet was
sent in, if that is live. -/
inductive Acks (g : ClusterGraph) (p : Nat) (t : Int) :
    List (Nat × SentClusterInfo) → List Nat → Option Estimate → Prop
  | gone (h : ∀ x ∈ g.heap.contents, g.seqRoundMap.find? p ≠ some x.2.clusterId) :
    Acks g p t g.heap.contents g.ackedClusters none
  | credited {a : Nat} {c : SentClusterInfo} {contents : List (Nat × SentClusterInfo)}
    {acked : List Nat} {report : Option Estimate} (hc : (a, c) ∈ g.heap.contents)
    (hround : g.seqRoundMap.find? p = some c.clusterId)
    (hcredits : Credits g.heap.contents g.ackedClusters a c p t contents acked report) :
    Acks g p t contents acked report

/-- The credit itself, for a live cluster with packets. -/
theorem Linked.credit (h : g.Linked round) {a : Nat} {c c' : SentClusterInfo}
    (hc : (a, c) ∈ g.heap.contents) {p : Nat} {t : Int} (hack : c.recordAck p t = some c') :
    ∃ heap, g.heap.update a (fun _ => c') = some heap ∧ {g with heap := heap}.Linked round ∧
      heap.fresh = g.heap.fresh ∧ heap.contents = Heap.mapAt a (fun _ => c') g.heap.contents := by
  obtain ⟨d, hd, heq, hlength⟩ := SentClusterInfo.recordAck_eq (h.holdsPackets _ hc) p t
  obtain rfl : c' = d := Option.some.inj (hack.symm.trans hd)
  refine h.update (f := fun _ => c') hc (by rw [heq]) ?_
  rw [← List.length_pos_iff, hlength, List.length_pos_iff]
  exact h.holdsPackets _ hc

/-- The first acknowledgement of a cluster, up to its credit. -/
theorem Linked.firstAck (h : g.Linked round) {a : Nat} {c : SentClusterInfo}
    (hc : (a, c) ∈ g.heap.contents) (hfirst : c.firstAckTs = 0) (t : Int) :
    ∃ g' report, g.firstAck a t = some (g', report) ∧ g'.Linked round ∧
      g'.heap.fresh = g.heap.fresh ∧ g'.seqRoundMap = g.seqRoundMap ∧
      ∀ {p : Nat} {c' : SentClusterInfo}, {c with firstAckTs := t}.recordAck p t = some c' →
        (a, {c with firstAckTs := t}) ∈ g'.heap.contents ∧
        Credits g.heap.contents g.ackedClusters a c p t
          (Heap.mapAt a (fun _ => c') g'.heap.contents) g'.ackedClusters report := by
  obtain ⟨cell, hread, rfl⟩ := Heap.mem_contents.mp hc
  obtain ⟨heap, hupdate, hlinked, hfresh, hcontents⟩ :=
    h.update (f := fun c => {c with firstAckTs := t}) hc rfl (h.holdsPackets _ hc)
  have hmem : ∀ x, x ∈ heap.contents ↔ x = (a, {cell.value with firstAckTs := t}) ∨
      x ∈ g.heap.contents ∧ x.1 ≠ a := by
    intro x
    rw [hcontents, Heap.mem_mapAt hc]
  cases hprev : cell.prev with
  | none =>
    refine ⟨{g with heap := heap}, none, ?_, hlinked, hfresh, rfl, ?_⟩
    · simp [ClusterGraph.firstAck, hread, hfirst, hupdate, hprev, ClusterGraph.triggerPrev]
    · intro p c' hack
      refine ⟨(hmem _).mpr (.inl rfl), ?_⟩
      simp only [hcontents, Heap.mapAt_self]
      exact .first hfirst hack (Heap.prev_none h.chained hread hprev)
  | some q =>
    obtain ⟨⟨d, hd⟩, hqa, hgreatest⟩ := Heap.prev_some h.chained hread hprev
    have hd' : (q, d) ∈ heap.contents := (hmem _).mpr (.inr ⟨hd, Nat.ne_of_lt hqa⟩)
    obtain ⟨g', report, htrigger, hlinked', hfresh', hseq, hcontents', hreports⟩ :=
      hlinked.triggerPrev hd'
    refine ⟨g', report, ?_, hlinked', hfresh'.trans hfresh, hseq, ?_⟩
    · simp [ClusterGraph.firstAck, hread, hfirst, hupdate, hprev, htrigger]
    · intro p c' hack
      constructor
      · rw [hcontents', Heap.mem_mapAt hd']
        exact .inr ⟨(hmem _).mpr (.inl rfl), Nat.ne_of_gt hqa⟩
      · simp only [hcontents', hcontents]
        rw [Heap.mapAt_comm (Nat.ne_of_lt hqa), Heap.mapAt_self]
        exact .firstAfter hfirst hack hd hqa hgreatest hreports

theorem Linked.clusterOnAck (h : g.Linked round) {a : Nat} {c : SentClusterInfo}
    (hc : (a, c) ∈ g.heap.contents) (p : Nat) (t : Int) :
    ∃ g' report, g.clusterOnAck a p t = some (g', report) ∧ g'.Linked round ∧
      g'.heap.fresh = g.heap.fresh ∧ g'.seqRoundMap = g.seqRoundMap ∧
      Credits g.heap.contents g.ackedClusters a c p t g'.heap.contents g'.ackedClusters report := by
  have hpackets : c.packetInfos ≠ [] := h.holdsPackets _ hc
  by_cases hfirst : c.firstAckTs = 0
  · obtain ⟨c', hack, -, -⟩ :=
      SentClusterInfo.recordAck_eq (c := {c with firstAckTs := t}) hpackets p t
    obtain ⟨g₁, report, hfirstAck, hlinked₁, hfresh₁, hseq, hcredits⟩ := h.firstAck hc hfirst t
    obtain ⟨hc₁, hcredits⟩ := hcredits hack
    obtain ⟨heap, hupdate, hlinked, hfresh, hcontents⟩ := hlinked₁.credit hc₁ hack
    obtain ⟨cell, hread, hvalue⟩ := Heap.mem_contents.mp hc₁
    refine ⟨{g₁ with heap := heap}, report, ?_, hlinked, hfresh.trans hfresh₁, hseq, ?_⟩
    · simp [ClusterGraph.clusterOnAck, hfirstAck, hread, hvalue, hack, hupdate]
    · simp only [hcontents]
      exact hcredits
  · obtain ⟨c', hack, -, -⟩ := SentClusterInfo.recordAck_eq hpackets p t
    obtain ⟨heap, hupdate, hlinked, hfresh, hcontents⟩ := h.credit hc hack
    obtain ⟨cell, hread, rfl⟩ := Heap.mem_contents.mp hc
    refine ⟨{g with heap := heap}, none, ?_, hlinked, hfresh, rfl, ?_⟩
    · simp [ClusterGraph.clusterOnAck, ClusterGraph.firstAck, hread, hfirst, hack, hupdate]
    · simp only [hcontents]
      exact .again hfirst hack

/-- **An acknowledgement of a packet finds a linked graph's clusters**, and leaves it linked. -/
theorem Linked.onAck (h : g.Linked round) (p : Nat) (t : Int) :
    ∃ g' report, g.onAck p t = some (g', report) ∧ g'.Linked round ∧
      g'.heap.fresh = g.heap.fresh ∧ g'.seqRoundMap = g.seqRoundMap.erase p ∧
      Acks g p t g'.heap.contents g'.ackedClusters report := by
  cases hfind : g.seqRoundMap.find? p with
  | none =>
    refine ⟨g, none, ?_, h, rfl, ?_, .gone ?_⟩
    · simp [ClusterGraph.onAck, hfind]
    · exact (OrderedMap.erase_of_notMem _ (OrderedMap.find?_eq_none.mp hfind)).symm
    · simp [hfind]
  | some r =>
    have hlinked : {g with seqRoundMap := g.seqRoundMap.erase p}.Linked round := {h with}
    cases hconn : g.connectionInfo.find? r with
    | none =>
      refine ⟨{g with seqRoundMap := g.seqRoundMap.erase p}, none, ?_, hlinked, rfl, rfl, .gone ?_⟩
      · simp [ClusterGraph.onAck, hfind, hconn]
      · intro x hx hr
        obtain rfl := Option.some.inj (hfind.symm.trans hr)
        have hsome := h.find?_connectionInfo.mpr ⟨x.2, hx, rfl⟩
        rw [hconn] at hsome
        cases hsome
    | some a =>
      obtain ⟨c, hc, rfl⟩ := h.find?_connectionInfo.mp hconn
      obtain ⟨g', report, hack, hlinked', hfresh, hseq, hcredits⟩ := hlinked.clusterOnAck hc p t
      refine ⟨g', report, ?_, hlinked', hfresh, hseq, .credited hc hfind hcredits⟩
      simp [ClusterGraph.onAck, hfind, hconn, hack]

/-! ### What an acknowledgement leaves of each cluster -/

section Acks
variable {p : Nat} {t : Int} {contents : List (Nat × SentClusterInfo)} {acked : List Nat}
  {report : Option Estimate}

/-- The acknowledgement is recorded by the cluster, as its first one or not. -/
def Records (p : Nat) (t : Int) (c c' : SentClusterInfo) : Prop :=
  c.firstAckTs ≠ 0 ∧ c.recordAck p t = some c' ∨
    c.firstAckTs = 0 ∧ {c with firstAckTs := t}.recordAck p t = some c'

/-- Only one cluster has the round of the acknowledged packet. -/
theorem Linked.elsewhere (h : g.Linked round) {a : Nat} {c : SentClusterInfo}
    (hc : (a, c) ∈ g.heap.contents) (hround : g.seqRoundMap.find? p = some c.clusterId)
    {y : Nat × SentClusterInfo} (hy : y ∈ g.heap.contents) (hne : y.1 ≠ a) :
    g.seqRoundMap.find? p ≠ some y.2.clusterId := by
  rw [hround]
  exact fun hid => hne (h.clusterId_inj hy hc (Option.some.inj hid).symm)

/-- What became of a cluster: it is as before, but for its estimated rate, or it is the one
the acknowledged packet was sent in. -/
def ComesFrom (g : ClusterGraph) (p : Nat) (t : Int) (c c' : SentClusterInfo) : Prop :=
  g.seqRoundMap.find? p ≠ some c.clusterId ∧ (∃ bw, c' = {c with bw := bw}) ∨
    g.seqRoundMap.find? p = some c.clusterId ∧ Records p t c c'

/-- What the credit leaves at an address, given what was there. -/
theorem Linked.credited (h : g.Linked round) {a b : Nat} {c c' d d' : SentClusterInfo}
    (hc : (a, c) ∈ g.heap.contents) (hround : g.seqRoundMap.find? p = some c.clusterId)
    (hrecords : Records p t c c') (hd : (b, d) ∈ g.heap.contents)
    (hcases : b = a ∧ d' = c' ∨ b ≠ a ∧ ∃ bw, d' = {d with bw := bw}) : ComesFrom g p t d d' := by
  rcases hcases with ⟨rfl, rfl⟩ | ⟨hba, hbw⟩
  · obtain rfl := Heap.contents_unique hc hd
    exact .inr ⟨hround, hrecords⟩
  · exact .inl ⟨h.elsewhere hc hround hd hba, hbw⟩

theorem Linked.origin (h : g.Linked round) (hacks : Acks g p t contents acked report)
    {x : Nat × SentClusterInfo} (hx : x ∈ contents) :
    ∃ c, (x.1, c) ∈ g.heap.contents ∧ ComesFrom g p t c x.2 := by
  cases hacks with
  | gone hgone => exact ⟨x.2, hx, .inl ⟨hgone x hx, x.2.bw, rfl⟩⟩
  | credited hc hround hcredits =>
    cases hcredits with
    | again hfirst hack =>
      obtain ⟨d, hd, hcases⟩ := Heap.mem_mapAt_cases hx
      exact ⟨d, hd, h.credited hc hround (.inl ⟨hfirst, hack⟩) hd
        (hcases.imp id fun hother => ⟨hother.1, d.bw, hother.2⟩)⟩
    | first hfirst hack hprev =>
      obtain ⟨d, hd, hcases⟩ := Heap.mem_mapAt_cases hx
      exact ⟨d, hd, h.credited hc hround (.inr ⟨hfirst, hack⟩) hd
        (hcases.imp id fun hother => ⟨hother.1, d.bw, hother.2⟩)⟩
    | firstAfter hfirst hack hq hqa hprev hreports =>
      obtain ⟨e, he, hcases⟩ := Heap.mem_mapAt_cases hx
      obtain ⟨d, hd, hcases'⟩ := Heap.mem_mapAt_cases he
      refine ⟨d, hd, h.credited hc hround (.inr ⟨hfirst, hack⟩) hd
        (hcases.imp id fun hother => ⟨hother.1, ?_⟩)⟩
      rw [hother.2]
      rcases hcases' with ⟨hxq, heq⟩ | ⟨-, heq⟩
      · simp only at hxq heq
        rw [hxq] at hd
        obtain rfl := Heap.contents_unique hq hd
        exact ⟨_, heq.trans (SentClusterInfo.triggerBandwidthEstimate_eq _)⟩
      · exact ⟨d.bw, heq⟩

theorem ComesFrom.clusterId {c c' : SentClusterInfo} (h : ComesFrom g p t c c') :
    c'.clusterId = c.clusterId := by
  rcases h with ⟨-, bw, rfl⟩ | ⟨-, ⟨-, hack⟩ | ⟨-, hack⟩⟩
  · rfl
  · exact (SentClusterInfo.recordAck_frame hack).1
  · exact (SentClusterInfo.recordAck_frame hack).1

theorem ComesFrom.isProbe {c c' : SentClusterInfo} (h : ComesFrom g p t c c') :
    c'.isProbe = c.isProbe := by
  rcases h with ⟨-, bw, rfl⟩ | ⟨-, ⟨-, hack⟩ | ⟨-, hack⟩⟩
  · rfl
  · exact (SentClusterInfo.recordAck_frame hack).2.2
  · exact (SentClusterInfo.recordAck_frame hack).2.2

/-- A cluster that has a first acknowledgement keeps it. -/
theorem ComesFrom.opened {c c' : SentClusterInfo} (h : ComesFrom g p t c c')
    (hfirst : c.firstAckTs ≠ 0) : c'.firstAckTs ≠ 0 := by
  rcases h with ⟨-, bw, rfl⟩ | ⟨-, ⟨-, hack⟩ | ⟨hzero, -⟩⟩
  · exact hfirst
  · rw [(SentClusterInfo.recordAck_frame hack).2.1]
    exact hfirst
  · exact absurd hzero hfirst

/-- No cluster is lost. -/
theorem Linked.survives (h : g.Linked round) (hacks : Acks g p t contents acked report)
    {x : Nat × SentClusterInfo} (hx : x ∈ g.heap.contents) :
    ∃ c, (x.1, c) ∈ contents ∧ ComesFrom g p t x.2 c := by
  have hbefore : ∃ c, (x.1, c) ∈ g.heap.contents := ⟨x.2, hx⟩
  have hafter : ∃ c, (x.1, c) ∈ contents := by
    cases hacks with
    | gone hgone => exact hbefore
    | credited hc hround hcredits =>
      cases hcredits with
      | again hfirst hack => exact Heap.exists_mem_mapAt _ _ hbefore
      | first hfirst hack hprev => exact Heap.exists_mem_mapAt _ _ hbefore
      | firstAfter hfirst hack hd hqa hprev hreports =>
        exact Heap.exists_mem_mapAt _ _ (Heap.exists_mem_mapAt _ _ hbefore)
  obtain ⟨c, hc⟩ := hafter
  refine ⟨c, hc, ?_⟩
  obtain ⟨d, hd, hfrom⟩ := h.origin hacks hc
  obtain rfl := Heap.contents_unique hd hx
  exact hfrom

/-- A cluster joins the estimated ones at the first acknowledgement of the next one. -/
theorem Acks.acked_cases (hacks : Acks g p t contents acked report) :
    acked = g.ackedClusters ∨
      ∃ q a c, acked = g.ackedClusters ++ [q] ∧ (∃ d, (q, d) ∈ g.heap.contents) ∧
        (a, c) ∈ g.heap.contents ∧ g.seqRoundMap.find? p = some c.clusterId ∧
        c.firstAckTs = 0 ∧ q < a ∧ ∀ x ∈ g.heap.contents, x.1 < a → x.1 ≤ q := by
  cases hacks with
  | gone hgone => exact .inl rfl
  | credited hc hround hcredits =>
    cases hcredits with
    | again hfirst hack => exact .inl rfl
    | first hfirst hack hprev => exact .inl rfl
    | @firstAfter q c' d _ _ hfirst hack hd hqa hprev hreports =>
      unfold Reports at hreports
      simp only at hreports
      split at hreports
      · exact .inr ⟨q, _, _, hreports.1, ⟨d, hd⟩, hc, hround, hfirst, hqa, hprev⟩
      · exact .inl hreports.1

/-- What a report is about: the cluster right before the one that got its first
acknowledgement. -/
theorem Acks.reported {e : Estimate} (hacks : Acks g p t contents acked (some e)) :
    ∃ a c d, (a, c) ∈ g.heap.contents ∧ g.seqRoundMap.find? p = some c.clusterId ∧
      c.firstAckTs = 0 ∧ (e.cluster, d) ∈ g.heap.contents ∧ e.cluster < a ∧
      (∀ x ∈ g.heap.contents, x.1 < a → x.1 ≤ e.cluster) ∧ d.lacksSpan = false ∧
      e.info = {d with bw := e.info.bw} ∧ e.ackedBw = e.info.ackRate := by
  cases hacks with
  | @credited a c _ _ _ hc hround hcredits =>
    cases hcredits with
    | @firstAfter q c' d _ _ hfirst hack hd hqa hprev hreports =>
      by_cases hcalled : d.triggerBandwidthEstimate.2
      · simp only [Reports, hcalled, if_true, Option.some.injEq] at hreports
        obtain ⟨-, rfl⟩ := hreports
        have hspan : d.lacksSpan = false := by
          by_contra hlacks
          rw [Bool.not_eq_false] at hlacks
          simp [SentClusterInfo.triggerBandwidthEstimate, hlacks] at hcalled
        exact ⟨a, c, d, hc, hround, hfirst, hd, hqa, hprev, hspan,
          SentClusterInfo.triggerBandwidthEstimate_eq d, rfl⟩
      · simp [Reports, hcalled] at hreports

/-- Only positive rates are reported. -/
theorem Acks.report_pos {e : Estimate} (hacks : Acks g p t contents acked (some e)) :
    .zero < e.sentBw ∧ .zero < e.ackedBw := by
  cases hacks with
  | credited hc hround hcredits =>
    cases hcredits with
    | @firstAfter q c' d _ _ hfirst hack hd hqa hprev hreports =>
      by_cases hcalled : d.triggerBandwidthEstimate.2
      · simp only [Reports, hcalled, if_true, Option.some.injEq] at hreports
        obtain ⟨-, rfl⟩ := hreports
        rw [SentClusterInfo.triggerBandwidthEstimate_eq]
        unfold SentClusterInfo.triggerBandwidthEstimate at hcalled
        split at hcalled
        · cases hcalled
        · exact lt_min_iff.mp (of_decide_eq_true hcalled)
      · simp [Reports, hcalled] at hreports

/-- The first acknowledgement of a cluster has the one before it judged. -/
theorem Linked.reports (h : g.Linked round) (hacks : Acks g p t contents acked report) {a b : Nat}
    {c d : SentClusterInfo} (hc : (a, c) ∈ g.heap.contents)
    (hround : g.seqRoundMap.find? p = some c.clusterId) (hfirst : c.firstAckTs = 0)
    (hd : (b, d) ∈ g.heap.contents) (hba : b < a)
    (hprev : ∀ x ∈ g.heap.contents, x.1 < a → x.1 ≤ b) :
    Reports g.ackedClusters b d acked report := by
  cases hacks with
  | gone hgone => exact absurd hround (hgone _ hc)
  | credited hc' hround' hcredits =>
    obtain rfl := h.clusterId_inj hc hc' (Option.some.inj (hround.symm.trans hround'))
    obtain rfl := Heap.contents_unique hc hc'
    cases hcredits with
    | again hfirst' _ => exact absurd hfirst hfirst'
    | first _ _ hprev' => exact absurd (hprev' _ hd) (Nat.not_le.mpr hba)
    | firstAfter _ _ hd' hqa hprev' hreports =>
      obtain rfl := Nat.le_antisymm (hprev' _ hd hba) (hprev _ hd' hqa)
      obtain rfl := Heap.contents_unique hd hd'
      exact hreports

end Acks

/-! ### Deleting -/

/-- The addresses the index leads to are those of the heap, in order. -/
theorem Linked.foldl_addresses (h : g.Linked round) {β : Type} (f : β → Nat → β) (b : β)
    (q : Nat → Bool) :
    (g.connectionInfo.entries.filter fun e => q e.1).foldl (fun acc e => f acc e.2) b =
      ((g.heap.contents.filter fun x => q x.2.clusterId).map Prod.fst).foldl f b := by
  rw [h.index, List.filter_map, List.foldl_map, List.foldl_map]
  rfl

/-- Freeing every cluster the index leads to empties the heap. -/
theorem Linked.clusterInfoClear (h : g.Linked round) (round' : Nat) :
    ∃ g', g.clusterInfoClear = some g' ∧ g'.Linked round' ∧ g'.heap.contents = [] ∧
      g'.seqRoundMap = .empty ∧ g'.ackedClusters = [] := by
  obtain ⟨hacc, hempty⟩ := OrderedMap.popWhile_all g.connectionInfo
    (fun (heap : Option (Heap SentClusterInfo)) e => heap.bind fun h => h.free e.2) (some g.heap)
  obtain ⟨heap, hfold, -, -, hcontents⟩ := Heap.foldl_front (P := fun _ => True)
    (f := Heap.free) (l := g.heap.contents) (r := []) (h := g.heap)
    (by
      intro h a v rest _ hcontents
      obtain ⟨h', hfree, hfresh, hrest⟩ := Heap.free_spec hcontents
      exact ⟨h', hfree, trivial, hfresh, hrest⟩)
    trivial (List.append_nil _).symm
  have hall := h.foldl_addresses (fun acc a => Option.bind acc fun h => Heap.free h a)
    (some g.heap) fun _ => true
  simp only [List.filter_true] at hall
  rw [hfold] at hall
  refine ⟨⟨heap, (g.connectionInfo.popWhile (fun _ => true)
    (fun (heap : Option (Heap SentClusterInfo)) e => heap.bind fun h => h.free e.2)
    (some g.heap)).2, .empty, []⟩, ?_, ?_, hcontents, rfl, rfl⟩
  · simp only [ClusterGraph.clusterInfoClear, hacc, hall, Option.bind_eq_bind, Option.bind_some]
  · have hnone : ∀ x, x ∉ heap.contents := by simp [hcontents]
    refine ⟨?_, ?_, fun x hx => absurd hx (hnone x), fun x hx => absurd hx (hnone x)⟩
    · rw [Heap.Chained, List.map_eq_nil_iff.mp hcontents]
      trivial
    · simp only [hempty, hcontents, List.map_nil]

theorem Linked.cleared (h : g.Linked round) {g' : ClusterGraph}
    (hclear : g.clusterInfoClear = some g') (round' : Nat) :
    g'.Linked round' ∧ g'.heap.contents = [] := by
  obtain ⟨g'', hclear', hlinked, hempty, -⟩ := h.clusterInfoClear round'
  obtain rfl := Option.some.inj (hclear'.symm.trans hclear)
  exact ⟨hlinked, hempty⟩

/-- Removing the clusters up to an id leaves the others, and the pointers to those removed. -/
theorem Linked.removeClusterLE (h : g.Linked round) (k : Nat) :
    ∃ g', g.removeClusterLE k = some g' ∧ g'.Linked round ∧ g'.heap.fresh = g.heap.fresh ∧
      g'.heap.contents = (g.heap.contents.filter fun x => decide (k < x.2.clusterId)) ∧
      g'.seqRoundMap = g.seqRoundMap ∧ g'.ackedClusters = g.ackedClusters := by
  have hids : g.heap.contents.Pairwise fun x y => x.2.clusterId < y.2.clusterId :=
    h.sorted.imp fun hxy => hxy.2
  have hsplit := filter_le_append_filter_lt (fun x : Nat × SentClusterInfo => x.2.clusterId) k hids
  obtain ⟨heap, hfold, hchained, hfresh, hcontents⟩ := Heap.foldl_front (P := Heap.Chained)
    (f := Heap.release) (fun h a v rest hc hcontents => Heap.release_spec hc hcontents)
    h.chained hsplit.symm
  have hacc := h.foldl_addresses (fun acc a => Option.bind acc fun h => Heap.release h a)
    (some g.heap) fun id => decide (id ≤ k)
  rw [hfold, ← OrderedMap.popWhile_le_acc] at hacc
  have hentries := OrderedMap.popWhile_le_entries g.connectionInfo k
    (fun (heap : Option (Heap SentClusterInfo)) e => heap.bind fun h => h.release e.2) (some g.heap)
  have hmem : ∀ x, x ∈ heap.contents ↔ x ∈ g.heap.contents ∧ k < x.2.clusterId := by
    intro x
    rw [hcontents, List.mem_filter, decide_eq_true_eq]
  refine ⟨{g with heap := heap, connectionInfo := (g.connectionInfo.popWhile
    (fun id => decide (id ≤ k)) (fun (heap : Option (Heap SentClusterInfo)) e =>
      heap.bind fun h => h.release e.2) (some g.heap)).2}, ?_, ?_, hfresh, hcontents, rfl, rfl⟩
  · simp only [ClusterGraph.removeClusterLE, hacc, Option.bind_eq_bind, Option.bind_some]
  · refine ⟨hchained, ?_, fun x hx => h.holdsPackets x ((hmem x).mp hx).1,
      fun x hx => h.clusterId_le x ((hmem x).mp hx).1⟩
    simp only [hentries, hcontents]
    rw [h.index, List.filter_map]
    rfl

/-- Dropping estimated clusters from the front, if it follows no pointer to a deleted one,
removes no cluster that is newer than all of them. -/
theorem Linked.removeStale (h : g.Linked round) {n : Nat} {g' : ClusterGraph}
    (hstale : g.removeStale n = some g') :
    g'.Linked round ∧ g'.heap.fresh = g.heap.fresh ∧ g'.seqRoundMap = g.seqRoundMap ∧
      (∀ a ∈ g'.ackedClusters, a ∈ g.ackedClusters) ∧
      (∀ x ∈ g'.heap.contents, x ∈ g.heap.contents) ∧
      ∀ x ∈ g.heap.contents, (∀ a ∈ g.ackedClusters, ∀ c, (a, c) ∈ g.heap.contents →
        c.clusterId < x.2.clusterId) → x ∈ g'.heap.contents := by
  induction n generalizing g with
  | zero =>
    obtain rfl := Option.some.inj hstale
    exact ⟨h, rfl, rfl, fun _ ha => ha, fun _ hx => hx, fun _ hx _ => hx⟩
  | succ n ih =>
    obtain ⟨a, hhead, hstale⟩ := Option.bind_eq_some_iff.mp hstale
    obtain ⟨cell, hread, hstale⟩ := Option.bind_eq_some_iff.mp hstale
    obtain ⟨g₁, hremove, hstale⟩ := Option.bind_eq_some_iff.mp hstale
    have htail : {g with ackedClusters := g.ackedClusters.tail}.Linked round := {h with}
    obtain ⟨g₂, hremove₂, hlinked, hfresh, hcontents, hseq, hacked⟩ :=
      htail.removeClusterLE cell.value.clusterId
    obtain rfl := Option.some.inj (hremove.symm.trans hremove₂)
    obtain ⟨hlinked', hfresh', hseq', hacked', hsub, hstay⟩ := ih hlinked hstale
    have hmem : ∀ x, x ∈ g₁.heap.contents ↔
        x ∈ g.heap.contents ∧ cell.value.clusterId < x.2.clusterId := by
      intro x
      rw [hcontents, List.mem_filter, decide_eq_true_eq]
    have hin : ∀ b ∈ g₁.ackedClusters, b ∈ g.ackedClusters := by
      intro b hb
      rw [hacked] at hb
      exact List.mem_of_mem_tail hb
    refine ⟨hlinked', hfresh'.trans hfresh, hseq'.trans hseq, fun b hb => hin b (hacked' b hb),
      fun x hx => ((hmem x).mp (hsub x hx)).1, ?_⟩
    intro x hx hnewer
    have hfirst : cell.value.clusterId < x.2.clusterId :=
      hnewer a (List.mem_of_head? hhead) cell.value (Heap.mem_contents.mpr ⟨cell, hread, rfl⟩)
    exact hstay x ((hmem x).mpr ⟨hx, hfirst⟩) fun b hb c hc =>
      hnewer b (hin b hb) c ((hmem (b, c)).mp hc).1

end ClusterGraph
end CongestionResponse.ClusterBbr
