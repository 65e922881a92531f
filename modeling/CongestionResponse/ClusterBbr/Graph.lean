import CongestionResponse.ClusterBbr.Chain

/-! The cluster graph never refers to a deleted cluster.

Three containers and a chain of raw pointers refer to the same clusters. The
invariant `Coherent` reads all of them off the heap's contents: `connection_info_`
is the index of the clusters by their id, the chain links them in that order, and
every cluster in `acked_clusters_` is older than some cluster that has been
acknowledged. That the last list has no cluster twice, and only live ones, rests on
the order of the acknowledgements: packet numbers go up, hence rounds do
(`frontier`), so the first acknowledgement of a cluster comes after those of all
older ones. -/
namespace CongestionResponse.ClusterBbr
open Lib Quic

namespace ClusterGraph

/-- The invariant of the graph, in a round and after the acknowledgement of `lastAckSeq`. -/
structure Coherent (g : ClusterGraph) (round lastAckSeq : Nat) : Prop extends Linked g round where
  seqRound_le : ∀ e ∈ g.seqRoundMap.entries, e.2 ≤ round
  seqRound_mono : g.seqRoundMap.entries.Pairwise fun d e => d.2 ≤ e.2
  frontier : ∀ e ∈ g.seqRoundMap.entries, lastAckSeq < e.1 →
    ∀ x ∈ g.heap.contents, x.2.firstAckTs ≠ 0 → x.2.clusterId ≤ e.2
  ackedSorted : g.ackedClusters.Pairwise (· < ·)
  acked : ∀ a ∈ g.ackedClusters, (∃ c, (a, c) ∈ g.heap.contents) ∧
    ∃ x ∈ g.heap.contents, a < x.1 ∧ x.2.firstAckTs ≠ 0

variable {g : ClusterGraph} {round last : Nat}

theorem coherent_new : new.Coherent 0 0 :=
  {linked_new with
    seqRound_le := by intro e he; cases he
    seqRound_mono := List.Pairwise.nil
    frontier := by intro e he; cases he
    ackedSorted := List.Pairwise.nil
    acked := by intro a ha; cases ha}

theorem Coherent.weaken (h : g.Coherent round last) {round' last' : Nat} (hround : round ≤ round')
    (hlast : last ≤ last') : g.Coherent round' last' :=
  {h with
    clusterId_le := fun x hx => (h.clusterId_le x hx).trans hround
    seqRound_le := fun e he => (h.seqRound_le e he).trans hround
    frontier := fun e he hlt => h.frontier e he (Nat.lt_of_le_of_lt hlast hlt)}

/-! ### Sending -/

/-- A packet with a new highest number joins or starts the cluster of the current round. -/
theorem Coherent.addPacketInfoSampler (h : g.Coherent round last) {p : Nat}
    (hp : ∀ k ∈ g.seqRoundMap.keys, k < p) (isProbe : Bool) (now : Int) (bytes : Nat) :
    ∃ g', g.addPacketInfoSampler round isProbe now p bytes = some g' ∧ g'.Coherent round last ∧
      g'.seqRoundMap = g.seqRoundMap.insert p round ∧ g'.ackedClusters = g.ackedClusters ∧
      g.Sends round isProbe now p bytes g'.heap.contents := by
  obtain ⟨g', hadd, hlinked, -, hseq, hacked, hsends⟩ :=
    h.toLinked.addPacketInfoSampler isProbe now p bytes
  refine ⟨g', hadd, ?_, hseq, hacked, hsends⟩
  have hentries : g'.seqRoundMap.entries = g.seqRoundMap.entries ++ [(p, round)] := by
    rw [hseq]
    exact OrderedMap.insert_of_lt _ round hp
  have hmem : ∀ e, e ∈ g'.seqRoundMap.entries ↔ e ∈ g.seqRoundMap.entries ∨ e = (p, round) := by
    intro e
    rw [hentries, List.mem_append, List.mem_singleton]
  refine
    {hlinked with
      seqRound_le := ?le
      seqRound_mono := ?mono
      frontier := ?frontier
      ackedSorted := by rw [hacked]; exact h.ackedSorted
      acked := ?acked}
  case le =>
    intro e he
    rcases (hmem e).mp he with he | rfl
    · exact h.seqRound_le e he
    · exact Nat.le_refl _
  case mono =>
    rw [hentries, List.pairwise_append]
    refine ⟨h.seqRound_mono, List.pairwise_singleton _ _, ?_⟩
    intro d hd e he
    rw [List.mem_singleton.mp he]
    exact h.seqRound_le d hd
  case frontier =>
    intro e he hlt x hx hopened
    rcases (hmem e).mp he with he | rfl
    · -- A cluster that was acknowledged is not the new one.
      rcases hsends.origin hx with ⟨c, hc, heq | heq⟩ | heq <;> rw [heq] at hopened ⊢
      · exact h.frontier e he hlt _ hc hopened
      · exact h.frontier e he hlt _ hc hopened
      · exact absurd rfl hopened
    · exact hlinked.clusterId_le x hx
  case acked =>
    rw [hacked]
    intro a ha
    obtain ⟨⟨c, hc⟩, y, hy, hay, hopened⟩ := h.acked a ha
    obtain ⟨c', hc', -⟩ := hsends.survives hc
    obtain ⟨y', hy', heq⟩ := hsends.survives hy
    refine ⟨⟨c', hc'⟩, _, hy', hay, ?_⟩
    rcases heq with rfl | rfl
    · exact hopened
    · exact hopened

/-! ### Acknowledging -/

/-- The round of an acknowledged packet is not above that of any packet with a greater number. -/
theorem Coherent.round_le (h : g.Coherent round last) {p r : Nat}
    (hfind : g.seqRoundMap.find? p = some r) {e : Nat × Nat} (he : e ∈ g.seqRoundMap.entries)
    (hlt : p < e.1) : r ≤ e.2 := by
  rcases pairwise_cases (g.seqRoundMap.sorted.and h.seqRound_mono)
    (OrderedMap.find?_eq_some.mp hfind) he with heq | hle | hge
  · rw [← heq] at hlt
    exact absurd hlt (Nat.lt_irrefl _)
  · exact hle.2
  · exact absurd hge.1 (Nat.lt_asymm hlt)

/-- The clusters acknowledged before are all older than the one that is opened, hence
those estimated before are older than the one before it. -/
theorem Coherent.acked_below (h : g.Coherent round last) {a q : Nat} {c : SentClusterInfo}
    (hc : (a, c) ∈ g.heap.contents) (hfirst : c.firstAckTs = 0)
    (hfront : ∀ x ∈ g.heap.contents, x.2.firstAckTs ≠ 0 → x.2.clusterId ≤ c.clusterId)
    (hprev : ∀ x ∈ g.heap.contents, x.1 < a → x.1 ≤ q) : ∀ b ∈ g.ackedClusters, b < q := by
  intro b hb
  obtain ⟨-, x, hx, hbx, hopened⟩ := h.acked b hb
  have hle := hfront x hx hopened
  rcases h.toLinked.order hx hc with rfl | hlt | hgt
  · exact absurd hfirst hopened
  · exact Nat.lt_of_lt_of_le hbx (hprev x hx hlt.1)
  · exact absurd hle (Nat.not_le.mpr hgt.2)

section Acks
variable {p : Nat} {t : Int} {contents : List (Nat × SentClusterInfo)} {acked : List Nat}
  {report : Option Estimate}

/-- The cluster of the acknowledged packet has a first acknowledgement from then on. -/
theorem ComesFrom.opens {c c' : SentClusterInfo} (h : ComesFrom g p t c c')
    (hround : g.seqRoundMap.find? p = some c.clusterId) (ht : t ≠ 0) : c'.firstAckTs ≠ 0 := by
  rcases h with ⟨hne, -⟩ | ⟨-, ⟨hfirst, hack⟩ | ⟨-, hack⟩⟩
  · exact absurd hround hne
  · rw [(SentClusterInfo.recordAck_frame hack).2.1]
    exact hfirst
  · rw [(SentClusterInfo.recordAck_frame hack).2.1]
    exact ht

/-- A cluster that has a first acknowledgement had it before, or is the one of the packet. -/
theorem ComesFrom.opened_cases {c c' : SentClusterInfo} (h : ComesFrom g p t c c')
    (hopened : c'.firstAckTs ≠ 0) :
    c.firstAckTs ≠ 0 ∨ g.seqRoundMap.find? p = some c.clusterId := by
  rcases h with ⟨-, bw, rfl⟩ | ⟨hround, -⟩
  · exact .inl hopened
  · exact .inr hround

theorem Coherent.frontier_ack (h : g.Coherent round last) (hp : last < p)
    (hacks : Acks g p t contents acked report) {e : Nat × Nat} (he : e ∈ g.seqRoundMap.entries)
    (hlt : p < e.1) {x : Nat × SentClusterInfo} (hx : x ∈ contents) (hopened : x.2.firstAckTs ≠ 0) :
    x.2.clusterId ≤ e.2 := by
  obtain ⟨c, hc, hfrom⟩ := h.toLinked.origin hacks hx
  rw [hfrom.clusterId]
  rcases hfrom.opened_cases hopened with hbefore | hround
  · exact h.frontier e he (hp.trans hlt) _ hc hbefore
  · exact h.round_le hround he hlt

/-- The estimated clusters stay live, and older than an acknowledged one. -/
theorem Coherent.acked_ack (h : g.Coherent round last) (ht : t ≠ 0)
    (hacks : Acks g p t contents acked report) :
    ∀ a ∈ acked, (∃ c, (a, c) ∈ contents) ∧ ∃ x ∈ contents, a < x.1 ∧ x.2.firstAckTs ≠ 0 := by
  intro b hb
  have hbefore : b ∈ g.ackedClusters →
      (∃ c, (b, c) ∈ contents) ∧ ∃ x ∈ contents, b < x.1 ∧ x.2.firstAckTs ≠ 0 := by
    intro hb
    obtain ⟨⟨c, hc⟩, y, hy, hby, hopened⟩ := h.acked b hb
    obtain ⟨c', hc', -⟩ := h.toLinked.survives hacks hc
    obtain ⟨y', hy', hfrom⟩ := h.toLinked.survives hacks hy
    exact ⟨⟨c', hc'⟩, _, hy', hby, hfrom.opened hopened⟩
  rcases hacks.acked_cases with heq | ⟨q, a, c, heq, ⟨d, hd⟩, hc, hround, -, hqa, -⟩
  · exact hbefore (heq ▸ hb)
  · rw [heq, List.mem_append, List.mem_singleton] at hb
    rcases hb with hb | rfl
    · exact hbefore hb
    · obtain ⟨d', hd', -⟩ := h.toLinked.survives hacks hd
      obtain ⟨c', hc', hfrom⟩ := h.toLinked.survives hacks hc
      exact ⟨⟨d', hd'⟩, _, hc', hqa, hfrom.opens hround ht⟩

theorem Coherent.ackedSorted_ack (h : g.Coherent round last) (hp : last < p)
    (hacks : Acks g p t contents acked report) : acked.Pairwise (· < ·) := by
  rcases hacks.acked_cases with heq | ⟨q, a, c, heq, -, hc, hround, hfirst, -, hprev⟩
  · rw [heq]
    exact h.ackedSorted
  · have hfront := h.frontier _ (OrderedMap.find?_eq_some.mp hround) hp
    rw [heq, List.pairwise_append]
    refine ⟨h.ackedSorted, List.pairwise_singleton _ _, ?_⟩
    intro b hb e he
    rw [List.mem_singleton.mp he]
    exact h.acked_below hc hfirst hfront hprev b hb

end Acks

/-- **An acknowledgement follows live pointers only**, and keeps the graph coherent. -/
theorem Coherent.onAck (h : g.Coherent round last) {p : Nat} (hp : last < p) {t : Int}
    (ht : t ≠ 0) :
    ∃ g' report, g.onAck p t = some (g', report) ∧ g'.Coherent round p ∧
      g'.seqRoundMap = g.seqRoundMap.erase p ∧
      Acks g p t g'.heap.contents g'.ackedClusters report := by
  obtain ⟨g', report, hack, hlinked, -, hseq, hacks⟩ := h.toLinked.onAck p t
  have hsub : ∀ e ∈ g'.seqRoundMap.entries, e ∈ g.seqRoundMap.entries := by
    rw [hseq]
    exact fun e he => (OrderedMap.mem_erase.mp he).1
  refine ⟨g', report, hack, ?_, hseq, hacks⟩
  exact
    {hlinked with
      seqRound_le := fun e he => h.seqRound_le e (hsub e he)
      seqRound_mono := by rw [hseq]; exact h.seqRound_mono.filter _
      frontier := fun e he hlt x hx => h.frontier_ack hp hacks (hsub e he) hlt hx
      ackedSorted := h.ackedSorted_ack hp hacks
      acked := h.acked_ack ht hacks}

/-! ### Deleting -/

theorem Coherent.clusterInfoClear (h : g.Coherent round last) (round' last' : Nat) :
    ∃ g', g.clusterInfoClear = some g' ∧ g'.Coherent round' last' ∧ g'.heap.contents = [] ∧
      g'.seqRoundMap = .empty ∧ g'.ackedClusters = [] := by
  obtain ⟨g', hclear, hlinked, hcontents, hseq, hacked⟩ := h.toLinked.clusterInfoClear round'
  refine ⟨g', hclear, ?_, hcontents, hseq, hacked⟩
  refine {hlinked with seqRound_le := ?_, seqRound_mono := ?_, frontier := ?_, ackedSorted := ?_,
                       acked := ?_}
  · rw [hseq]
    intro e he
    cases he
  · rw [hseq]
    exact List.Pairwise.nil
  · rw [hseq]
    intro e he
    cases he
  · rw [hacked]
    exact List.Pairwise.nil
  · rw [hacked]
    intro a ha
    cases ha

/-- Removing an old end of the graph that holds no estimated cluster. -/
theorem Coherent.removeClusterLE (h : g.Coherent round last) (k : Nat)
    (hacked : ∀ a ∈ g.ackedClusters, ∀ c, (a, c) ∈ g.heap.contents → k < c.clusterId) :
    ∃ g', g.removeClusterLE k = some g' ∧ g'.Coherent round last ∧
      g'.heap.contents = (g.heap.contents.filter fun x => decide (k < x.2.clusterId)) ∧
      g'.seqRoundMap = g.seqRoundMap ∧ g'.ackedClusters = g.ackedClusters := by
  obtain ⟨g', hremove, hlinked, -, hcontents, hseq, hlist⟩ := h.toLinked.removeClusterLE k
  have hmem : ∀ x, x ∈ g'.heap.contents ↔ x ∈ g.heap.contents ∧ k < x.2.clusterId := by
    intro x
    rw [hcontents, List.mem_filter, decide_eq_true_eq]
  refine ⟨g', hremove, ?_, hcontents, hseq, hlist⟩
  refine {hlinked with seqRound_le := ?_, seqRound_mono := ?_, frontier := ?_, ackedSorted := ?_,
                       acked := ?_}
  · rw [hseq]
    exact h.seqRound_le
  · rw [hseq]
    exact h.seqRound_mono
  · rw [hseq]
    exact fun e he hlt x hx => h.frontier e he hlt x ((hmem x).mp hx).1
  · rw [hlist]
    exact h.ackedSorted
  · rw [hlist]
    intro a ha
    obtain ⟨⟨c, hc⟩, y, hy, hay, hopened⟩ := h.acked a ha
    have hk := hacked a ha c hc
    have hcy := (h.toLinked.clusterId_lt_iff hc hy).mpr hay
    exact ⟨⟨c, (hmem _).mpr ⟨hc, hk⟩⟩, y, (hmem y).mpr ⟨hy, hk.trans hcy⟩, hay, hopened⟩

/-- Dropping estimated clusters from the front removes only clusters that are older than some
acknowledged one. -/
theorem Coherent.removeStale (h : g.Coherent round last) {n : Nat}
    (hn : n ≤ g.ackedClusters.length) :
    ∃ g', g.removeStale n = some g' ∧ g'.Coherent round last ∧
      g'.seqRoundMap = g.seqRoundMap ∧ g'.ackedClusters = g.ackedClusters.drop n ∧
      (∀ x ∈ g'.heap.contents, x ∈ g.heap.contents) ∧
      ∀ x ∈ g.heap.contents, x ∈ g'.heap.contents ∨
        ∃ y ∈ g'.heap.contents, y.2.firstAckTs ≠ 0 ∧ x.2.clusterId < y.2.clusterId := by
  induction n generalizing g with
  | zero => exact ⟨g, rfl, h, rfl, rfl, fun _ hx => hx, fun _ hx => .inl hx⟩
  | succ n ih =>
    obtain ⟨a, rest, hlist⟩ :=
      List.exists_cons_of_length_pos (Nat.lt_of_lt_of_le (Nat.succ_pos n) hn)
    have hsorted := h.ackedSorted
    rw [hlist] at hsorted
    obtain ⟨⟨c, hc⟩, y, hy, hay, hopened⟩ := h.acked a (by rw [hlist]; exact List.mem_cons_self ..)
    -- The rest of the list is newer than its head, which is what makes the removal safe.
    have hrest : {g with ackedClusters := rest}.Coherent round last :=
      {h with
        ackedSorted := (List.pairwise_cons.mp hsorted).2
        acked := fun b hb => h.acked b (by rw [hlist]; exact List.mem_cons_of_mem _ hb)}
    have hnewer : ∀ b ∈ rest, ∀ d, (b, d) ∈ g.heap.contents → c.clusterId < d.clusterId := by
      intro b hb d hd
      have hab : a < b := (List.pairwise_cons.mp hsorted).1 b hb
      rcases h.toLinked.order hc hd with heq | hlt | hgt
      · exact absurd (congrArg Prod.fst heq) (Nat.ne_of_lt hab)
      · exact hlt.2
      · exact absurd hgt.1 (Nat.lt_asymm hab)
    obtain ⟨g₁, hremove, hcoherent₁, hcontents₁, hseq₁, hacked₁⟩ :=
      hrest.removeClusterLE c.clusterId hnewer
    obtain ⟨g', hstale, hcoherent, hseq, hacked, hsub, hgone⟩ := ih hcoherent₁ (by
      rw [hacked₁]
      rw [hlist, List.length_cons] at hn
      exact Nat.le_of_succ_le_succ hn)
    obtain ⟨cell, hread, hvalue⟩ := Heap.mem_contents.mp hc
    have hmem : ∀ x, x ∈ g₁.heap.contents ↔ x ∈ g.heap.contents ∧ c.clusterId < x.2.clusterId := by
      intro x
      rw [hcontents₁, List.mem_filter, decide_eq_true_eq]
    refine ⟨g', ?_, hcoherent, hseq.trans hseq₁, ?_, ?_, ?_⟩
    · simp [ClusterGraph.removeStale, hlist, hread, hvalue, hremove, hstale]
    · rw [hacked, hacked₁, hlist, List.drop_succ_cons]
    · intro x hx
      exact ((hmem x).mp (hsub x hx)).1
    · intro x hx
      by_cases hxc : x.2.clusterId ≤ c.clusterId
      · -- The cluster whose acknowledgement had this one estimated is newer than all removed.
        have hcy : c.clusterId < y.2.clusterId := (h.toLinked.clusterId_lt_iff hc hy).mpr hay
        rcases hgone y ((hmem y).mpr ⟨hy, hcy⟩) with hy' | ⟨z, hz, hzopened, hyz⟩
        · exact .inr ⟨y, hy', hopened, Nat.lt_of_le_of_lt hxc hcy⟩
        · exact .inr ⟨z, hz, hzopened, Nat.lt_of_le_of_lt hxc (hcy.trans hyz)⟩
      · exact hgone x ((hmem x).mpr ⟨hx, Nat.lt_of_not_le hxc⟩)

/-- Every pointer in `acked_clusters_` can be read, and the ids along it increase. -/
theorem Coherent.ackedInfos (h : g.Coherent round last) :
    ∃ infos, g.ackedInfos = some infos ∧
      (infos.map SentClusterInfo.clusterId).Pairwise (· < ·) := by
  have hread : ∀ l : List Nat, l.Pairwise (· < ·) → (∀ a ∈ l, ∃ c, (a, c) ∈ g.heap.contents) →
      ∃ infos, l.mapM (fun a => (g.heap.read a).map Cell.value) = some infos ∧
        (infos.map SentClusterInfo.clusterId).Pairwise (· < ·) ∧
        ∀ c ∈ infos, ∃ a ∈ l, (a, c) ∈ g.heap.contents := by
    intro l hsorted hl
    induction l with
    | nil => exact ⟨[], rfl, List.Pairwise.nil, fun c hc => by cases hc⟩
    | cons a rest ih =>
      obtain ⟨hhead, htail⟩ := List.pairwise_cons.mp hsorted
      obtain ⟨c, hc⟩ := hl a (List.mem_cons_self ..)
      obtain ⟨infos, hinfos, hids, hlive⟩ := ih htail fun b hb => hl b (List.mem_cons_of_mem _ hb)
      obtain ⟨cell, hcell, rfl⟩ := Heap.mem_contents.mp hc
      refine ⟨cell.value :: infos, by simp [hcell, hinfos], ?_, ?_⟩
      · rw [List.map_cons, List.pairwise_cons]
        refine ⟨?_, hids⟩
        intro id hid
        obtain ⟨d, hd, rfl⟩ := List.mem_map.mp hid
        obtain ⟨b, hb, hbd⟩ := hlive d hd
        exact (h.toLinked.clusterId_lt_iff hc hbd).mpr (hhead b hb)
      · intro d hd
        rcases List.mem_cons.mp hd with rfl | hd
        · exact ⟨a, List.mem_cons_self .., hc⟩
        · obtain ⟨b, hb, hbd⟩ := hlive d hd
          exact ⟨b, List.mem_cons_of_mem _ hb, hbd⟩
  obtain ⟨infos, hinfos, hids, -⟩ := hread _ h.ackedSorted fun a ha => (h.acked a ha).1
  exact ⟨infos, hinfos, hids⟩

end ClusterGraph
end CongestionResponse.ClusterBbr
