import CongestionResponse.ClusterBbr.Epochs

/-! A cluster is estimated at most once, and not at all if its successor is lost.

An acknowledgement has at most one cluster judged: the one sent right before its own, if it
is the first of its own. Removals take only clusters that are older than an acknowledged
one, so the cluster sent right before one that was never acknowledged is still live
(`Epoch.prev_of_sentAfter`), and the one the chain leads to is the one sent right before
(`Epoch.sentAfter_of_prev`). -/
namespace CongestionResponse.ClusterBbr
open Lib Quic ClusterGraph

/-! ### The cluster right before -/

section Before
variable {es : List Event} {acks : List (Int × Nat)} {ps : List ClusterPacket} {s : MyBbrSender}
  {p : Nat} {t : Int} {a : Nat} {c : SentClusterInfo}

theorem SentAfter.unique {k m n : Nat} (hm : SentAfter ps k m) (hn : SentAfter ps k n) : m = n := by
  obtain ⟨q, hq, rfl⟩ := hm.snd
  obtain ⟨r, hr, rfl⟩ := hn.snd
  exact Nat.le_antisymm (hm.least r hr hn.lt) (hn.least q hq hm.lt)

/-- Before a cluster that gets its first acknowledgement, the newest one is live. -/
theorem Epoch.live_before (h : Epoch es acks ps s) (hp : s.lastAckSeq < p)
    (hc : (a, c) ∈ s.graph.heap.contents) (hround : s.graph.seqRoundMap.find? p = some c.clusterId)
    (hfirst : c.firstAckTs = 0) {q : ClusterPacket} (hq : q ∈ ps) (hlt : q.clusterId < c.clusterId) :
    ∃ x ∈ s.graph.heap.contents, q.clusterId ≤ x.2.clusterId ∧ x.2.clusterId < c.clusterId := by
  rcases h.live q hq with ⟨x, hx, hid⟩ | ⟨y, hy, hopened, hqy⟩
  · exact ⟨x, hx, Nat.le_of_eq hid.symm, by rwa [hid]⟩
  · have hle := (h.awaited_live hp hround).2 y hy hopened
    refine ⟨y, hy, Nat.le_of_lt hqy, Nat.lt_of_le_of_ne hle ?_⟩
    intro hid
    obtain ⟨b, d⟩ := y
    obtain rfl := h.history.sound.coherent.toLinked.clusterId_inj hy hc hid
    obtain rfl := Heap.contents_unique hy hc
    exact hopened hfirst

/-- The chain leads to the cluster that was sent right before. -/
theorem Epoch.sentAfter_of_prev (h : Epoch es acks ps s) (hp : s.lastAckSeq < p)
    (hc : (a, c) ∈ s.graph.heap.contents) (hround : s.graph.seqRoundMap.find? p = some c.clusterId)
    (hfirst : c.firstAckTs = 0) {b : Nat} {d : SentClusterInfo}
    (hd : (b, d) ∈ s.graph.heap.contents) (hba : b < a)
    (hprev : ∀ x ∈ s.graph.heap.contents, x.1 < a → x.1 ≤ b) :
    SentAfter ps d.clusterId c.clusterId where
  fst := h.exists_packet hd
  snd := h.exists_packet hc
  lt := (h.history.sound.coherent.toLinked.clusterId_lt_iff hd hc).mpr hba
  least := by
    intro q hq hdq
    by_contra hlt
    obtain ⟨⟨e, f⟩, hx, hqx, hxc⟩ := h.live_before hp hc hround hfirst hq (Nat.lt_of_not_le hlt)
    have hcoherent := h.history.sound.coherent
    have heb := hprev _ hx ((hcoherent.toLinked.clusterId_lt_iff hx hc).mp hxc)
    have hbe := (hcoherent.toLinked.clusterId_lt_iff hd hx).mp (Nat.lt_of_lt_of_le hdq hqx)
    exact absurd heb (Nat.not_le.mpr hbe)

/-- The cluster that was sent right before is live, and the chain leads to it. -/
theorem Epoch.prev_of_sentAfter (h : Epoch es acks ps s) (hp : s.lastAckSeq < p)
    (hc : (a, c) ∈ s.graph.heap.contents) (hround : s.graph.seqRoundMap.find? p = some c.clusterId)
    (hfirst : c.firstAckTs = 0) {k : Nat} (hafter : SentAfter ps k c.clusterId) :
    ∃ b d, (b, d) ∈ s.graph.heap.contents ∧ d.clusterId = k ∧ b < a ∧
      ∀ x ∈ s.graph.heap.contents, x.1 < a → x.1 ≤ b := by
  have hcoherent := h.history.sound.coherent
  -- Nothing live is strictly between the two.
  have hbetween : ∀ x ∈ s.graph.heap.contents, x.2.clusterId < c.clusterId → x.2.clusterId ≤ k := by
    intro x hx hxc
    obtain ⟨q, hq, hid⟩ := h.exists_packet hx
    by_contra hkx
    have := hafter.least q hq (by omega)
    omega
  obtain ⟨q, hq, rfl⟩ := hafter.fst
  obtain ⟨⟨b, d⟩, hd, hqd, hdc⟩ := h.live_before hp hc hround hfirst hq hafter.lt
  have hid : d.clusterId = q.clusterId := Nat.le_antisymm (hbetween _ hd hdc) hqd
  refine ⟨b, d, hd, hid, (hcoherent.toLinked.clusterId_lt_iff hd hc).mp hdc, ?_⟩
  rintro ⟨e, f⟩ hx hxa
  have hxd := hbetween _ hx ((hcoherent.toLinked.clusterId_lt_iff hx hc).mpr hxa)
  by_contra hbe
  have hdf := (hcoherent.toLinked.clusterId_lt_iff hd hx).mpr (Nat.lt_of_not_le hbe)
  exact absurd (hid ▸ hxd) (Nat.not_le.mpr hdf)

end Before

/-! ### What the trigger computes -/

section Trigger
variable {acks : List (Int × Nat)} {ps : List ClusterPacket} {c : SentClusterInfo}

theorem InEpoch.sendRate_eq (h : InEpoch ps c) :
    let sends := (packetsIn ps c.clusterId).map fun q => (q.sentTs, q.len)
    c.sendRate = if 0 < spanOf sends then
      QuicBandwidth.fromBytesAndTimeDelta (bytesOf sends) (spanOf sends) else .infinite := by
  intro sends
  have hspan : spanOf sends = c.lastSendTs - c.firstSendTs := by
    rw [h.dispatched.first, h.dispatched.last, h.packets]
    simp [spanOf, sends, Option.map_map, Function.comp_def]
  have hbytes : bytesOf sends = c.sentPackets := by
    rw [h.dispatched.bytes, h.packets]
    simp [bytesOf, sends, Function.comp_def]
  simp only [SentClusterInfo.sendRate, hspan, hbytes, Int.sub_pos]

theorem InEpoch.rate_eq (h : InEpoch ps c) (htallied : c.Tallied acks) :
    min c.sendRate c.ackRate = rateIn acks ps c.clusterId := by
  rw [rateIn, ← h.acksIn_eq, htallied.span_eq, h.sendRate_eq, SentClusterInfo.ackRate,
    htallied.bytes]
  rfl

/-- An estimate is passed on exactly if the cluster is worth it. -/
theorem InEpoch.triggers_iff (h : InEpoch ps c) (htallied : c.Tallied acks) :
    c.triggerBandwidthEstimate.2 = true ↔ Worth acks ps c.clusterId := by
  have hspan : spanOf (acksFor acks ps c.clusterId) ≠ 0 ↔ c.lastAckTs ≠ c.firstAckTs := by
    rw [← h.acksIn_eq, htallied.span_eq]
    omega
  unfold Worth SentClusterInfo.triggerBandwidthEstimate
  rw [hspan, ← h.rate_eq htallied]
  by_cases hlacks : c.lacksSpan
  · rw [if_pos hlacks]
    simp only [Bool.false_eq_true, false_iff, not_and]
    intro hne
    -- Without a byte acknowledged the rate is zero.
    have hzero : c.ackedPackets = 0 := by
      simpa [SentClusterInfo.lacksSpan, hne] using hlacks
    rw [SentClusterInfo.ackRate, hzero, QuicBandwidth.fromBytesAndTimeDelta_zero]
    exact fun hlt => absurd (lt_of_lt_of_le hlt (min_le_right _ _)) (lt_irrefl _)
  · rw [if_neg hlacks, decide_eq_true_eq]
    have hne : c.lastAckTs ≠ c.firstAckTs := fun heq => hlacks (by
      simp [SentClusterInfo.lacksSpan, heq])
    exact (and_iff_right hne).symm

end Trigger

/-! ### One acknowledgement -/

section Acknowledged
variable {es : List Event} {acks : List (Int × Nat)} {ps : List ClusterPacket}
  {s s' : MyBbrSender} {t : Int} {p k : Nat} {contents : List (Nat × SentClusterInfo)}
  {acked : List Nat} {report : Option Estimate}

/-- An acknowledgement of a packet elsewhere does not make a cluster worth more or less. -/
theorem worth_skip (hp : p ∉ numbersIn ps k) :
    Worth (acks ++ [(t, p)]) ps k ↔ Worth acks ps k := by
  have hsame : acksFor (acks ++ [(t, p)]) ps k = acksFor acks ps k := by
    have hnone : ((packetsIn ps k).map fun q => (q.seq, q.len)).lookup p = none := by
      rw [List.lookup_eq_none_iff]
      intro e he
      obtain ⟨q, hq, rfl⟩ := List.mem_map.mp he
      rw [bne_iff_ne]
      rintro rfl
      exact hp (List.mem_map_of_mem hq)
    simp [acksFor, List.filterMap_append, hnone]
  unfold Worth rateIn
  rw [hsame]

/-- A cluster whose successor was acknowledged gets no more acknowledgements. -/
theorem Epoch.notMem_of_nextOpened (h : Epoch es acks ps s) (hp : s.lastAckSeq < p)
    (hnext : NextOpened acks ps k) : p ∉ numbersIn ps k := by
  obtain ⟨k', hafter, ack, hack, hmem⟩ := hnext
  intro hpk
  obtain ⟨q, hq, rfl, rfl⟩ := mem_numbersIn.mp hpk
  obtain ⟨r, hr, rfl, hseq⟩ := mem_numbersIn.mp hmem
  have hle := h.acked ack hack
  have hlt := hafter.lt
  rcases pairwise_cases h.ordered hq hr with rfl | hqr | hrq <;> omega

theorem Epoch.opened_concat (h : Epoch es acks ps s) {r : Nat}
    (hround : s.graph.seqRoundMap.find? p = some r) :
    Opened (acks ++ [(t, p)]) ps k ↔ Opened acks ps k ∨ r = k := by
  obtain ⟨q, hq, rfl, rfl⟩ := h.recorded p r hround
  constructor
  · rintro ⟨ack, hack, hmem⟩
    rcases List.mem_append.mp hack with hack | hack
    · exact .inl ⟨ack, hack, hmem⟩
    · rw [List.mem_singleton.mp hack] at hmem
      exact .inr (h.clusterId_unique hq hmem)
  · rintro (⟨ack, hack, hmem⟩ | rfl)
    · exact ⟨ack, List.mem_append_left _ hack, hmem⟩
    · exact ⟨_, List.mem_append_right _ (List.mem_singleton_self _),
        mem_numbersIn.mpr ⟨q, hq, rfl, rfl⟩⟩

/-- A report is about the cluster right before one that was not acknowledged yet. -/
theorem Epoch.report_about (h : Epoch es acks ps s) (hp : s.lastAckSeq < p) {e : Estimate}
    (hacks : Acks s.graph p t contents acked (some e)) {n : Nat} (hn : n ∈ numbersIn ps k)
    (hne : n ∈ e.info.numbers) :
    ∃ a c, (a, c) ∈ s.graph.heap.contents ∧ s.graph.seqRoundMap.find? p = some c.clusterId ∧
      c.firstAckTs = 0 ∧ SentAfter ps k c.clusterId := by
  obtain ⟨a, c, d, hc, hround, hfirst, hd, hlt, hprev, -, hinfo, -⟩ := hacks.reported
  have hafter := h.sentAfter_of_prev hp hc hround hfirst hd hlt hprev
  have hnumbers : e.info.numbers = numbersIn ps d.clusterId := by
    rw [hinfo]
    exact (h.clusters _ hd).numbers_eq
  obtain ⟨q, hq, rfl, rfl⟩ := mem_numbersIn.mp hn
  rw [h.clusterId_unique hq (hnumbers ▸ hne)]
  exact ⟨a, c, hc, hround, hfirst, hafter⟩

theorem estimatesOf_append (hestimates : s'.estimates = s.estimates ++ report.toList)
    (numbers : List Nat) : estimatesOf s' numbers = estimatesOf s numbers ++
      report.toList.filter fun e => decide (∃ p ∈ numbers, p ∈ e.info.numbers) := by
  rw [estimatesOf, hestimates, List.filter_append]
  rfl

/-- The cluster right before the one that gets its first acknowledgement is judged now. -/
theorem Epoch.judged_prev (h : Epoch es acks ps s) (hes : Orderly es) (hp : s.lastAckSeq < p)
    (hacks : Acks s.graph p t contents acked report)
    (hestimates : s'.estimates = s.estimates ++ report.toList) {a : Nat} {c : SentClusterInfo}
    (hc : (a, c) ∈ s.graph.heap.contents) (hround : s.graph.seqRoundMap.find? p = some c.clusterId)
    (hfirst : c.firstAckTs = 0) (hafter : SentAfter ps k c.clusterId) :
    Judged (acks ++ [(t, p)]) ps s' k := by
  obtain ⟨b, d, hd, rfl, hba, hprev⟩ := h.prev_of_sentAfter hp hc hround hfirst hafter
  have hkept := h.history.kept _ hd
  have hnumbers := (h.clusters _ hd).numbers_eq
  have hnext : NextOpened (acks ++ [(t, p)]) ps d.clusterId :=
    ⟨_, hafter, (h.opened_concat hround).mpr (.inr rfl)⟩
  have hnone : estimatesOf s (numbersIn ps d.clusterId) = [] := by
    refine (h.judged _).never ?_
    rintro ⟨⟨k', hafter', hopened⟩, -⟩
    rw [hafter'.unique hafter] at hopened
    exact (h.opened_iff hes hc).mpr hopened hfirst
  have hworth : d.triggerBandwidthEstimate.2 = true ↔ Worth (acks ++ [(t, p)]) ps d.clusterId := by
    refine (h.clusters _ hd).triggers_iff (hkept.tallied.skip (hkept.notMem hp ?_))
    rw [hround]
    exact fun heq => Nat.ne_of_gt hafter.lt (Option.some.inj heq)
  have hreports := h.history.sound.coherent.toLinked.reports hacks hc hround hfirst hd hba hprev
  have hsame := estimatesOf_append hestimates (numbersIn ps d.clusterId)
  rw [hnone, List.nil_append] at hsame
  unfold Reports at hreports
  by_cases hcalled : d.triggerBandwidthEstimate.2
  · obtain ⟨e, hreport, he⟩ : ∃ e, report = some e ∧ e.info.numbers = numbersIn ps d.clusterId := by
      simp only [hcalled, if_true] at hreports
      exact ⟨_, hreports.2, (congrArg SentClusterInfo.numbers
        (SentClusterInfo.triggerBandwidthEstimate_eq d)).trans hnumbers⟩
    refine ⟨fun _ _ => ⟨e, ?_, he⟩, fun hnot => absurd ⟨hnext, hworth.mp hcalled⟩ hnot⟩
    obtain ⟨q, hq, hid⟩ := hafter.fst
    have hmem : q.seq ∈ numbersIn ps d.clusterId := mem_numbersIn.mpr ⟨q, hq, hid, rfl⟩
    rw [hsame, hreport, Option.toList_some]
    exact List.filter_cons_of_pos (decide_eq_true ⟨q.seq, hmem, he ▸ hmem⟩)
  · simp only [hcalled, Bool.false_eq_true, if_false] at hreports
    refine ⟨fun _ hworthy => absurd (hworth.mpr hworthy) hcalled, fun _ => ?_⟩
    rw [hsame, hreports.2]
    rfl

/-- Every other cluster stays as it was judged. -/
theorem Epoch.judged_other (h : Epoch es acks ps s) (hes : Orderly es) (hp : s.lastAckSeq < p)
    (hacks : Acks s.graph p t contents acked report)
    (hestimates : s'.estimates = s.estimates ++ report.toList) {a : Nat} {c : SentClusterInfo}
    (hc : (a, c) ∈ s.graph.heap.contents) (hround : s.graph.seqRoundMap.find? p = some c.clusterId)
    (hother : ¬(c.firstAckTs = 0 ∧ SentAfter ps k c.clusterId)) :
    Judged (acks ++ [(t, p)]) ps s' k := by
  refine (h.judged k).congr rfl ?_ (fun hnext => worth_skip (h.notMem_of_nextOpened hp hnext)) ?_
  · constructor
    · rintro ⟨k', hafter, hopened⟩
      refine ⟨k', hafter, ((h.opened_concat hround).mp hopened).elim id ?_⟩
      rintro rfl
      exact (h.opened_iff hes hc).mp fun hfirst => hother ⟨hfirst, hafter⟩
    · rintro ⟨k', hafter, hopened⟩
      exact ⟨k', hafter, (h.opened_concat hround).mpr (.inl hopened)⟩
  · rw [estimatesOf_append hestimates, List.append_right_eq_self, List.filter_eq_nil_iff]
    intro e he hmem
    obtain ⟨n, hn, hne⟩ := of_decide_eq_true hmem
    rw [Option.mem_toList.mp he] at hacks
    obtain ⟨b, d, hd, hround', hfirst, hafter⟩ := h.report_about hp hacks hn hne
    have hid : d.clusterId = c.clusterId := Option.some.inj (hround'.symm.trans hround)
    obtain rfl := h.history.sound.coherent.toLinked.clusterId_inj hd hc hid
    obtain rfl := Heap.contents_unique hd hc
    exact hother ⟨hfirst, hafter⟩

theorem Epoch.judged_ack (h : Epoch es acks ps s) (hes : Orderly es) (hp : s.lastAckSeq < p)
    (hacks : Acks s.graph p t contents acked report)
    (hestimates : s'.estimates = s.estimates ++ report.toList) (k : Nat) :
    Judged (acks ++ recordedAck s (.ack t p)) ps s' k := by
  rw [recordedAck_of_lt hp]
  cases hround : s.graph.seqRoundMap.find? p with
  | none =>
    have hreport : report = none := by
      cases hacks with
      | gone => rfl
      | credited hc hround' => rw [hround] at hround'; cases hround'
    rw [hreport, Option.toList_none, List.append_nil] at hestimates
    simp only [Option.isSome_none, Bool.false_eq_true, if_false, List.append_nil]
    exact (h.judged k).congr rfl Iff.rfl (fun _ => Iff.rfl)
      (by rw [estimatesOf, estimatesOf, hestimates])
  | some r =>
    obtain ⟨⟨⟨a, c⟩, hc, rfl⟩, -⟩ := h.awaited_live hp hround
    simp only [Option.isSome_some, if_true]
    by_cases hprev : c.firstAckTs = 0 ∧ SentAfter ps k c.clusterId
    · exact h.judged_prev hes hp hacks hestimates hc hround hprev.1 hprev.2
    · exact h.judged_other hes hp hacks hestimates hc hround hprev

/-- What the removal at the end leaves is newer than what it takes. -/
theorem Epoch.live_ack {g₀ g₁ : ClusterGraph} (h : Epoch es acks ps s)
    (hack : s.AckStep t p s' g₀ g₁ report) (henters : ¬s.entersProbeRtt t p) {q : ClusterPacket}
    (hq : q ∈ ps) : (∃ x ∈ s'.graph.heap.contents, x.2.clusterId = q.clusterId) ∨
      ∃ y ∈ s'.graph.heap.contents, y.2.firstAckTs ≠ 0 ∧ q.clusterId < y.2.clusterId := by
  have hcoherent := hack.coherent₀
  obtain rfl := hack.kept henters
  rcases h.live q hq with ⟨x, hx, hid⟩ | ⟨y, hy, hopened, hlt⟩
  · obtain ⟨c, hc, hfrom⟩ := hcoherent.toLinked.survives hack.acks hx
    have hid' : c.clusterId = q.clusterId := hfrom.sameSends.clusterId.trans hid
    rcases hack.gone _ hc with hstays | ⟨y, hy, hopened, hlt⟩
    · exact .inl ⟨_, hstays, hid'⟩
    · exact .inr ⟨y, hy, hopened, hid' ▸ hlt⟩
  · obtain ⟨c, hc, hfrom⟩ := hcoherent.toLinked.survives hack.acks hy
    have hlt' : q.clusterId < c.clusterId := hfrom.sameSends.clusterId ▸ hlt
    rcases hack.gone _ hc with hstays | ⟨z, hz, hopened', hlt''⟩
    · exact .inr ⟨_, hstays, hfrom.opened hopened, hlt'⟩
    · exact .inr ⟨z, hz, hopened', hlt'.trans hlt''⟩

theorem Epoch.acked_ack (h : Epoch es acks ps s) (hp : s.lastAckSeq < p)
    (hlast : s'.lastAckSeq = p) :
    ∀ ack ∈ acks ++ recordedAck s (.ack t p), ack.2 ≤ s'.lastAckSeq := by
  intro ack hmem
  rw [hlast]
  rcases List.mem_append.mp hmem with hmem | hmem
  · exact (h.acked ack hmem).trans (Nat.le_of_lt hp)
  · rw [recordedAck_of_lt hp] at hmem
    split at hmem
    · rw [List.mem_singleton.mp hmem]
    · cases hmem

/-- An estimate is of packets that were sent. -/
theorem Epoch.estimated_ack {g₀ g₁ : ClusterGraph} (h : Epoch es acks ps s)
    (hack : s.AckStep t p s' g₀ g₁ report) {e : Estimate} (he : e ∈ s'.estimates) {n : Nat}
    (hn : n ∈ e.info.numbers) : n ∈ sentNumbers es := by
  rw [hack.estimates, List.mem_append, Option.mem_toList] at he
  rcases he with he | rfl
  · exact h.estimated e he n hn
  · by_cases henters : s.entersProbeRtt t p
    · cases (hack.nothing_left henters).2.2
    · have hacks := hack.acks
      rw [hack.kept henters] at hacks
      obtain ⟨a, c, d, -, -, -, hd, -, -, -, hinfo, -⟩ := hacks.reported
      rw [hinfo] at hn
      exact (h.history.kept _ hd).sent n hn

theorem Epoch.ack {g₀ g₁ : ClusterGraph} (h : Epoch es acks ps s) (hes : Orderly es)
    (hp : s.lastAckSeq < p) (hack : s.AckStep t p s' g₀ g₁ report)
    (hhistory : History (es ++ [.ack t p]) (acks ++ recordedAck s (.ack t p)) s') :
    Epoch (es ++ [.ack t p]) (acks ++ recordedAck s (.ack t p)) (nextEpoch s ps (.ack t p)) s' := by
  have hestimated : ∀ e ∈ s'.estimates, ∀ n ∈ e.info.numbers, n ∈ sentNumbers (es ++ [.ack t p]) :=
    fun e he n hn => mem_sentNumbers_concat (h.estimated_ack hack he hn) _
  by_cases henters : s.entersProbeRtt t p
  · obtain ⟨hempty, hnone, -⟩ := hack.nothing_left henters
    rw [nextEpoch, if_pos ⟨hp, henters⟩]
    exact
      { history := hhistory
        clusters := fun x hx => by rw [hempty] at hx; cases hx
        recorded := fun q r hq => by rw [hnone] at hq; cases hq
        live := fun q hq => by cases hq
        ordered := List.Pairwise.nil
        sent := fun q hq => by cases hq
        rounds := fun q hq => by cases hq
        acked := h.acked_ack hp hack.lastAckSeq
        estimated := hestimated
        judged := judged_nil _ s' }
  · have hacks := hack.acks
    have hseq := hack.seqRoundMap
    have hcoherent := hack.coherent₀
    rw [hack.kept henters] at hacks hseq hcoherent
    rw [nextEpoch, if_neg fun hboth => henters hboth.2]
    constructor
    case history => exact hhistory
    case clusters =>
      intro x hx
      obtain ⟨c, hc, hfrom⟩ := hcoherent.toLinked.origin hacks (hack.trimmed x hx)
      have hsame := hfrom.sameSends
      have hc' := h.clusters _ hc
      exact ⟨by rw [hsame.packets, hsame.clusterId]; exact hc'.packets,
        hsame.dispatched hc'.dispatched⟩
    case recorded =>
      intro q r hq
      rw [hseq] at hq
      by_cases hqp : q = p
      · rw [hqp, OrderedMap.find?_erase_self] at hq
        cases hq
      · rw [OrderedMap.find?_erase_of_ne _ hqp] at hq
        exact h.recorded q r hq
    case live => exact fun q hq => h.live_ack hack henters hq
    case ordered => exact h.ordered
    case sent => exact fun q hq => mem_sentNumbers_concat (h.sent q hq) _
    case rounds => exact fun q hq => (h.rounds q hq).trans (hack.rounds henters)
    case acked => exact h.acked_ack hp hack.lastAckSeq
    case estimated => exact hestimated
    case judged => exact h.judged_ack hes hp hacks hack.estimates

end Acknowledged

/-! ### Whole runs -/

/-- **Every orderly run judges its clusters.** -/
theorem epoch_run (minBps : Nat) (hasObserver : Bool) (random : MyQuicRandom) (es : List Event)
    (hes : Orderly es) (hsmall : StaySmall (.new minBps hasObserver random) es) :
    ∃ s, tryRun step (.new minBps hasObserver random) es = some s ∧
      Epoch es (acksOf (.new minBps hasObserver random) es)
        (epochOf (.new minBps hasObserver random) es) s := by
  refine tryRun_history
    (A := fun es => Orderly es ∧ StaySmall (.new minBps hasObserver random) es)
    (P := fun es s => Epoch es (acksOf (.new minBps hasObserver random) es)
      (epochOf (.new minBps hasObserver random) es) s)
    (fun _ _ h => ⟨h.1.init, h.2.init⟩) (epoch_new minBps hasObserver random) ?_ es
    ⟨hes, hsmall⟩
  rintro es e s ⟨hes, hsmall⟩ hrun h
  rw [acksOf_concat hrun, epochOf_concat hrun]
  cases e with
  | sent t p bytes =>
    obtain ⟨s', hstep, hsend, hhistory⟩ := h.history.sent hes
    refine ⟨s', hstep, ?_⟩
    simp only [recordedAck, List.append_nil, nextEpoch]
    by_cases hmode : s.control.mode = .probeBw
    · rw [if_pos hmode]
      exact h.sent_probing hes hsend hmode hhistory
    · rw [if_neg hmode]
      exact h.skip hhistory (fun k hk => mem_sentNumbers_concat hk _) (hsend.idle hmode)
        hsend.lastAckSeq (by rw [hsend.control]) hsend.estimates
  | period ms =>
    refine ⟨_, rfl, ?_⟩
    simp only [recordedAck, List.append_nil, nextEpoch]
    exact h.skip (h.history.skip rfl rfl rfl rfl rfl rfl) (fun k hk => mem_sentNumbers_concat hk _)
      rfl rfl rfl rfl
  | ack t p =>
    by_cases hp : s.lastAckSeq < p
    · obtain ⟨s', g₀, g₁, report, hstep, hack, hhistory⟩ :=
        h.history.ack hes (hsmall.here hrun) hp
      exact ⟨s', hstep, h.ack hes.init hp hack hhistory⟩
    · refine ⟨s, ?_, ?_⟩
      · simp only [step, MyBbrSender.onAck, Nat.le_of_not_lt hp, if_true]
      · simp only [recordedAck, hp, false_and, if_false, List.append_nil, nextEpoch]
        exact h.skip (h.history.skip rfl rfl rfl rfl rfl rfl)
          (fun k hk => mem_sentNumbers_concat hk _) rfl rfl rfl rfl

/-! ### Which clusters are missed -/

/-- Packets of the cluster were acknowledged at distinct times, and its rate is not zero. -/
structure Estimable (acks : List (Int × Nat)) (ps : List ClusterPacket) (k : Nat) : Prop where
  distinct : ∃ x ∈ acksFor acks ps k, ∃ y ∈ acksFor acks ps k, x.1 ≠ y.1
  rate : rateIn acks ps k ≠ .zero

/-- The cluster was passed to `OnEstimateBandwidth` exactly once, as a whole and with all the
acknowledgements it will ever get. -/
def EstimatedOnce (acks : List (Int × Nat)) (ps : List ClusterPacket) (s : MyBbrSender) (k : Nat) :
    Prop :=
  ∃ e, estimatesOf s (numbersIn ps k) = [e] ∧ e.info.numbers = numbersIn ps k ∧ Final acks s e

/-- In the order of their times, acknowledgements at distinct times have a span. -/
theorem spanOf_ne_zero {acks : List (Int × Nat)} (h : (acks.map Prod.fst).Pairwise (· ≤ ·))
    (hdistinct : ∃ x ∈ acks, ∃ y ∈ acks, x.1 ≠ y.1) : spanOf acks ≠ 0 := by
  obtain ⟨x, hx, y, hy, hne⟩ := hdistinct
  obtain ⟨hx₁, hx₂⟩ := times_within h hx
  obtain ⟨hy₁, hy₂⟩ := times_within h hy
  unfold spanOf
  omega

theorem Estimable.worth {acks : List (Int × Nat)} {ps : List ClusterPacket} {k : Nat}
    (h : Estimable acks ps k) (hacks : (acks.map Prod.fst).Pairwise (· ≤ ·)) : Worth acks ps k :=
  ⟨spanOf_ne_zero (hacks.sublist (times_lookup _ acks)) h.distinct,
    lt_of_le_of_ne (QuicBandwidth.zero_le _) h.rate.symm⟩

/-- **A cluster is estimated exactly once if the cluster sent right after it was acknowledged,
and is missed otherwise.** Clusters are those sent since the last entry into `PROBE_RTT`. -/
theorem estimated_once_iff_next_opened (minBps : Nat) (hasObserver : Bool) (random : MyQuicRandom)
    (es : List Event) (hes : Orderly es)
    (hsmall : StaySmall (.new minBps hasObserver random) es) :
    ∃ s, tryRun step (.new minBps hasObserver random) es = some s ∧
      ∀ k,
        let acks := acksOf (.new minBps hasObserver random) es
        let ps := epochOf (.new minBps hasObserver random) es
        Estimable acks ps k → (EstimatedOnce acks ps s k ↔ NextOpened acks ps k) := by
  obtain ⟨s, hrun, h⟩ := epoch_run minBps hasObserver random es hes hsmall
  refine ⟨s, hrun, ?_⟩
  intro k acks ps hestimable
  have hworth := hestimable.worth (hes.monotone.sublist h.history.acksTimes)
  constructor
  · rintro ⟨e, he, -, -⟩
    by_contra hnext
    rw [(h.judged k).never fun hboth => hnext hboth.1] at he
    cases he
  · intro hnext
    obtain ⟨e, he, hnumbers⟩ := (h.judged k).once hnext hworth
    have hmem : e ∈ estimatesOf s (numbersIn ps k) := by
      rw [he]
      exact List.mem_singleton_self e
    exact ⟨e, he, hnumbers, h.history.estimates e (List.mem_of_mem_filter hmem)⟩

theorem twoRounds_orderly : Orderly twoRounds := ⟨⟨2, by decide⟩, by decide, by decide⟩

/-- The cluster of packets 2 and 3 is followed by that of packet 4, which is acknowledged. -/
theorem estimated_once_iff_next_opened_two_rounds :
    ∃ s, tryRun step (.new 100000 false ⟨fun _ => 2, 0⟩) twoRounds = some s ∧
      EstimatedOnce (acksOf (.new 100000 false ⟨fun _ => 2, 0⟩) twoRounds)
        (epochOf (.new 100000 false ⟨fun _ => 2, 0⟩) twoRounds) s 1 := by
  have hacks : acksOf (.new 100000 false ⟨fun _ => 2, 0⟩) twoRounds =
      [(100, 2), (150, 3), (300, 4)] := by
    decide +kernel
  have hps : epochOf (.new 100000 false ⟨fun _ => 2, 0⟩) twoRounds =
      [⟨2, 1, 1, 1000⟩, ⟨3, 1, 2, 1000⟩, ⟨4, 2, 160, 1000⟩] := by decide +kernel
  obtain ⟨s, hrun, h⟩ := estimated_once_iff_next_opened 100000 false ⟨fun _ => 2, 0⟩ twoRounds
    twoRounds_orderly (staySmall_of_few twoRounds_orderly (by decide))
  refine ⟨s, hrun, (h 1 ?_).mpr ?_⟩
  · rw [hacks, hps]
    exact ⟨⟨(100, 1000), by decide, (150, 1000), by decide, by decide⟩, by decide +kernel⟩
  · rw [hacks, hps]
    exact ⟨2, ⟨⟨⟨2, 1, 1, 1000⟩, by decide, rfl⟩, ⟨⟨4, 2, 160, 1000⟩, by decide, rfl⟩, by decide,
      by decide⟩, (300, 4), by decide, by decide⟩

/-- Three packets are acknowledged, the next round's only packet is lost, and a packet of the
round after that is acknowledged. -/
def lostRound : List Event :=
  [.ack 1 1, .sent 1 2 1000, .sent 2 3 1000, .sent 3 4 1000, .ack 100 2, .ack 150 3,
    .sent 160 5 1000, .ack 300 4, .sent 310 6 1000, .ack 500 6]

/-- The first cluster is never estimated. -/
theorem estimate_lost_with_next_cluster :
    Orderly lostRound ∧
    acksOf (.new 100000 false ⟨fun _ => 2, 0⟩) lostRound =
      [(100, 2), (150, 3), (300, 4), (500, 6)] ∧
    epochOf (.new 100000 false ⟨fun _ => 2, 0⟩) lostRound =
      [⟨2, 1, 1, 1000⟩, ⟨3, 1, 2, 1000⟩, ⟨4, 1, 3, 1000⟩, ⟨5, 2, 160, 1000⟩, ⟨6, 3, 310, 1000⟩] ∧
    Estimable (acksOf (.new 100000 false ⟨fun _ => 2, 0⟩) lostRound)
      (epochOf (.new 100000 false ⟨fun _ => 2, 0⟩) lostRound) 1 ∧
    ((tryRun step (.new 100000 false ⟨fun _ => 2, 0⟩) lostRound).map fun s => s.estimates.length) =
      some 0 := by
  have hacks : acksOf (.new 100000 false ⟨fun _ => 2, 0⟩) lostRound =
      [(100, 2), (150, 3), (300, 4), (500, 6)] := by decide +kernel
  have hps : epochOf (.new 100000 false ⟨fun _ => 2, 0⟩) lostRound =
      [⟨2, 1, 1, 1000⟩, ⟨3, 1, 2, 1000⟩, ⟨4, 1, 3, 1000⟩, ⟨5, 2, 160, 1000⟩, ⟨6, 3, 310, 1000⟩] := by
    decide +kernel
  refine ⟨⟨⟨2, by decide⟩, by decide, by decide⟩, hacks, hps, ?_, by decide +kernel⟩
  rw [hacks, hps]
  exact ⟨⟨(100, 1000), by decide, (150, 1000), by decide, by decide⟩, by decide +kernel⟩

end CongestionResponse.ClusterBbr
