import Mathlib.Data.List.Perm.Subperm
import CongestionResponse.ClusterBbr.Tally

/-! The clusters and the estimates of `MyBbrSender`, against the history of its run.

`acksOf` lists the acknowledgements of a run that are for packets sent in some cluster.
The invariant `History` says that every live cluster has counted exactly those of its own
packets, and that every estimate was made of a cluster whose packets are all behind: the
counts it was made of are final. -/
namespace CongestionResponse.ClusterBbr
open Lib Quic ClusterGraph

/-! ### The history of a run -/

/-- The times of the calls, in order. -/
def times (es : List Event) : List Int :=
  es.filterMap fun
    | .sent t _ _ => some t
    | .ack t _ => some t
    | .period _ => none

/-- What the connection does: it numbers its packets consecutively, and its clock starts after
zero and does not go back. -/
structure Orderly (es : List Event) : Prop where
  consecutive : ∃ n, sentNumbers es = List.range' n (sentNumbers es).length
  positive : ∀ t ∈ times es, 0 < t
  monotone : (times es).Pairwise (· ≤ ·)

theorem times_append (a b : List Event) : times (a ++ b) = times a ++ times b :=
  List.filterMap_append

theorem Orderly.init {es : List Event} {e : Event} (h : Orderly (es ++ [e])) : Orderly es := by
  have htimes := h.monotone
  rw [times_append, List.pairwise_append] at htimes
  refine ⟨?_, fun t ht => h.positive t ?_, htimes.1⟩
  · obtain ⟨n, hn⟩ := h.consecutive
    refine ⟨n, ?_⟩
    rw [sentNumbers_append, List.length_append, ← List.range'_append_1] at hn
    exact (List.append_inj hn (by simp)).1
  · rw [times_append]
    exact List.mem_append_left _ ht

theorem Orderly.admissible {es : List Event} (h : Orderly es) : Admissible es where
  increasing := by
    obtain ⟨n, hn⟩ := h.consecutive
    rw [hn]
    exact List.pairwise_lt_range'
  nonzero := by
    intro t p hmem
    have := h.positive t (List.mem_filterMap.mpr ⟨_, hmem, rfl⟩)
    omega

/-- A packet has the number after the last one. -/
theorem Orderly.next {es : List Event} {t : Int} {p bytes q : Nat}
    (h : Orderly (es ++ [.sent t p bytes])) (hq : (sentNumbers es).getLast? = some q) :
    p = q + 1 := by
  obtain ⟨n, hn⟩ := h.consecutive
  obtain ⟨init, hinit⟩ := List.getLast?_eq_some_iff.mp hq
  rw [sentNumbers_append, hinit] at hn
  have hlast : (init ++ [q] ++ sentNumbers [.sent t p bytes]).length = init.length + 2 := by
    simp [sentNumbers]
  rw [hlast, List.range'_concat, List.range'_concat] at hn
  have hp := (List.append_inj' hn rfl).2
  have hq' := (List.append_inj' (List.append_inj' hn rfl).1 rfl).2
  simp [sentNumbers] at hp hq'
  omega

/-- An acknowledgement that is accepted, of a packet sent in some cluster. -/
def recordedAck (s : MyBbrSender) : Event → List (Int × Nat)
  | .ack t p =>
    if s.lastAckSeq < p ∧ (s.graph.seqRoundMap.find? p).isSome then [(t, p)] else []
  | _ => []

/-- Those of a run, with their times. -/
def acksOf (s : MyBbrSender) (es : List Event) : List (Int × Nat) :=
  trace (attempt step) (fun state e => state.elim [] fun s => recordedAck s e) (some s) es

theorem acksOf_concat {s s' : MyBbrSender} {es : List Event} (h : tryRun step s es = some s')
    (e : Event) : acksOf s (es ++ [e]) = acksOf s es ++ recordedAck s' e := by
  have hrun : run (attempt step) (some s) es = some s' := h
  rw [acksOf, trace_concat, hrun]
  rfl

/-! ### The invariant -/

/-- What holds of a live cluster after the events `es`, among them the acknowledgements
`acks`. -/
structure Kept (es : List Event) (acks : List (Int × Nat)) (s : MyBbrSender) (c : SentClusterInfo) :
    Prop where
  tallied : c.Tallied acks
  consecutive : c.Consecutive
  sent : ∀ p ∈ c.numbers, p ∈ sentNumbers es
  current : c.clusterId = s.control.roundTripCount → c.numbers.getLast? = (sentNumbers es).getLast?
  awaited : ∀ p ∈ c.numbers, s.lastAckSeq < p → s.graph.seqRoundMap.find? p = some c.clusterId
  recorded : ∀ p, s.graph.seqRoundMap.find? p = some c.clusterId → p ∈ c.numbers

/-- What holds of an estimate: it was made of counts that are final. -/
structure Final (acks : List (Int × Nat)) (s : MyBbrSender) (e : Estimate) : Prop where
  tallied : e.info.Tallied acks
  behind : ∀ p ∈ e.info.numbers, p ≤ s.lastAckSeq
  spans : e.info.lacksSpan = false
  ackedBw : e.ackedBw = e.info.ackRate

structure History (es : List Event) (acks : List (Int × Nat)) (s : MyBbrSender) : Prop where
  sound : Sound es s
  idle : s.control.mode ≠ .probeBw → s.graph.heap.contents = []
  kept : ∀ x ∈ s.graph.heap.contents, Kept es acks s x.2
  current : ∀ p, s.graph.seqRoundMap.find? p = some s.control.roundTripCount →
    ∃ x ∈ s.graph.heap.contents, x.2.clusterId = s.control.roundTripCount
  acksSent : ∀ ack ∈ acks, ack.2 ∈ sentNumbers es
  acksTimes : (acks.map Prod.fst).Sublist (times es)
  estimates : ∀ e ∈ s.estimates, Final acks s e

/-- No cluster has more packets than 32 bits tell apart. -/
def SmallClusters (s : MyBbrSender) : Prop :=
  ∀ x ∈ s.graph.heap.contents, x.2.packetInfos.length ≤ 2 ^ 32

theorem history_new (minBps : Nat) (hasObserver : Bool) (random : MyQuicRandom) :
    History [] [] (.new minBps hasObserver random) where
  sound := ⟨ClusterGraph.coherent_new, fun k hk => by cases hk⟩
  idle := fun _ => rfl
  kept := fun x hx => by cases hx
  current := fun p hp => by cases hp
  acksSent := fun ack hack => by cases hack
  acksTimes := List.Sublist.refl _
  estimates := fun e he => by cases he

section Sent
variable {es : List Event} {acks : List (Int × Nat)} {s s' : MyBbrSender} {t : Int} {p bytes : Nat}

/-- The packet joins the cluster of its round, which holds the packet sent last. -/
theorem Kept.sent_in {c : SentClusterInfo} (h : Kept es acks s c)
    (hes : Orderly (es ++ [.sent t p bytes])) (hacks : ∀ ack ∈ acks, ack.2 ∈ sentNumbers es)
    (hlast : s'.lastAckSeq = s.lastAckSeq) (hround : c.clusterId = s.control.roundTripCount)
    (hseq : s'.graph.seqRoundMap = s.graph.seqRoundMap.insert p s.control.roundTripCount)
    (hkeys : p ∉ s.graph.seqRoundMap.keys) :
    Kept (es ++ [.sent t p bytes]) acks s' (c.onPacketSent t p bytes) := by
  have habove := hes.admissible.above
  have hsent : sentNumbers (es ++ [.sent t p bytes]) = sentNumbers es ++ [p] :=
    sentNumbers_append _ _
  constructor
  case tallied =>
    exact h.tallied.sent (fun ack hack => Nat.ne_of_lt (habove _ (hacks ack hack))) t bytes
  case consecutive =>
    refine SentClusterInfo.consecutive_onPacketSent h.consecutive (fun q hq => ?_) t bytes
    exact hes.next (by rw [← h.current hround]; exact hq)
  case sent =>
    intro q hq
    rw [SentClusterInfo.numbers_onPacketSent, List.mem_append] at hq
    rw [hsent, List.mem_append]
    exact hq.imp (h.sent q) id
  case current =>
    intro _
    rw [SentClusterInfo.numbers_onPacketSent, hsent, List.getLast?_concat, List.getLast?_concat]
  case awaited =>
    intro q hq hlt
    rw [SentClusterInfo.numbers_onPacketSent, List.mem_append, List.mem_singleton] at hq
    rw [hseq]
    by_cases hqp : q = p
    · rw [hqp, OrderedMap.find?_insert_self _ _ hkeys, ← hround]
      rfl
    · rw [OrderedMap.find?_insert_of_ne _ _ hqp]
      exact h.awaited q (hq.resolve_right hqp) (by rwa [hlast] at hlt)
  case recorded =>
    intro q hq
    rw [SentClusterInfo.numbers_onPacketSent, List.mem_append, List.mem_singleton]
    rw [hseq] at hq
    by_cases hqp : q = p
    · exact .inr hqp
    · rw [OrderedMap.find?_insert_of_ne _ _ hqp] at hq
      exact .inl (h.recorded q hq)

/-- The packet is sent in another cluster. -/
theorem Kept.sent_elsewhere {c : SentClusterInfo} (h : Kept es acks s c)
    (hes : Orderly (es ++ [.sent t p bytes])) (hcontrol : s'.control = s.control)
    (hlast : s'.lastAckSeq = s.lastAckSeq) (hround : c.clusterId ≠ s.control.roundTripCount)
    (hseq : s'.graph.seqRoundMap = s.graph.seqRoundMap.insert p s.control.roundTripCount)
    (hkeys : p ∉ s.graph.seqRoundMap.keys) : Kept (es ++ [.sent t p bytes]) acks s' c := by
  have habove := hes.admissible.above
  refine
    { tallied := h.tallied
      consecutive := h.consecutive
      sent := fun q hq => mem_sentNumbers_concat (h.sent q hq) _
      current := fun hcurrent => absurd (hcontrol ▸ hcurrent) hround
      awaited := ?_
      recorded := ?_ }
  · intro q hq hlt
    rw [hseq, OrderedMap.find?_insert_of_ne _ _ (Nat.ne_of_lt (habove q (h.sent q hq)))]
    exact h.awaited q hq (by rwa [hlast] at hlt)
  · intro q hq
    rw [hseq] at hq
    by_cases hqp : q = p
    · rw [hqp, OrderedMap.find?_insert_self _ _ hkeys] at hq
      exact absurd (Option.some.inj hq).symm hround
    · rw [OrderedMap.find?_insert_of_ne _ _ hqp] at hq
      exact h.recorded q hq

/-- The packet starts a cluster. -/
theorem kept_new (h : History es acks s) (hes : Orderly (es ++ [.sent t p bytes]))
    (hnone : ∀ x ∈ s.graph.heap.contents, x.2.clusterId ≠ s.control.roundTripCount)
    (hseq : s'.graph.seqRoundMap = s.graph.seqRoundMap.insert p s.control.roundTripCount)
    (hkeys : p ∉ s.graph.seqRoundMap.keys) (isProbe : Bool) :
    Kept (es ++ [.sent t p bytes]) acks s'
      ((SentClusterInfo.new s.control.roundTripCount isProbe).onPacketSent t p bytes) := by
  have habove := hes.admissible.above
  have hsent : sentNumbers (es ++ [.sent t p bytes]) = sentNumbers es ++ [p] :=
    sentNumbers_append _ _
  have hnumbers : ((SentClusterInfo.new s.control.roundTripCount isProbe).onPacketSent t p
      bytes).numbers = [p] := rfl
  constructor
  case tallied =>
    exact (SentClusterInfo.tallied_new _ _ _).sent
      (fun ack hack => Nat.ne_of_lt (habove _ (h.acksSent ack hack))) t bytes
  case consecutive => exact ⟨p, rfl⟩
  case sent =>
    intro q hq
    rw [hsent]
    exact List.mem_append_right _ (hnumbers ▸ hq)
  case current =>
    intro _
    rw [hnumbers, hsent, List.getLast?_concat]
    rfl
  case awaited =>
    intro q hq _
    rw [hnumbers, List.mem_singleton] at hq
    rw [hq, hseq, OrderedMap.find?_insert_self _ _ hkeys]
    rfl
  case recorded =>
    intro q hq
    rw [hnumbers, List.mem_singleton]
    by_contra hqp
    -- An older packet of this round would be in a cluster of this round.
    rw [hseq, OrderedMap.find?_insert_of_ne _ _ hqp] at hq
    obtain ⟨x, hx, hround⟩ := h.current q hq
    exact hnone x hx hround

/-- A packet sent in `PROBE_BW` keeps what holds of the clusters, and is in one of them. -/
theorem History.kept_sends (h : History es acks s) (hes : Orderly (es ++ [.sent t p bytes]))
    (hsend : s.SendStep t p bytes s') (hmode : s.control.mode = .probeBw)
    (hkeys : p ∉ s.graph.seqRoundMap.keys) :
    (∀ x ∈ s'.graph.heap.contents, Kept (es ++ [.sent t p bytes]) acks s' x.2) ∧
      ∃ x ∈ s'.graph.heap.contents, x.2.clusterId = s.control.roundTripCount := by
  obtain ⟨hseq, -, hsends⟩ := hsend.probing hmode
  rcases hsends with ⟨a, c, hc, hround, hcontents⟩ | ⟨hnone, hcontents⟩
  · have hmem : ∀ x, x ∈ s'.graph.heap.contents ↔ x = (a, c.onPacketSent t p bytes) ∨
        x ∈ s.graph.heap.contents ∧ x.1 ≠ a := by
      intro x
      rw [hcontents, Heap.mem_mapAt hc]
    refine ⟨fun x hx => ?_, _, (hmem _).mpr (.inl rfl), hround⟩
    rcases (hmem x).mp hx with rfl | ⟨hx, hne⟩
    · exact (h.kept _ hc).sent_in hes h.acksSent hsend.lastAckSeq hround hseq hkeys
    · refine (h.kept x hx).sent_elsewhere hes hsend.control hsend.lastAckSeq ?_ hseq hkeys
      exact fun hid => hne (h.sound.coherent.toLinked.clusterId_inj hx hc (hid.trans hround.symm))
  · rw [hcontents]
    refine ⟨fun x hx => ?_, _, List.mem_append_right _ (List.mem_singleton_self _), rfl⟩
    rcases List.mem_append.mp hx with hx | hx
    · exact (h.kept x hx).sent_elsewhere hes hsend.control hsend.lastAckSeq (hnone x hx) hseq hkeys
    · rw [List.mem_singleton.mp hx]
      exact kept_new h hes hnone hseq hkeys _

theorem History.sent (h : History es acks s) (hes : Orderly (es ++ [.sent t p bytes])) :
    ∃ s', step s (.sent t p bytes) = some s' ∧ s.SendStep t p bytes s' ∧
      History (es ++ [.sent t p bytes]) acks s' := by
  obtain ⟨s', hstep, hsend, hsound⟩ := sound_sent h.sound hes.admissible
  have hkeys : p ∉ s.graph.seqRoundMap.keys := fun hp =>
    Nat.lt_irrefl p (hes.admissible.above p (h.sound.recorded p hp))
  have hacksSent : ∀ ack ∈ acks, ack.2 ∈ sentNumbers (es ++ [.sent t p bytes]) :=
    fun ack hack => mem_sentNumbers_concat (h.acksSent ack hack) _
  have hacksTimes : (acks.map Prod.fst).Sublist (times (es ++ [.sent t p bytes])) := by
    rw [times_append]
    exact h.acksTimes.trans (List.sublist_append_left _ _)
  have hestimates : ∀ e ∈ s'.estimates, Final acks s' e := by
    intro e he
    rw [hsend.estimates] at he
    have hfinal := h.estimates e he
    exact {hfinal with behind := by rw [hsend.lastAckSeq]; exact hfinal.behind}
  refine ⟨s', hstep, hsend, ?_⟩
  by_cases hmode : s.control.mode = .probeBw
  · obtain ⟨hkept, hcurrent⟩ := h.kept_sends hes hsend hmode hkeys
    refine ⟨hsound, fun hne => absurd (hsend.control ▸ hmode) hne, hkept, fun _ _ => ?_, hacksSent,
      hacksTimes, hestimates⟩
    rw [hsend.control]
    exact hcurrent
  · have hgraph := hsend.idle hmode
    have hempty := h.idle hmode
    refine ⟨hsound, fun _ => by rw [hgraph]; exact hempty, ?_, ?_, hacksSent, hacksTimes, hestimates⟩
    · intro x hx
      rw [hgraph, hempty] at hx
      cases hx
    · rw [hgraph, hsend.control]
      exact h.current

end Sent

section Acknowledged
variable {es : List Event} {acks : List (Int × Nat)} {s s' : MyBbrSender} {t : Int} {p : Nat}
  {g₀ g₁ : ClusterGraph} {report : Option Estimate}

/-- What holds of a cluster besides its counts, after an acknowledgement that does not enter
`PROBE_RTT`. -/
theorem Kept.ack {acks' : List (Int × Nat)} {c c' : SentClusterInfo} (h : Kept es acks s c)
    (hstep : s.AckStep t p s' g₀ g₁ report) (hp : s.lastAckSeq < p) (hkept : ¬s.entersProbeRtt t p)
    (hle : c.clusterId ≤ s.control.roundTripCount) (htallied : c'.Tallied acks')
    (hsame : c.SameSends c') : Kept (es ++ [.ack t p]) acks' s' c' := by
  have hsent : sentNumbers (es ++ [.ack t p]) = sentNumbers es := by
    rw [sentNumbers_append]
    exact List.append_nil _
  have hnumbers := hsame.numbers
  have hid := hsame.clusterId
  have hseq : s'.graph.seqRoundMap = s.graph.seqRoundMap.erase p := by
    rw [hstep.seqRoundMap, hstep.kept hkept]
  refine
    { tallied := htallied
      consecutive := hsame.consecutive h.consecutive
      sent := by rw [hnumbers, hsent]; exact h.sent
      current := ?_
      awaited := ?_
      recorded := ?_ }
  · intro hcurrent
    have hrounds := hstep.rounds hkept
    rw [hnumbers, hsent]
    exact h.current (by omega)
  · intro q hq hlt
    rw [hstep.lastAckSeq] at hlt
    rw [hseq, OrderedMap.find?_erase_of_ne _ (Nat.ne_of_gt hlt), hid]
    exact h.awaited q (hnumbers ▸ hq) (hp.trans hlt)
  · intro q hq
    rw [hnumbers]
    rw [hseq, hid] at hq
    by_cases hqp : q = p
    · rw [hqp, OrderedMap.find?_erase_self] at hq
      cases hq
    · rw [OrderedMap.find?_erase_of_ne _ hqp] at hq
      exact h.recorded q hq

theorem recordedAck_of_lt (hp : s.lastAckSeq < p) (t : Int) : recordedAck s (.ack t p) =
    if (s.graph.seqRoundMap.find? p).isSome then [(t, p)] else [] := by
  simp [recordedAck, hp]

theorem SentClusterInfo.Tallied.skips {c : SentClusterInfo} (h : c.Tallied acks) (hp : p ∉ c.numbers)
    (hlt : s.lastAckSeq < p) (t : Int) : c.Tallied (acks ++ recordedAck s (.ack t p)) := by
  rw [recordedAck_of_lt hlt]
  split
  · exact h.skip hp
  · rw [List.append_nil]
    exact h

theorem History.acks_ne_zero (h : History es acks s) (hes : Orderly es) :
    ∀ ack ∈ acks, ack.1 ≠ 0 := by
  intro ack hack
  have := hes.positive _ (h.acksTimes.subset (List.mem_map_of_mem hack))
  omega

/-- A packet that is still to be acknowledged is in the cluster of its round only. -/
theorem Kept.notMem {c : SentClusterInfo} (h : Kept es acks s c) (hp : s.lastAckSeq < p)
    (hround : s.graph.seqRoundMap.find? p ≠ some c.clusterId) : p ∉ c.numbers :=
  fun hmem => hround (h.awaited p hmem hp)

/-- A cluster counts the acknowledgement if it is for one of its packets. -/
theorem Kept.counts {c c' : SentClusterInfo} (h : Kept es acks s c)
    (hfew : c.packetInfos.length ≤ 2 ^ 32) (hacks : ∀ ack ∈ acks, ack.1 ≠ 0)
    (hp : s.lastAckSeq < p) (hfrom : ComesFrom s.graph p t c c') :
    c'.Tallied (acks ++ recordedAck s (.ack t p)) := by
  rcases hfrom with ⟨hround, bw, rfl⟩ | ⟨hround, hrecords⟩
  · have hskips := h.tallied.skips (h.notMem hp hround) hp t
    exact ⟨hskips.bytes, hskips.first, hskips.last⟩
  · rw [recordedAck_of_lt hp, hround, Option.isSome_some, if_pos rfl]
    have hmem := h.recorded p hround
    rcases hrecords with ⟨hfirst, hack⟩ | ⟨hfirst, hack⟩
    · exact h.tallied.again hacks ⟨h.consecutive, hfew⟩ hmem hfirst hack
    · exact h.tallied.opened hacks ⟨h.consecutive, hfew⟩ hmem hfirst hack

/-- An estimate that was made is not touched by later acknowledgements. -/
theorem Final.ack {e : Estimate} (h : Final acks s e) (hp : s.lastAckSeq < p)
    (hlast : s'.lastAckSeq = p) : Final (acks ++ recordedAck s (.ack t p)) s' e where
  tallied := h.tallied.skips (fun hmem => Nat.not_le.mpr hp (h.behind p hmem)) hp t
  behind := fun q hq => by
    rw [hlast]
    exact (h.behind q hq).trans (Nat.le_of_lt hp)
  spans := h.spans
  ackedBw := h.ackedBw

/-- Packets of an older cluster have smaller numbers. -/
theorem History.behind (h : History es acks s) (hp : s.lastAckSeq < p) {c d : SentClusterInfo}
    {a : Nat} (hd : (a, d) ∈ s.graph.heap.contents)
    (hround : s.graph.seqRoundMap.find? p = some c.clusterId) (hlt : d.clusterId < c.clusterId) :
    ∀ q ∈ d.numbers, q ≤ p := by
  intro q hq
  by_contra hgt
  have hround' := (h.kept _ hd).awaited q hq (hp.trans (Nat.lt_of_not_le hgt))
  have hpairs := s.graph.seqRoundMap.sorted.and h.sound.coherent.seqRound_mono
  rcases pairwise_cases hpairs (OrderedMap.find?_eq_some.mp hround)
    (OrderedMap.find?_eq_some.mp hround') with heq | hpq | hqp
  · exact hgt (Nat.le_of_eq (Prod.mk.inj heq).1.symm)
  · exact absurd hpq.2 (Nat.not_le.mpr hlt)
  · exact hgt (Nat.le_of_lt hqp.1)

/-- The estimate an acknowledgement has made is of final counts. -/
theorem History.final (h : History es acks s) (hp : s.lastAckSeq < p) (hlast : s'.lastAckSeq = p)
    {e : Estimate} {contents : List (Nat × SentClusterInfo)} {acked : List Nat}
    (hacks : Acks s.graph p t contents acked (some e)) :
    Final (acks ++ recordedAck s (.ack t p)) s' e := by
  obtain ⟨a, c, d, hc, hround, -, hd, hlt, -, hspan, hinfo, hackedBw⟩ := hacks.reported
  have hid : d.clusterId < c.clusterId := (h.sound.coherent.toLinked.clusterId_lt_iff hd hc).mpr hlt
  have hother : s.graph.seqRoundMap.find? p ≠ some d.clusterId := by
    rw [hround]
    exact fun heq => Nat.ne_of_gt hid (Option.some.inj heq)
  have htallied := (h.kept _ hd).tallied.skips ((h.kept _ hd).notMem hp hother) hp t
  have hbehind := h.behind hp hd hround hid
  refine ⟨?_, ?_, ?_, hackedBw⟩
  · rw [hinfo]
    exact ⟨htallied.bytes, htallied.first, htallied.last⟩
  · rw [hinfo, hlast]
    exact hbehind
  · rw [hinfo]
    exact hspan

/-- On the way into `PROBE_RTT` the clusters are gone before the acknowledgement is credited. -/
theorem MyBbrSender.AckStep.nothing_left (hack : s.AckStep t p s' g₀ g₁ report)
    (henters : s.entersProbeRtt t p) :
    s'.graph.heap.contents = [] ∧ (∀ q, s'.graph.seqRoundMap.find? q = none) ∧ report = none := by
  obtain ⟨hempty, hseq, -⟩ := hack.cleared henters
  refine ⟨?_, ?_, ?_⟩
  · rw [List.eq_nil_iff_forall_not_mem]
    intro x hx
    obtain ⟨c, hc, -⟩ := hack.coherent₀.toLinked.origin hack.acks (hack.trimmed x hx)
    rw [hempty] at hc
    cases hc
  · intro q
    rw [hack.seqRoundMap, hseq]
    rfl
  · cases hreport : report with
    | none => rfl
    | some e =>
      have hacks := hack.acks
      rw [hreport] at hacks
      obtain ⟨a, c, d, hc, -⟩ := hacks.reported
      rw [hempty] at hc
      cases hc

/-- The cluster of the current round is not among those removed at the end. -/
theorem MyBbrSender.AckStep.current_stays (hack : s.AckStep t p s' g₀ g₁ report)
    {x : Nat × SentClusterInfo} (hx : x ∈ g₁.heap.contents)
    (hround : x.2.clusterId = s'.control.roundTripCount) : x ∈ s'.graph.heap.contents := by
  rcases hack.gone x hx with hx' | ⟨y, hy, -, hlt⟩
  · exact hx'
  · have hmax := hack.coherent.clusterId_le y hy
    omega

/-- What is recorded of an acknowledgement is of a packet that was sent. -/
theorem History.acksSent_ack (h : History es acks s) (hp : s.lastAckSeq < p) :
    ∀ ack ∈ acks ++ recordedAck s (.ack t p), ack.2 ∈ sentNumbers (es ++ [.ack t p]) := by
  intro ack hmem
  apply mem_sentNumbers_concat
  rcases List.mem_append.mp hmem with hmem | hmem
  · exact h.acksSent ack hmem
  · rw [recordedAck_of_lt hp] at hmem
    split at hmem
    · rename_i hsome
      obtain ⟨r, hr⟩ := Option.isSome_iff_exists.mp hsome
      rw [List.mem_singleton.mp hmem]
      exact h.sound.recorded p (OrderedMap.mem_keys.mpr ⟨r, hr⟩)
    · cases hmem

theorem History.acksTimes_ack (h : History es acks s) (hp : s.lastAckSeq < p) :
    ((acks ++ recordedAck s (.ack t p)).map Prod.fst).Sublist (times (es ++ [.ack t p])) := by
  rw [List.map_append, times_append]
  refine h.acksTimes.append ?_
  rw [recordedAck_of_lt hp]
  split
  · exact List.Sublist.refl _
  · exact List.nil_sublist _

theorem History.estimates_ack (h : History es acks s) (hack : s.AckStep t p s' g₀ g₁ report)
    (hp : s.lastAckSeq < p) :
    ∀ e ∈ s'.estimates, Final (acks ++ recordedAck s (.ack t p)) s' e := by
  intro e he
  rw [hack.estimates, List.mem_append, Option.mem_toList] at he
  rcases he with he | he
  · exact (h.estimates e he).ack hp hack.lastAckSeq
  · by_cases henters : s.entersProbeRtt t p
    · rw [(hack.nothing_left henters).2.2] at he
      cases he
    · have hacks := hack.acks
      rw [hack.kept henters, Option.mem_def.mp he] at hacks
      exact h.final hp hack.lastAckSeq hacks

/-- Outside `PROBE_BW` there is still no cluster. -/
theorem History.idle_ack (h : History es acks s) (hack : s.AckStep t p s' s.graph g₁ report)
    (henters : ¬s.entersProbeRtt t p) (hmode : s'.control.mode ≠ .probeBw) :
    s'.graph.heap.contents = [] := by
  have hprobeRtt : s.control.mode = .probeRtt := by
    by_contra hne
    exact hmode (hack.probing henters hne)
  have hempty := h.idle (by rw [hprobeRtt]; decide)
  rw [List.eq_nil_iff_forall_not_mem]
  intro x hx
  obtain ⟨c, hc, -⟩ := hack.coherent₀.toLinked.origin hack.acks (hack.trimmed x hx)
  rw [hempty] at hc
  cases hc

/-- If a packet of the current round is awaited still, so was one before, and its cluster
stays. -/
theorem History.current_ack (h : History es acks s) (hack : s.AckStep t p s' s.graph g₁ report)
    (henters : ¬s.entersProbeRtt t p) {q : Nat}
    (hq : s'.graph.seqRoundMap.find? q = some s'.control.roundTripCount) :
    ∃ x ∈ s'.graph.heap.contents, x.2.clusterId = s'.control.roundTripCount := by
  have hqp : q ≠ p := by
    intro heq
    rw [heq, hack.seqRoundMap, OrderedMap.find?_erase_self] at hq
    cases hq
  rw [hack.seqRoundMap, OrderedMap.find?_erase_of_ne _ hqp] at hq
  -- No packet is of a later round than the current one.
  have hround : s'.control.roundTripCount = s.control.roundTripCount := by
    have hle := h.sound.coherent.seqRound_le _ (OrderedMap.find?_eq_some.mp hq)
    have := hack.rounds henters
    simp only at hle
    omega
  obtain ⟨x, hx, hid⟩ := h.current q (by rw [← hround]; exact hq)
  obtain ⟨c, hc, hfrom⟩ := hack.coherent₀.toLinked.survives hack.acks hx
  have hid' : c.clusterId = s'.control.roundTripCount := by
    rw [hfrom.sameSends.clusterId, hid, hround]
  exact ⟨_, hack.current_stays hc hid', hid'⟩

theorem History.ack (h : History es acks s) (hes : Orderly (es ++ [.ack t p])) (hs : SmallClusters s)
    (hp : s.lastAckSeq < p) :
    ∃ s' g₀ g₁ report, step s (.ack t p) = some s' ∧ s.AckStep t p s' g₀ g₁ report ∧
      History (es ++ [.ack t p]) (acks ++ recordedAck s (.ack t p)) s' := by
  obtain ⟨s', g₀, g₁, report, hstep, hack, hsound⟩ := sound_ack h.sound hes.admissible hp
  refine ⟨s', g₀, g₁, report, hstep, hack, ?_⟩
  have hestimates := h.estimates_ack hack hp
  by_cases henters : s.entersProbeRtt t p
  · obtain ⟨hempty, hnone, -⟩ := hack.nothing_left henters
    refine ⟨hsound, fun _ => hempty, ?_, ?_, h.acksSent_ack hp, h.acksTimes_ack hp, hestimates⟩
    · intro x hx
      rw [hempty] at hx
      cases hx
    · intro q hq
      rw [hnone] at hq
      cases hq
  · obtain rfl := hack.kept henters
    refine ⟨hsound, h.idle_ack hack henters, ?_, fun q => h.current_ack hack henters,
      h.acksSent_ack hp, h.acksTimes_ack hp, hestimates⟩
    intro x hx
    obtain ⟨c, hc, hfrom⟩ := hack.coherent₀.toLinked.origin hack.acks (hack.trimmed x hx)
    exact (h.kept _ hc).ack hack hp henters (h.sound.coherent.clusterId_le _ hc)
      ((h.kept _ hc).counts (hs _ hc) (h.acks_ne_zero hes.init) hp hfrom) hfrom.sameSends

end Acknowledged

/-- An event that sends nothing and changes nothing the history speaks about. -/
theorem History.skip {es : List Event} {acks : List (Int × Nat)} {s s' : MyBbrSender}
    (h : History es acks s) {e : Event} (hsent : sentNumbers [e] = []) (hgraph : s'.graph = s.graph)
    (hlast : s'.lastAckSeq = s.lastAckSeq) (hmode : s'.control.mode = s.control.mode)
    (hround : s'.control.roundTripCount = s.control.roundTripCount)
    (hestimates : s'.estimates = s.estimates) : History (es ++ [e]) acks s' := by
  have hsame : sentNumbers (es ++ [e]) = sentNumbers es := by
    rw [sentNumbers_append, hsent, List.append_nil]
  constructor
  case sound =>
    refine ⟨?_, ?_⟩
    · unfold MyBbrSender.Coherent
      rw [hgraph, hround, hlast]
      exact h.sound.coherent
    · rw [hgraph, hsame]
      exact h.sound.recorded
  case idle =>
    rw [hmode, hgraph]
    exact h.idle
  case kept =>
    rw [hgraph]
    intro x hx
    have hkept := h.kept x hx
    exact
      { tallied := hkept.tallied
        consecutive := hkept.consecutive
        sent := by rw [hsame]; exact hkept.sent
        current := by rw [hsame, hround]; exact hkept.current
        awaited := by rw [hlast, hgraph]; exact hkept.awaited
        recorded := by rw [hgraph]; exact hkept.recorded }
  case current =>
    rw [hgraph, hround]
    exact h.current
  case acksSent =>
    rw [hsame]
    exact h.acksSent
  case acksTimes =>
    rw [times_append]
    exact h.acksTimes.trans (List.sublist_append_left _ _)
  case estimates =>
    rw [hestimates]
    intro e he
    have hfinal := h.estimates e he
    exact {hfinal with behind := by rw [hlast]; exact hfinal.behind}

theorem History.step {es : List Event} {acks : List (Int × Nat)} {s : MyBbrSender} {e : Event}
    (h : History es acks s) (hes : Orderly (es ++ [e])) (hs : SmallClusters s) :
    ∃ s', step s e = some s' ∧ History (es ++ [e]) (acks ++ recordedAck s e) s' := by
  cases e with
  | sent t p bytes =>
    obtain ⟨s', hstep, -, h'⟩ := h.sent hes
    exact ⟨s', hstep, by simpa only [recordedAck, List.append_nil] using h'⟩
  | period ms =>
    refine ⟨_, rfl, ?_⟩
    simp only [recordedAck, List.append_nil]
    exact h.skip rfl rfl rfl rfl rfl rfl
  | ack t p =>
    by_cases hp : s.lastAckSeq < p
    · obtain ⟨s', -, -, -, hstep, -, h'⟩ := h.ack hes hs hp
      exact ⟨s', hstep, h'⟩
    · refine ⟨s, ?_, ?_⟩
      · simp only [ClusterBbr.step, MyBbrSender.onAck, Nat.le_of_not_lt hp, if_true]
      · simp only [recordedAck, hp, false_and, if_false, List.append_nil]
        exact h.skip rfl rfl rfl rfl rfl rfl

/-! ### Whole runs -/

/-- No cluster gets too many packets in the run. -/
def StaySmall (s₀ : MyBbrSender) (es : List Event) : Prop :=
  ∀ past s, past <+: es → tryRun step s₀ past = some s → SmallClusters s

theorem StaySmall.init {s₀ : MyBbrSender} {es : List Event} {e : Event}
    (h : StaySmall s₀ (es ++ [e])) : StaySmall s₀ es :=
  fun past s hpast => h past s (hpast.trans (List.prefix_append _ _))

theorem StaySmall.here {s₀ s : MyBbrSender} {es : List Event} {e : Event}
    (h : StaySmall s₀ (es ++ [e])) (hrun : tryRun step s₀ es = some s) : SmallClusters s :=
  h es s (List.prefix_append _ _) hrun

/-- **Every orderly run has its history.** -/
theorem history_run (minBps : Nat) (hasObserver : Bool) (random : MyQuicRandom) (es : List Event)
    (hes : Orderly es) (hsmall : StaySmall (.new minBps hasObserver random) es) :
    ∃ s, tryRun step (.new minBps hasObserver random) es = some s ∧
      History es (acksOf (.new minBps hasObserver random) es) s := by
  refine tryRun_history
    (A := fun es => Orderly es ∧ StaySmall (.new minBps hasObserver random) es)
    (P := fun es s => History es (acksOf (.new minBps hasObserver random) es) s)
    (fun _ _ h => ⟨h.1.init, h.2.init⟩) (history_new minBps hasObserver random) ?_ es
    ⟨hes, hsmall⟩
  intro es e s hes hrun h
  rw [acksOf_concat hrun]
  exact h.step hes.1 (hes.2.here hrun)

theorem sentNumbers_length_le {past es : List Event} (h : past <+: es) :
    (sentNumbers past).length ≤ (sentNumbers es).length :=
  (h.filterMap _).length_le

/-- The packets of a cluster are among those of the run. -/
theorem History.smallClusters {es : List Event} {acks : List (Int × Nat)} {s : MyBbrSender}
    (h : History es acks s) (hfew : (sentNumbers es).length ≤ 2 ^ 32) : SmallClusters s := by
  intro x hx
  have hkept := h.kept x hx
  have hle := (List.subperm_of_subset (SentClusterInfo.nodup_numbers hkept.consecutive)
    hkept.sent).length_le
  rw [SentClusterInfo.numbers, List.length_map] at hle
  exact hle.trans hfew

/-- In a run of at most 2^32 packets no cluster gets too many. -/
theorem staySmall_of_few {minBps : Nat} {hasObserver : Bool} {random : MyQuicRandom}
    {es : List Event} (hes : Orderly es) (hfew : (sentNumbers es).length ≤ 2 ^ 32) :
    StaySmall (.new minBps hasObserver random) es := by
  induction es using List.reverseRecOn with
  | nil =>
    intro past s hpast hrun
    obtain rfl := List.prefix_nil.mp hpast
    obtain rfl := Option.some.inj hrun
    exact (history_new minBps hasObserver random).smallClusters hfew
  | append_singleton es e ih =>
    have hinit := ih hes.init ((sentNumbers_length_le (List.prefix_append es [e])).trans hfew)
    intro past s hpast hrun
    rcases List.prefix_concat_iff.mp hpast with rfl | hpast
    · obtain ⟨s₁, hrun₁, h⟩ := history_run minBps hasObserver random es hes.init hinit
      obtain ⟨s', hstep, h'⟩ := h.step hes (hinit es s₁ (List.prefix_refl _) hrun₁)
      rw [tryRun_concat, hrun₁, Option.bind_some, hstep] at hrun
      obtain rfl := Option.some.inj hrun
      exact h'.smallClusters hfew
    · exact hinit past s hpast hrun

end CongestionResponse.ClusterBbr
