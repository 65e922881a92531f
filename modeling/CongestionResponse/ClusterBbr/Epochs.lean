import CongestionResponse.ClusterBbr.Estimates

/-! Which clusters are estimated.

An entry into `PROBE_RTT` deletes all clusters, so a cluster lives in the epoch between two
such entries. `epochOf` lists the packets of the current one with the ids of their clusters,
whether these are still live or not. A cluster is estimated by the first acknowledgement of
the cluster sent right after it, and by nothing else: `Judged` is that statement, and it
holds along every run. -/
namespace CongestionResponse.ClusterBbr
open Lib Quic ClusterGraph

/-! ### The packets of an epoch -/

/-- A packet that was sent in a cluster. -/
structure ClusterPacket where
  seq : Nat
  clusterId : Nat
  sentTs : Int
  len : Nat
deriving DecidableEq

/-- What an event does to the list of packets: a packet sent in `PROBE_BW` joins it, and an
entry into `PROBE_RTT` starts over. -/
def nextEpoch (s : MyBbrSender) (ps : List ClusterPacket) : Event → List ClusterPacket
  | .sent t p bytes =>
    if s.control.mode = .probeBw then ps ++ [⟨p, s.control.roundTripCount, t, bytes⟩] else ps
  | .ack t p => if s.lastAckSeq < p ∧ s.entersProbeRtt t p then [] else ps
  | .period _ => ps

/-- The packets sent in clusters since the last entry into `PROBE_RTT`. -/
def epochOf (s : MyBbrSender) (es : List Event) : List ClusterPacket :=
  record step nextEpoch s [] es

theorem epochOf_concat {s s' : MyBbrSender} {es : List Event} (h : tryRun step s es = some s')
    (e : Event) : epochOf s (es ++ [e]) = nextEpoch s' (epochOf s es) e :=
  record_concat nextEpoch [] h e

/-! ### The clusters of an epoch -/

section Clusters
variable (acks : List (Int × Nat)) (ps : List ClusterPacket) (k : Nat)

def packetsIn : List ClusterPacket := ps.filter fun q => decide (q.clusterId = k)

def numbersIn : List Nat := (packetsIn ps k).map ClusterPacket.seq

/-- The acknowledgements of the packets of a cluster: their times and sizes. -/
def acksFor : List (Int × Nat) :=
  acks.filterMap fun ack =>
    (((packetsIn ps k).map fun q => (q.seq, q.len)).lookup ack.2).map fun len => (ack.1, len)

/-- The rate at which the packets of a cluster were sent, and acknowledged. -/
def rateIn : QuicBandwidth :=
  let sends := (packetsIn ps k).map fun q => (q.sentTs, q.len)
  min
    (if 0 < spanOf sends then QuicBandwidth.fromBytesAndTimeDelta (bytesOf sends) (spanOf sends)
      else .infinite)
    (QuicBandwidth.fromBytesAndTimeDelta (bytesOf (acksFor acks ps k)) (spanOf (acksFor acks ps k)))

/-- The cluster is worth an estimate: it was acknowledged at different times, and its rate is
not zero. -/
def Worth : Prop := spanOf (acksFor acks ps k) ≠ 0 ∧ .zero < rateIn acks ps k

/-- A packet of the cluster was acknowledged. -/
def Opened : Prop := ∃ ack ∈ acks, ack.2 ∈ numbersIn ps k

/-- `k'` is the cluster sent right after `k`. -/
structure SentAfter (k' : Nat) : Prop where
  fst : ∃ q ∈ ps, q.clusterId = k
  snd : ∃ q ∈ ps, q.clusterId = k'
  lt : k < k'
  least : ∀ q ∈ ps, k < q.clusterId → k' ≤ q.clusterId

/-- The cluster sent right after this one was acknowledged. -/
def NextOpened : Prop := ∃ k', SentAfter ps k k' ∧ Opened acks ps k'

end Clusters

/-- The estimates made of a cluster that held any of the packets. -/
def estimatesOf (s : MyBbrSender) (numbers : List Nat) : List Estimate :=
  s.estimates.filter fun e => decide (∃ p ∈ numbers, p ∈ e.info.numbers)

/-- A cluster is estimated once, if it is worth it and its successor was acknowledged, and
else not at all. -/
structure Judged (acks : List (Int × Nat)) (ps : List ClusterPacket) (s : MyBbrSender) (k : Nat) :
    Prop where
  once : NextOpened acks ps k → Worth acks ps k →
    ∃ e, estimatesOf s (numbersIn ps k) = [e] ∧ e.info.numbers = numbersIn ps k
  never : ¬(NextOpened acks ps k ∧ Worth acks ps k) → estimatesOf s (numbersIn ps k) = []

theorem mem_numbersIn {ps : List ClusterPacket} {k p : Nat} :
    p ∈ numbersIn ps k ↔ ∃ q ∈ ps, q.clusterId = k ∧ q.seq = p := by
  simp [numbersIn, packetsIn, and_assoc]

theorem Judged.congr {acks acks' : List (Int × Nat)} {ps ps' : List ClusterPacket}
    {s s' : MyBbrSender} {k : Nat} (h : Judged acks ps s k)
    (hnumbers : numbersIn ps' k = numbersIn ps k)
    (hnext : NextOpened acks' ps' k ↔ NextOpened acks ps k)
    (hworth : NextOpened acks ps k → (Worth acks' ps' k ↔ Worth acks ps k))
    (hestimates : estimatesOf s' (numbersIn ps k) = estimatesOf s (numbersIn ps k)) :
    Judged acks' ps' s' k where
  once := by
    intro hopened hworthy
    rw [hnumbers, hestimates]
    rw [hnext] at hopened
    exact h.once hopened ((hworth hopened).mp hworthy)
  never := by
    intro hnot
    rw [hnumbers, hestimates]
    refine h.never fun hboth => hnot ⟨hnext.mpr hboth.1, (hworth hboth.1).mpr hboth.2⟩

/-! ### The invariant -/

/-- What holds of a cluster and the packets of the epoch. -/
structure InEpoch (ps : List ClusterPacket) (c : SentClusterInfo) : Prop where
  packets : c.packets = (packetsIn ps c.clusterId).map fun q => (q.seq, q.sentTs, q.len)
  dispatched : c.Dispatched

structure Epoch (es : List Event) (acks : List (Int × Nat)) (ps : List ClusterPacket)
    (s : MyBbrSender) : Prop where
  history : History es acks s
  clusters : ∀ x ∈ s.graph.heap.contents, InEpoch ps x.2
  recorded : ∀ p r, s.graph.seqRoundMap.find? p = some r → ∃ q ∈ ps, q.clusterId = r ∧ q.seq = p
  /-- A cluster that was removed is older than one that was acknowledged. -/
  live : ∀ q ∈ ps, (∃ x ∈ s.graph.heap.contents, x.2.clusterId = q.clusterId) ∨
    ∃ y ∈ s.graph.heap.contents, y.2.firstAckTs ≠ 0 ∧ q.clusterId < y.2.clusterId
  ordered : ps.Pairwise fun q r => q.seq < r.seq ∧ q.clusterId ≤ r.clusterId
  sent : ∀ q ∈ ps, q.seq ∈ sentNumbers es
  rounds : ∀ q ∈ ps, q.clusterId ≤ s.control.roundTripCount
  acked : ∀ ack ∈ acks, ack.2 ≤ s.lastAckSeq
  estimated : ∀ e ∈ s.estimates, ∀ p ∈ e.info.numbers, p ∈ sentNumbers es
  judged : ∀ k, Judged acks ps s k

/-- Before any packet is sent in a cluster. -/
theorem judged_nil (acks : List (Int × Nat)) (s : MyBbrSender) (k : Nat) : Judged acks [] s k where
  once := by
    rintro ⟨k', hafter, -⟩
    obtain ⟨q, hq, -⟩ := hafter.fst
    cases hq
  never := fun _ => by simp [estimatesOf, numbersIn, packetsIn]

theorem epoch_new (minBps : Nat) (hasObserver : Bool) (random : MyQuicRandom) :
    Epoch [] [] [] (.new minBps hasObserver random) where
  history := history_new minBps hasObserver random
  clusters := fun x hx => by cases hx
  recorded := fun p r hp => by cases hp
  live := fun q hq => by cases hq
  ordered := List.Pairwise.nil
  sent := fun q hq => by cases hq
  rounds := fun q hq => by cases hq
  acked := fun ack hack => by cases hack
  estimated := fun e he => by cases he
  judged := judged_nil [] _

/-! ### What the invariant says of the clusters -/

section Facts
variable {es : List Event} {acks : List (Int × Nat)} {ps : List ClusterPacket} {s : MyBbrSender}

theorem InEpoch.numbers_eq {c : SentClusterInfo} (h : InEpoch ps c) :
    c.numbers = numbersIn ps c.clusterId := by
  simpa [SentClusterInfo.packets, SentClusterInfo.numbers, numbersIn, Function.comp_def] using
    congrArg (List.map Prod.fst) h.packets

theorem InEpoch.acksIn_eq {c : SentClusterInfo} (h : InEpoch ps c) (acks : List (Int × Nat)) :
    c.acksIn acks = acksFor acks ps c.clusterId := by
  have hsizes : c.sizes = (packetsIn ps c.clusterId).map fun q => (q.seq, q.len) := by
    simpa [SentClusterInfo.packets, SentClusterInfo.sizes, Function.comp_def] using
      congrArg (List.map fun q : Nat × Int × Nat => (q.1, q.2.2)) h.packets
  rw [SentClusterInfo.acksIn, acksFor, hsizes]

/-- Packets are told apart by their numbers. -/
theorem Epoch.unique (h : Epoch es acks ps s) {q r : ClusterPacket} (hq : q ∈ ps) (hr : r ∈ ps)
    (hseq : q.seq = r.seq) : q = r := by
  rcases pairwise_cases h.ordered hq hr with heq | hlt | hgt
  · exact heq
  · exact absurd hseq (Nat.ne_of_lt hlt.1)
  · exact absurd hseq (Nat.ne_of_gt hgt.1)

/-- Clusters are told apart by the numbers of their packets. -/
theorem Epoch.clusterId_unique (h : Epoch es acks ps s) {q : ClusterPacket} (hq : q ∈ ps) {k : Nat}
    (hmem : q.seq ∈ numbersIn ps k) : q.clusterId = k := by
  obtain ⟨r, hr, hk, hseq⟩ := mem_numbersIn.mp hmem
  rw [h.unique hq hr hseq.symm]
  exact hk

theorem Epoch.exists_packet (h : Epoch es acks ps s) {x : Nat × SentClusterInfo}
    (hx : x ∈ s.graph.heap.contents) : ∃ q ∈ ps, q.clusterId = x.2.clusterId := by
  have hne : x.2.numbers ≠ [] := by
    rw [SentClusterInfo.numbers, ne_eq, List.map_eq_nil_iff]
    exact h.history.sound.coherent.holdsPackets x hx
  obtain ⟨p, hp⟩ := List.exists_mem_of_ne_nil _ hne
  rw [(h.clusters x hx).numbers_eq] at hp
  obtain ⟨q, hq, hk, -⟩ := mem_numbersIn.mp hp
  exact ⟨q, hq, hk⟩

/-- A live cluster has a first acknowledgement if a packet of it was acknowledged. -/
theorem Epoch.opened_iff (h : Epoch es acks ps s) (hes : Orderly es) {x : Nat × SentClusterInfo}
    (hx : x ∈ s.graph.heap.contents) : x.2.firstAckTs ≠ 0 ↔ Opened acks ps x.2.clusterId := by
  rw [ne_eq, (h.history.kept x hx).tallied.firstAckTs_eq_zero (h.history.acks_ne_zero hes),
    Opened, ← (h.clusters x hx).numbers_eq, SentClusterInfo.acksIn, List.filterMap_eq_nil_iff]
  simp only [← Option.not_isSome_iff_eq_none, Option.isSome_map,
    SentClusterInfo.lookup_sizes_isSome, not_forall, not_not, exists_prop]

/-- A packet that is still to be acknowledged was sent in a live cluster. -/
theorem Epoch.awaited_live (h : Epoch es acks ps s) {p r : Nat} (hp : s.lastAckSeq < p)
    (hround : s.graph.seqRoundMap.find? p = some r) :
    (∃ x ∈ s.graph.heap.contents, x.2.clusterId = r) ∧
      ∀ y ∈ s.graph.heap.contents, y.2.firstAckTs ≠ 0 → y.2.clusterId ≤ r := by
  have hfrontier := h.history.sound.coherent.frontier (p, r) (OrderedMap.find?_eq_some.mp hround) hp
  refine ⟨?_, hfrontier⟩
  obtain ⟨q, hq, rfl, -⟩ := h.recorded p r hround
  rcases h.live q hq with hlive | ⟨y, hy, hopened, hlt⟩
  · exact hlive
  · exact absurd (hfrontier y hy hopened) (Nat.not_le.mpr hlt)

end Facts

/-! ### Sending -/

section Sent
variable {es : List Event} {acks : List (Int × Nat)} {ps : List ClusterPacket}
  {s s' : MyBbrSender} {t : Int} {p bytes : Nat}

theorem packetsIn_append (ps ps' : List ClusterPacket) (k : Nat) :
    packetsIn (ps ++ ps') k = packetsIn ps k ++ packetsIn ps' k := List.filter_append ..

theorem packetsIn_singleton_of_ne {q : ClusterPacket} {k : Nat} (h : q.clusterId ≠ k) :
    packetsIn [q] k = [] := by simp [packetsIn, h]

theorem packetsIn_singleton_self (q : ClusterPacket) : packetsIn [q] q.clusterId = [q] := by
  simp [packetsIn]

/-- Nothing changes for a cluster other than the one a packet is sent in. -/
theorem packetsIn_concat_of_ne {q : ClusterPacket} {k : Nat} (h : q.clusterId ≠ k) :
    packetsIn (ps ++ [q]) k = packetsIn ps k := by
  rw [packetsIn_append, packetsIn_singleton_of_ne h, List.append_nil]

theorem worth_congr {ps' : List ClusterPacket} {k : Nat} (h : packetsIn ps' k = packetsIn ps k) :
    Worth acks ps' k ↔ Worth acks ps k := by
  unfold Worth rateIn acksFor
  rw [h]

/-- A packet that was just sent makes no successor acknowledged. -/
theorem nextOpened_concat {q : ClusterPacket} {k : Nat} (hk : q.clusterId ≠ k)
    (hacks : ∀ ack ∈ acks, ack.2 ≠ q.seq) (hmax : ∀ r ∈ ps, r.clusterId ≤ q.clusterId) :
    NextOpened acks (ps ++ [q]) k ↔ NextOpened acks ps k := by
  constructor
  · rintro ⟨k', hafter, ack, hack, hmem⟩
    -- The acknowledged packet of the successor was sent before.
    obtain ⟨r, hr, hrk, hrp⟩ := mem_numbersIn.mp hmem
    have hold : r ∈ ps := by
      rcases List.mem_append.mp hr with hr | hr
      · exact hr
      · rw [List.mem_singleton.mp hr] at hrp
        exact absurd hrp.symm (hacks ack hack)
    obtain ⟨x, hx, hxk⟩ := hafter.fst
    have hx' : x ∈ ps := by
      rcases List.mem_append.mp hx with hx | hx
      · exact hx
      · rw [List.mem_singleton.mp hx] at hxk
        exact absurd hxk hk
    exact ⟨k', ⟨⟨x, hx', hxk⟩, ⟨r, hold, hrk⟩, hafter.lt,
      fun y hy => hafter.least y (List.mem_append_left _ hy)⟩, ack, hack,
      mem_numbersIn.mpr ⟨r, hold, hrk, hrp⟩⟩
  · rintro ⟨k', hafter, ack, hack, hmem⟩
    obtain ⟨x, hx, hxk⟩ := hafter.fst
    obtain ⟨r, hr, hrk⟩ := hafter.snd
    obtain ⟨y, hy, hyk, hyp⟩ := mem_numbersIn.mp hmem
    refine ⟨k', ⟨⟨x, List.mem_append_left _ hx, hxk⟩, ⟨r, List.mem_append_left _ hr, hrk⟩,
      hafter.lt, ?_⟩, ack, hack, mem_numbersIn.mpr ⟨y, List.mem_append_left _ hy, hyk, hyp⟩⟩
    intro z hz hlt
    rcases List.mem_append.mp hz with hz | hz
    · exact hafter.least z hz hlt
    · rw [List.mem_singleton.mp hz, ← hrk]
      exact hmax r hr

/-- An event that touches no cluster. -/
theorem Epoch.skip {es' : List Event} (h : Epoch es acks ps s) (hhistory : History es' acks s')
    (hsent : ∀ k ∈ sentNumbers es, k ∈ sentNumbers es') (hgraph : s'.graph = s.graph)
    (hlast : s'.lastAckSeq = s.lastAckSeq)
    (hround : s'.control.roundTripCount = s.control.roundTripCount)
    (hestimates : s'.estimates = s.estimates) : Epoch es' acks ps s' where
  history := hhistory
  clusters := by rw [hgraph]; exact h.clusters
  recorded := by rw [hgraph]; exact h.recorded
  live := by rw [hgraph]; exact h.live
  ordered := h.ordered
  sent := fun q hq => hsent _ (h.sent q hq)
  rounds := by rw [hround]; exact h.rounds
  acked := by rw [hlast]; exact h.acked
  estimated := by
    rw [hestimates]
    exact fun e he p hp => hsent p (h.estimated e he p hp)
  judged := fun k => (h.judged k).congr rfl Iff.rfl (fun _ => Iff.rfl) (by
    rw [estimatesOf, estimatesOf, hestimates])

/-- The packet joins the cluster of its round. -/
theorem InEpoch.sent_in {c : SentClusterInfo} (h : InEpoch ps c) {round : Nat}
    (hround : c.clusterId = round) (ht : t ≠ 0) :
    InEpoch (ps ++ [⟨p, round, t, bytes⟩]) (c.onPacketSent t p bytes) := by
  refine ⟨?_, h.dispatched.sent ht p bytes⟩
  subst hround
  show (c.onPacketSent t p bytes).packets = (packetsIn _ c.clusterId).map _
  rw [c.packets_onPacketSent, h.packets, packetsIn_append, List.map_append]
  simp [packetsIn]

theorem InEpoch.sent_elsewhere {c : SentClusterInfo} (h : InEpoch ps c) {q : ClusterPacket}
    (hround : c.clusterId ≠ q.clusterId) : InEpoch (ps ++ [q]) c :=
  ⟨by rw [packetsIn_concat_of_ne hround.symm]; exact h.packets, h.dispatched⟩

/-- The packet starts a cluster. -/
theorem inEpoch_new {round : Nat} (hnone : packetsIn ps round = []) (isProbe : Bool) (ht : t ≠ 0) :
    InEpoch (ps ++ [⟨p, round, t, bytes⟩])
      ((SentClusterInfo.new round isProbe).onPacketSent t p bytes) := by
  have hnew : InEpoch ps (SentClusterInfo.new round isProbe) :=
    ⟨by rw [show (SentClusterInfo.new round isProbe).clusterId = round from rfl, hnone]; rfl,
      SentClusterInfo.dispatched_new round isProbe⟩
  exact hnew.sent_in rfl ht

/-- If no cluster of the round is live, none was sent: rounds do not go back. -/
theorem Epoch.packetsIn_round (h : Epoch es acks ps s)
    (hnone : ∀ x ∈ s.graph.heap.contents, x.2.clusterId ≠ s.control.roundTripCount) :
    packetsIn ps s.control.roundTripCount = [] := by
  rw [packetsIn, List.filter_eq_nil_iff]
  intro q hq hround
  rw [decide_eq_true_eq] at hround
  rcases h.live q hq with ⟨x, hx, hid⟩ | ⟨y, hy, -, hlt⟩
  · exact hnone x hx (hid.trans hround)
  · have hle := h.history.sound.coherent.clusterId_le y hy
    omega

/-- What a packet sent in `PROBE_BW` leaves of the clusters. -/
theorem Epoch.clusters_sent (h : Epoch es acks ps s) (hsend : s.SendStep t p bytes s')
    (hmode : s.control.mode = .probeBw) (ht : t ≠ 0) :
    (∀ x ∈ s'.graph.heap.contents,
      InEpoch (ps ++ [⟨p, s.control.roundTripCount, t, bytes⟩]) x.2) ∧
      ∀ x ∈ s.graph.heap.contents, ∃ y ∈ s'.graph.heap.contents,
        y.2.clusterId = x.2.clusterId ∧ y.2.firstAckTs = x.2.firstAckTs := by
  have hcoherent := h.history.sound.coherent
  obtain ⟨-, -, ⟨a, c, hc, hround, hcontents⟩ | ⟨hnone, hcontents⟩⟩ := hsend.probing hmode
  · have hmem : ∀ x, x ∈ s'.graph.heap.contents ↔ x = (a, c.onPacketSent t p bytes) ∨
        x ∈ s.graph.heap.contents ∧ x.1 ≠ a := by
      intro x
      rw [hcontents, Heap.mem_mapAt hc]
    constructor
    · intro x hx
      rcases (hmem x).mp hx with rfl | ⟨hx, hne⟩
      · exact (h.clusters _ hc).sent_in hround ht
      · exact (h.clusters x hx).sent_elsewhere fun hid =>
          hne (hcoherent.toLinked.clusterId_inj hx hc (hid.trans hround.symm))
    · rintro ⟨b, d⟩ hx
      by_cases hb : b = a
      · subst hb
        obtain rfl := Heap.contents_unique hx hc
        exact ⟨_, (hmem _).mpr (.inl rfl), rfl, rfl⟩
      · exact ⟨_, (hmem _).mpr (.inr ⟨hx, hb⟩), rfl, rfl⟩
  · rw [hcontents]
    constructor
    · intro x hx
      rcases List.mem_append.mp hx with hx | hx
      · exact (h.clusters x hx).sent_elsewhere (hnone x hx)
      · rw [List.mem_singleton.mp hx]
        exact inEpoch_new (h.packetsIn_round hnone) _ ht
    · exact fun x hx => ⟨x, List.mem_append_left _ hx, rfl, rfl⟩

/-- The packet is new to every estimate, and its cluster has no successor yet. -/
theorem Epoch.judged_sent (h : Epoch es acks ps s) (hes : Orderly (es ++ [.sent t p bytes]))
    (hsend : s.SendStep t p bytes s') {q : ClusterPacket} (hp : q.seq = p)
    (hround : q.clusterId = s.control.roundTripCount) (k : Nat) :
    Judged acks (ps ++ [q]) s' k := by
  have habove := hes.admissible.above
  have hmax : ∀ x ∈ ps, x.clusterId ≤ q.clusterId := fun x hx => hround ▸ h.rounds x hx
  have hestimates : ∀ numbers, estimatesOf s' numbers = estimatesOf s numbers := by
    intro numbers
    rw [estimatesOf, estimatesOf, hsend.estimates]
  by_cases hk : q.clusterId = k
  · subst hk
    -- The current round is the last one.
    have hlast : ∀ k', ¬SentAfter (ps ++ [q]) q.clusterId k' := by
      rintro k' hafter
      obtain ⟨x, hx, rfl⟩ := hafter.snd
      have hlt := hafter.lt
      rcases List.mem_append.mp hx with hx | hx
      · exact absurd (hmax x hx) (Nat.not_le.mpr hlt)
      · rw [List.mem_singleton.mp hx] at hlt
        exact absurd hlt (Nat.lt_irrefl _)
    have hnone : estimatesOf s (numbersIn ps q.clusterId) = [] := by
      refine (h.judged q.clusterId).never ?_
      rintro ⟨⟨k', hafter, -⟩, -⟩
      obtain ⟨x, hx, rfl⟩ := hafter.snd
      exact absurd (hmax x hx) (Nat.not_le.mpr hafter.lt)
    refine ⟨fun hopened => hopened.elim fun k' h => absurd h.1 (hlast k'), fun _ => ?_⟩
    rw [hestimates, estimatesOf, List.filter_eq_nil_iff]
    intro e he hmem
    obtain ⟨n, hn, hne⟩ := of_decide_eq_true hmem
    rw [numbersIn, packetsIn_append, packetsIn_singleton_self, List.map_append] at hn
    rcases List.mem_append.mp hn with hn | hn
    · rw [estimatesOf, List.filter_eq_nil_iff] at hnone
      exact hnone e he (decide_eq_true ⟨n, hn, hne⟩)
    · rw [List.map_singleton, List.mem_singleton, hp] at hn
      exact Nat.lt_irrefl p (habove p (h.estimated e he p (hn ▸ hne)))
  · have hsame : packetsIn (ps ++ [q]) k = packetsIn ps k := packetsIn_concat_of_ne hk
    refine (h.judged k).congr (congrArg _ hsame) (nextOpened_concat hk ?_ hmax)
      (fun _ => worth_congr hsame) (hestimates _)
    intro ack hack
    rw [hp]
    exact Nat.ne_of_lt (habove _ (h.history.acksSent ack hack))

theorem Epoch.sent_probing (h : Epoch es acks ps s) (hes : Orderly (es ++ [.sent t p bytes]))
    (hsend : s.SendStep t p bytes s') (hmode : s.control.mode = .probeBw)
    (hhistory : History (es ++ [.sent t p bytes]) acks s') :
    Epoch (es ++ [.sent t p bytes]) acks (ps ++ [⟨p, s.control.roundTripCount, t, bytes⟩]) s' := by
  have habove := hes.admissible.above
  have ht : t ≠ 0 := by
    have := hes.positive t (by rw [times_append]; exact List.mem_append_right _ (by simp [times]))
    omega
  have hkeys : p ∉ s.graph.seqRoundMap.keys := fun hp =>
    Nat.lt_irrefl p (habove p (h.history.sound.recorded p hp))
  obtain ⟨hclusters, hstays⟩ := h.clusters_sent hsend hmode ht
  have hseq := (hsend.probing hmode).1
  constructor
  case history => exact hhistory
  case clusters => exact hclusters
  case recorded =>
    intro q r hq
    rw [hseq] at hq
    by_cases hqp : q = p
    · rw [hqp, OrderedMap.find?_insert_self _ _ hkeys] at hq
      exact ⟨_, List.mem_append_right _ (List.mem_singleton_self _), Option.some.inj hq, hqp.symm⟩
    · rw [OrderedMap.find?_insert_of_ne _ _ hqp] at hq
      obtain ⟨x, hx, hcases⟩ := h.recorded q r hq
      exact ⟨x, List.mem_append_left _ hx, hcases⟩
  case live =>
    intro q hq
    rcases List.mem_append.mp hq with hq | hq
    · rcases h.live q hq with ⟨x, hx, hid⟩ | ⟨y, hy, hopened, hlt⟩
      · obtain ⟨x', hx', hid', -⟩ := hstays x hx
        exact .inl ⟨x', hx', hid'.trans hid⟩
      · obtain ⟨y', hy', hid', hfirst⟩ := hstays y hy
        exact .inr ⟨y', hy', by rwa [hfirst], by rwa [hid']⟩
    · rw [List.mem_singleton.mp hq]
      exact .inl (h.history.kept_sends hes hsend hmode hkeys).2
  case ordered =>
    rw [List.pairwise_append]
    refine ⟨h.ordered, List.pairwise_singleton _ _, fun q hq r hr => ?_⟩
    rw [List.mem_singleton.mp hr]
    exact ⟨habove _ (h.sent q hq), h.rounds q hq⟩
  case sent =>
    intro q hq
    rcases List.mem_append.mp hq with hq | hq
    · exact mem_sentNumbers_concat (h.sent q hq) _
    · rw [List.mem_singleton.mp hq, sentNumbers_append]
      exact List.mem_append_right _ (List.mem_singleton_self _)
  case rounds =>
    intro q hq
    rw [hsend.control]
    rcases List.mem_append.mp hq with hq | hq
    · exact h.rounds q hq
    · rw [List.mem_singleton.mp hq]
  case acked =>
    rw [hsend.lastAckSeq]
    exact h.acked
  case estimated =>
    rw [hsend.estimates]
    exact fun e he q hq => mem_sentNumbers_concat (h.estimated e he q hq) _
  case judged => exact fun k => h.judged_sent hes hsend rfl rfl k

end Sent
end CongestionResponse.ClusterBbr
