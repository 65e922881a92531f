import Mathlib.Data.List.Perm.Subperm
import CongestionResponse.ClusterBbr.Steps

/-! How much `MyBbrSender` remembers of its packets.

Sending fills two maps, acknowledging prunes them by two rules. `UpdateRtt` erases every entry
of `seq_ts_map_` up to the acknowledged number, `OnAck` only the acknowledged one of
`seq_round_map_`. So what is left of the second map is above the last acknowledgement exactly as
long as no acknowledgement passes over a packet that is in it (`bookkeeping_bounded_iff`). -/
namespace CongestionResponse.ClusterBbr
open Lib Quic ClusterGraph

/-! ### What the connection promises -/

/-- An acknowledged number was sent before. -/
def AckedSent (past : List Event) : Event → Prop
  | .ack _ p => p ∈ sentNumbers past
  | _ => True

instance (past : List Event) : (e : Event) → Decidable (AckedSent past e)
  | .ack _ p => inferInstanceAs (Decidable (p ∈ sentNumbers past))
  | .sent _ _ _ => isTrue trivial
  | .period _ => isTrue trivial

/-- Packet numbers go up from one, and only packets that were sent are acknowledged. -/
structure Regular (es : List Event) : Prop where
  positive : ∀ p ∈ sentNumbers es, 0 < p
  increasing : (sentNumbers es).Pairwise (· < ·)
  acked : Throughout AckedSent es

theorem Regular.init {es : List Event} {e : Event} (h : Regular (es ++ [e])) : Regular es where
  positive := fun p hp => h.positive p (mem_sentNumbers_concat hp e)
  increasing := by
    have hincreasing := h.increasing
    rw [sentNumbers_append, List.pairwise_append] at hincreasing
    exact hincreasing.1
  acked := (throughout_concat.mp h.acked).1

/-- A packet is sent with a number above all before it. -/
theorem Regular.above {es : List Event} {t : Int} {p bytes : Nat}
    (h : Regular (es ++ [.sent t p bytes])) : 0 < p ∧ ∀ k ∈ sentNumbers es, k < p := by
  have hincreasing := h.increasing
  rw [sentNumbers_append, List.pairwise_append] at hincreasing
  refine ⟨h.positive p ?_, fun k hk => hincreasing.2.2 k hk p (List.mem_singleton_self p)⟩
  rw [sentNumbers_append]
  exact List.mem_append_right _ (List.mem_singleton_self p)

/-! ### The maps -/

/-- The numbers sent above the last acknowledgement. -/
def outstanding (es : List Event) (s : MyBbrSender) : List Nat :=
  (sentNumbers es).filter fun p => decide (s.lastAckSeq < p)

/-- All entries of a map are of packets above the last acknowledgement; so there are no more of
them than such packets were sent. -/
structure Above {α : Type} (es : List Event) (s : MyBbrSender) (m : OrderedMap Nat α) : Prop where
  keys : ∀ k ∈ m.keys, s.lastAckSeq < k
  length : m.entries.length ≤ (outstanding es s).length

theorem above_of_keys {α : Type} {es : List Event} {s : MyBbrSender} {m : OrderedMap Nat α}
    (hsent : ∀ k ∈ m.keys, k ∈ sentNumbers es) (hkeys : ∀ k ∈ m.keys, s.lastAckSeq < k) :
    Above es s m where
  keys := hkeys
  length := by
    have hnodup : m.keys.Nodup := (List.pairwise_map.mpr m.sorted).imp ne_of_lt
    have hsubset : m.keys ⊆ outstanding es s := fun k hk =>
      List.mem_filter.mpr ⟨hsent k hk, decide_eq_true (hkeys k hk)⟩
    have hle := (List.subperm_of_subset hnodup hsubset).length_le
    rwa [OrderedMap.keys, List.length_map] at hle

/-- What holds in every state: both maps hold packets that were sent, and `seq_ts_map_` only
such above the last acknowledgement, which is of a packet that was sent. -/
structure Remembers (es : List Event) (s : MyBbrSender) : Prop where
  lastAckSeq : s.lastAckSeq = 0 ∨ s.lastAckSeq ∈ sentNumbers es
  seqTs : ∀ k ∈ s.rtt.seqTsMap.keys, k ∈ sentNumbers es ∧ s.lastAckSeq < k
  seqRound : ∀ k ∈ s.graph.seqRoundMap.keys, k ∈ sentNumbers es

theorem Remembers.lastAckSeq_lt {es : List Event} {s : MyBbrSender} (h : Remembers es s) {t : Int}
    {p bytes : Nat} (hes : Regular (es ++ [.sent t p bytes])) : s.lastAckSeq < p := by
  rcases h.lastAckSeq with hzero | hsent
  · rw [hzero]
    exact hes.above.1
  · exact hes.above.2 _ hsent

/-- What an event does to the maps. -/
inductive MapStep (s : MyBbrSender) (e : Event) (s' : MyBbrSender) : Prop
  /-- The packet is entered in one map or in both. -/
  | sent {t : Int} {p bytes : Nat} (hevent : e = .sent t p bytes)
    (hlast : s'.lastAckSeq = s.lastAckSeq)
    (hts : ∀ k, k ∈ s'.rtt.seqTsMap.keys ↔ k ∈ s.rtt.seqTsMap.keys ∨ k = p)
    (hround : ∀ k ∈ s'.graph.seqRoundMap.keys, k ∈ s.graph.seqRoundMap.keys ∨ k = p)
  /-- Nothing happens. -/
  | kept (hevent : sentNumbers [e] = []) (hignored : ∀ t p, e = .ack t p → ¬s.lastAckSeq < p)
    (hlast : s'.lastAckSeq = s.lastAckSeq) (hts : s'.rtt.seqTsMap = s.rtt.seqTsMap)
    (hround : s'.graph.seqRoundMap = s.graph.seqRoundMap)
  /-- Both maps are cleared. -/
  | cleared {t : Int} {p : Nat} (hevent : e = .ack t p) (hp : s.lastAckSeq < p)
    (henters : s.entersProbeRtt t p) (hlast : s'.lastAckSeq = p) (hts : s'.rtt.seqTsMap.keys = [])
    (hround : s'.graph.seqRoundMap.keys = [])
  /-- One map loses all entries up to the acknowledged packet, the other one only that. -/
  | pruned {t : Int} {p : Nat} (hevent : e = .ack t p) (hp : s.lastAckSeq < p)
    (hstays : ¬s.entersProbeRtt t p) (hlast : s'.lastAckSeq = p)
    (hts : ∀ k, k ∈ s'.rtt.seqTsMap.keys ↔ k ∈ s.rtt.seqTsMap.keys ∧ p < k)
    (hround : ∀ k, k ∈ s'.graph.seqRoundMap.keys ↔ k ∈ s.graph.seqRoundMap.keys ∧ k ≠ p)

theorem RttRecord.mem_keys_updateRtt (r : RttRecord) (now : Int) (p k : Nat) :
    k ∈ (r.updateRtt now p).seqTsMap.keys ↔ k ∈ r.seqTsMap.keys ∧ p < k := by
  have hentries := OrderedMap.popWhile_le_entries r.seqTsMap p (fun (u : Unit) _ => u) ()
  have hmap : (r.updateRtt now p).seqTsMap =
      (r.seqTsMap.popWhile (fun seq => decide (seq ≤ p)) (fun u _ => u) ()).2 := rfl
  rw [hmap, OrderedMap.keys, hentries]
  simp [OrderedMap.keys, List.mem_map, List.mem_filter]

/-- Leaving `PROBE_RTT` does not touch the map. -/
theorem seqTsMap_exitProbeRtt (s : MyBbrSender) (now : Int) :
    (s.exitProbeRtt now).rtt.seqTsMap = s.rtt.seqTsMap := by
  unfold MyBbrSender.exitProbeRtt RttRecord.restore
  split_ifs <;> rfl

theorem mapStep {s s' : MyBbrSender} {e : Event}
    (hlinked : s.graph.Linked s.control.roundTripCount) (hstep : step s e = some s') :
    MapStep s e s' := by
  cases steps_of_step hstep with
  | unrecorded hmode =>
    exact .sent rfl rfl (fun k => OrderedMap.mem_keys_insert) fun k hk => .inl hk
  | recorded hmode hadd =>
    obtain ⟨-, -, hseq, -⟩ := hlinked.added hadd
    refine .sent rfl rfl (fun k => OrderedMap.mem_keys_insert) fun k hk => ?_
    rw [hseq] at hk
    exact OrderedMap.mem_keys_insert.mp hk
  | period => exact .kept rfl (fun _ _ h => by cases h) rfl rfl rfl
  | ignored hp =>
    apply MapStep.kept rfl _ rfl rfl rfl
    intro t p h
    cases h
    exact Nat.not_lt.mpr hp
  | enters hp henters hclear hindex hseq hacked =>
    apply MapStep.cleared rfl hp henters
    · exact s.lastAckSeq_entered ..
    · show (MyBbrSender.exitProbeRtt _ _).rtt.seqTsMap.keys = []
      rw [seqTsMap_exitProbeRtt]
      rfl
    · rw [s.graph_entered]
      exact congrArg OrderedMap.keys hseq
  | @stays t p graph report _ hp hstays hack h =>
    apply MapStep.pruned rfl hp hstays h.lastAckSeq
    · intro k
      rw [h.rtt, seqTsMap_exitProbeRtt]
      exact s.rtt.mem_keys_updateRtt t p k
    · intro k
      rw [(h.graph_spec hlinked hack).2.2.2.2]
      exact OrderedMap.mem_keys_erase

/-! ### Whole runs -/

theorem Remembers.step {es : List Event} {s s' : MyBbrSender} {e : Event} (h : Remembers es s)
    (hes : Regular (es ++ [e])) (hstep : MapStep s e s') : Remembers (es ++ [e]) s' := by
  have hsent : ∀ k, k ∈ sentNumbers es → k ∈ sentNumbers (es ++ [e]) :=
    fun k hk => mem_sentNumbers_concat hk e
  cases hstep with
  | @sent t p bytes hevent hlast hts hround =>
    subst hevent
    have hp : p ∈ sentNumbers (es ++ [.sent t p bytes]) := by
      rw [sentNumbers_append]
      exact List.mem_append_right _ (List.mem_singleton_self p)
    refine ⟨by rw [hlast]; exact h.lastAckSeq.imp_right (hsent _), fun k hk => ?_, fun k hk => ?_⟩
    · rw [hlast]
      rcases (hts k).mp hk with hk | rfl
      · exact ⟨hsent k (h.seqTs k hk).1, (h.seqTs k hk).2⟩
      · exact ⟨hp, h.lastAckSeq_lt hes⟩
    · rcases hround k hk with hk | rfl
      · exact hsent k (h.seqRound k hk)
      · exact hp
  | kept hevent hignored hlast hts hround =>
    refine ⟨?_, ?_, ?_⟩
    · rw [hlast]
      exact h.lastAckSeq.imp_right (hsent _)
    · rw [hlast, hts]
      exact fun k hk => ⟨hsent k (h.seqTs k hk).1, (h.seqTs k hk).2⟩
    · rw [hround]
      exact fun k hk => hsent k (h.seqRound k hk)
  | cleared hevent hp henters hlast hts hround =>
    subst hevent
    refine ⟨?_, ?_, ?_⟩
    · rw [hlast]
      exact .inr (hsent _ (throughout_concat.mp hes.acked).2)
    · rw [hts]
      exact fun k hk => absurd hk List.not_mem_nil
    · rw [hround]
      exact fun k hk => absurd hk List.not_mem_nil
  | pruned hevent hp hstays hlast hts hround =>
    subst hevent
    refine ⟨?_, fun k hk => ?_, fun k hk => hsent k (h.seqRound k ((hround k).mp hk).1)⟩
    · rw [hlast]
      exact .inr (hsent _ (throughout_concat.mp hes.acked).2)
    · rw [hlast]
      obtain ⟨hk, hlt⟩ := (hts k).mp hk
      exact ⟨hsent k (h.seqTs k hk).1, hlt⟩

theorem remembers_run {minBps : Nat} {hasObserver : Bool} {random : MyQuicRandom} {es : List Event}
    (hes : Regular es) {s : MyBbrSender}
    (hrun : tryRun step (.new minBps hasObserver random) es = some s) : Remembers es s := by
  apply tryRun_reaches (A := Regular) (P := Remembers) (fun _ _ h => h.init) _ _ hes hrun
  · exact ⟨.inl rfl, fun k hk => absurd hk List.not_mem_nil, fun k hk => absurd hk List.not_mem_nil⟩
  · intro es e s s' hes hrun hstep h
    exact h.step hes (mapStep (linked_run hrun) hstep)

/-- An accepted acknowledgement that stays out of `PROBE_RTT` and passes over a packet that was
sent in a cluster and is still to be acknowledged. -/
def Skips (s : MyBbrSender) : Event → Prop
  | .ack t p => s.lastAckSeq < p ∧ ¬s.entersProbeRtt t p ∧ ∃ k ∈ s.graph.seqRoundMap.keys, k < p
  | _ => False

instance (s : MyBbrSender) : (e : Event) → Decidable (Skips s e)
  | .ack _ _ => inferInstanceAs (Decidable (_ ∧ _))
  | .sent _ _ _ => isFalse id
  | .period _ => isFalse id

/-- The rounds of the packets are pruned as the last acknowledgement is, unless it skips one. -/
theorem seqRound_above_iff {es : List Event} {s s' : MyBbrSender} {e : Event} (h : Remembers es s)
    (hes : Regular (es ++ [e])) (hstep : MapStep s e s')
    (habove : ∀ k ∈ s.graph.seqRoundMap.keys, s.lastAckSeq < k) :
    (∀ k ∈ s'.graph.seqRoundMap.keys, s'.lastAckSeq < k) ↔ ¬Skips s e := by
  cases hstep with
  | sent hevent hlast hts hround =>
    subst hevent
    refine iff_of_true (fun k hk => ?_) id
    rw [hlast]
    rcases hround k hk with hk | rfl
    · exact habove k hk
    · exact h.lastAckSeq_lt hes
  | kept hevent hignored hlast hts hround =>
    rw [hlast, hround]
    apply iff_of_true habove
    cases e with
    | ack t p => exact fun hskips => hignored t p rfl hskips.1
    | sent t p bytes => exact id
    | period ms => exact id
  | cleared hevent hp henters hlast hts hround =>
    subst hevent
    rw [hround]
    exact iff_of_true (fun k hk => absurd hk List.not_mem_nil) fun hskips => hskips.2.1 henters
  | @pruned t p hevent hp hstays hlast hts hround =>
    subst hevent
    rw [hlast]
    simp only [Skips, hp, hstays, not_false_eq_true, true_and, not_exists, not_and, not_lt]
    constructor
    · intro hall k hk
      by_cases heq : k = p
      · exact heq.ge
      · exact (hall k ((hround k).mpr ⟨hk, heq⟩)).le
    · intro hall k hk
      obtain ⟨hk, hne⟩ := (hround k).mp hk
      exact lt_of_le_of_ne (hall k hk) (Ne.symm hne)

/-- **`seq_ts_map_` never holds more than the packets above the last acknowledgement, and
`seq_round_map_` does not exactly as long as no acknowledgement skips a packet in it.** -/
theorem bookkeeping_bounded_iff (minBps : Nat) (hasObserver : Bool) (random : MyQuicRandom)
    (es : List Event) (hes : Regular es) {s : MyBbrSender}
    (hrun : tryRun step (.new minBps hasObserver random) es = some s) :
    Above es s s.rtt.seqTsMap ∧
    ((∀ past s, past <+: es → tryRun step (.new minBps hasObserver random) past = some s →
        Above past s s.rtt.seqTsMap ∧ Above past s s.graph.seqRoundMap) ↔
      Throughout (fun past e => ∀ s ∈ tryRun step (.new minBps hasObserver random) past,
        ¬Skips s e) es) := by
  have hts : ∀ {past : List Event} {s : MyBbrSender}, Remembers past s →
      Above past s s.rtt.seqTsMap := fun h =>
    above_of_keys (fun k hk => (h.seqTs k hk).1) fun k hk => (h.seqTs k hk).2
  refine ⟨hts (remembers_run hes hrun), ?_⟩
  refine tryRun_iff (A := Regular) (Q := fun _ s e => ¬Skips s e) (fun _ _ h => h.init) ?_ ?_
    hes hrun
  · exact ⟨⟨fun k hk => absurd hk List.not_mem_nil, Nat.zero_le _⟩,
      fun k hk => absurd hk List.not_mem_nil, Nat.zero_le _⟩
  · intro past e s s' hes hpast hstep habove
    have hbefore := remembers_run hes.init hpast
    have hmap := mapStep (linked_run hpast) hstep
    have hafter := hbefore.step hes hmap
    rw [← seqRound_above_iff hbefore hes hmap habove.2.keys]
    exact ⟨fun h => h.2.keys, fun h => ⟨hts hafter, above_of_keys hafter.seqRound h⟩⟩

/-- Two packets of a cluster, acknowledged in order. -/
def inOrder : List Event :=
  [.sent 1 1 1000, .ack 2 1, .sent 3 2 1000, .sent 4 3 1000, .ack 100 2, .ack 101 3]

theorem bookkeeping_bounded_in_order :
    Regular inOrder ∧
    ((tryRun step (.new 100000 false ⟨fun _ => 2, 0⟩) inOrder).map fun s =>
      (s.rtt.seqTsMap.keys, s.graph.seqRoundMap.keys, s.lastAckSeq)) = some ([], [], 3) ∧
    ∀ past s, past <+: inOrder → tryRun step (.new 100000 false ⟨fun _ => 2, 0⟩) past = some s →
      Above past s s.rtt.seqTsMap ∧ Above past s s.graph.seqRoundMap := by
  have hes : Regular inOrder := ⟨by decide, by decide, by decide⟩
  have hmaps : ((tryRun step (.new 100000 false ⟨fun _ => 2, 0⟩) inOrder).map fun s =>
      (s.rtt.seqTsMap.keys, s.graph.seqRoundMap.keys, s.lastAckSeq)) = some ([], [], 3) := by
    decide +kernel
  obtain ⟨s, hrun, -⟩ := Option.map_eq_some_iff.mp hmaps
  exact ⟨hes, hmaps, (bookkeeping_bounded_iff 100000 false ⟨fun _ => 2, 0⟩ inOrder hes hrun).2.mpr
    (by decide +kernel)⟩

/-- The first of two packets of a cluster is lost. -/
def firstLost : List Event :=
  [.sent 1 1 1000, .ack 2 1, .sent 3 2 1000, .sent 4 3 1000, .ack 100 3]

/-- The lost packet stays in `seq_round_map_` when no packet is outstanding. -/
theorem lost_packet_stays_in_seq_round_map :
    Regular firstLost ∧
    ((tryRun step (.new 100000 false ⟨fun _ => 2, 0⟩) firstLost).map fun s =>
      (s.rtt.seqTsMap.keys, s.graph.seqRoundMap.keys, s.lastAckSeq, outstanding firstLost s)) =
        some ([], [2], 3, []) :=
  ⟨⟨by decide, by decide, by decide⟩, by decide +kernel⟩

end CongestionResponse.ClusterBbr
