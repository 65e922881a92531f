import CongestionResponse.SentPackets.Manager

/-! Which packets an ack frame newly acknowledges.

The ranges of a frame come from the largest down, and so does the iterator over the numbers that
were acked before, which is never set back within a frame. `newlyAcked` merges the two: from one
range it takes the numbers no interval contains, and leaves the intervals that may matter for
the ranges below. So after a whole frame `packets_acked_` holds exactly the numbers of the frame
that are tracked and were not acked before, the largest first. -/
namespace CongestionResponse.SentPackets
open Quic Framer

/-- The ranges of an ack frame: none is empty, and each lies below the one before. -/
structure Ranges (ranges : List (Nat × Nat)) : Prop where
  nonempty : ∀ r ∈ ranges, r.1 < r.2
  descend : ranges.Pairwise fun r r' => r'.2 ≤ r.1

instance (ranges : List (Nat × Nat)) : Decidable (Ranges ranges) :=
  decidable_of_iff ((∀ r ∈ ranges, r.1 < r.2) ∧ ranges.Pairwise fun r r' => r'.2 ≤ r.1)
    ⟨fun h => ⟨h.1, h.2⟩, fun h => ⟨h.nonempty, h.descend⟩⟩

def InRanges (ranges : List (Nat × Nat)) (n : Nat) : Prop := ∃ r ∈ ranges, r.1 ≤ n ∧ n < r.2

instance (ranges : List (Nat × Nat)) (n : Nat) : Decidable (InRanges ranges n) :=
  inferInstanceAs (Decidable (∃ r ∈ ranges, _))

namespace QuicSentPacketManager
variable {φ σ : Type}

/-! ### One range -/

section Range
variable {start stop n : Nat} {i : Interval} {is : List Interval}

theorem mem_descending : n ∈ descending start stop ↔ start ≤ n ∧ n < stop := by
  simp only [descending, List.mem_reverse, List.mem_range'_1]
  omega

theorem pairwise_descending (start stop : Nat) : (descending start stop).Pairwise (· > ·) :=
  List.pairwise_reverse.mpr List.pairwise_lt_range'

/-- An interval that comes after others of the iterator lies below them. -/
theorem covers_lt (his : (i :: is).Pairwise fun i j => j.max < i.min) (h : Covers is n) :
    n < i.min := by
  obtain ⟨j, hj, hn⟩ := h
  have hlt := List.rel_of_pairwise_cons his hj
  have := hn.2
  omega

theorem mem_newlyAcked (his : is.Pairwise fun i j => j.max < i.min) :
    n ∈ (newlyAcked start is stop).1 ↔ (start ≤ n ∧ n < stop) ∧ ¬Covers is n := by
  induction is generalizing stop with
  | nil =>
    rw [newlyAcked, mem_descending]
    exact (and_iff_left not_covers_nil).symm
  | cons i older ih =>
    have hbelow := covers_lt (n := n) his
    have hcontains : i.Contains n ↔ i.min ≤ n ∧ n < i.max := Iff.rfl
    have holder : n ∈ (newlyAcked start older (min stop i.min)).1 ↔
        (start ≤ n ∧ n < min stop i.min) ∧ ¬Covers older n := ih his.of_cons
    have hne := i.nonempty
    unfold newlyAcked
    rw [covers_cons, hcontains]
    dsimp only
    -- A number that an older interval covers lies below this one.
    split
    · rw [mem_descending, Nat.max_le]
      by_cases hcovers : Covers older n
      · have := hbelow hcovers
        omega
      · simp only [hcovers, or_false]
        omega
    · split
      · rw [List.mem_append, mem_descending, Nat.max_le, holder, Nat.lt_min]
        by_cases hcovers : Covers older n
        · have := hbelow hcovers
          simp only [hcovers, not_true_eq_false, and_false, or_false, or_true, iff_false]
          omega
        · simp only [hcovers, or_false, not_false_eq_true, and_true]
          omega
      · rename_i hend
        rw [Nat.lt_min] at hend
        rw [mem_descending, Nat.max_le]
        by_cases hcovers : Covers older n
        · have := hbelow hcovers
          simp only [hcovers, or_true, not_true_eq_false, and_false, iff_false]
          omega
        · simp only [hcovers, or_false]
          omega

theorem pairwise_newlyAcked (his : is.Pairwise fun i j => j.max < i.min) :
    (newlyAcked start is stop).1.Pairwise (· > ·) := by
  induction is generalizing stop with
  | nil => exact pairwise_descending start stop
  | cons i older ih =>
    unfold newlyAcked
    dsimp only
    split
    · exact pairwise_descending _ _
    · split
      · refine List.pairwise_append.mpr ⟨pairwise_descending _ _, ih his.of_cons, ?_⟩
        intro a ha b hb
        have habove := mem_descending.mp ha
        have hlow := ((mem_newlyAcked his.of_cons).mp hb).1.2
        have hne := i.nonempty
        omega
      · exact pairwise_descending _ _

/-- The intervals that are passed lie at or above the start of the range. -/
theorem newlyAcked_rest (start : Nat) (is : List Interval) (stop : Nat) :
    ∃ passed, is = passed ++ (newlyAcked start is stop).2 ∧ ∀ i ∈ passed, start ≤ i.min := by
  induction is generalizing stop with
  | nil => exact ⟨[], rfl, fun _ hi => absurd hi List.not_mem_nil⟩
  | cons i older ih =>
    unfold newlyAcked
    dsimp only
    split
    · exact ⟨[], rfl, fun _ hi => absurd hi List.not_mem_nil⟩
    · rename_i hstart
      have hi : start ≤ i.min := Nat.not_lt.mp hstart
      split
      · obtain ⟨passed, holder, hpassed⟩ := ih (min stop i.min)
        exact ⟨i :: passed, congrArg (i :: ·) holder, List.forall_mem_cons.mpr ⟨hi, hpassed⟩⟩
      · exact ⟨[i], rfl, List.forall_mem_singleton.mpr hi⟩

end Range

/-! ### A frame -/

def onAckRanges (s : QuicSentPacketManager φ σ) (ranges : List (Nat × Nat)) :
    QuicSentPacketManager φ σ :=
  ranges.foldl (fun s r => s.onAckRange r.1 r.2) s

/-- The state after some ranges. -/
def ranged (s : QuicSentPacketManager φ σ) (largestAcked frameLargestAcked : Nat)
    (numbers : List Nat) (iter : List Interval) : QuicSentPacketManager φ σ :=
  {s with
    unackedPackets := s.unackedPackets.increaseLargestAcked largestAcked
    lastAckFrame := {s.lastAckFrame with largestAcked := frameLargestAcked}
    packetsAcked := s.packetsAcked ++ numbers.map fun n => ⟨n, 0⟩
    ackedPacketsIter := iter}

/-- The manager and its packets agree on the largest number that was acked. -/
def Level (s : QuicSentPacketManager φ σ) : Prop :=
  s.lastAckFrame.largestAcked = s.unackedPackets.largestAcked

/-- What the ranges `done` of a frame change: `numbers` are those found, and the iterator `iter`
has passed only intervals above the ranges that are left. -/
structure Ranged (s s' : QuicSentPacketManager φ σ) (done : List (Nat × Nat)) (numbers : List Nat)
    (iter : List Interval) (bound : Nat) : Prop where
  level : s.Level → s'.Level ∧ s.unackedPackets.largestAcked ≤ s'.unackedPackets.largestAcked ∧
    ∀ r ∈ done, r.2 ≤ s'.unackedPackets.largestAcked + 1
  eq : ∃ largestAcked frameLargestAcked,
    s' = s.ranged largestAcked frameLargestAcked numbers iter
  mem : ∀ n, n ∈ numbers ↔
    InRanges done n ∧ s.getLeastUnacked ≤ n ∧ ¬Covers s.ackedPacketsIter n
  sorted : numbers.Pairwise (· > ·)
  above : ∀ n ∈ numbers, bound ≤ n
  iter : ∃ passed, s.ackedPacketsIter = passed ++ iter ∧ ∀ i ∈ passed, bound ≤ i.min

section Frame
variable {s s' : QuicSentPacketManager φ σ} {done : List (Nat × Nat)} {numbers : List Nat}
  {iter : List Interval} {bound start stop : Nat}

theorem Ranged.refl (s : QuicSentPacketManager φ σ) (bound : Nat) :
    Ranged s s [] [] s.ackedPacketsIter bound where
  level h := ⟨h, Nat.le_refl _, fun _ hr => absurd hr List.not_mem_nil⟩
  eq := by
    refine ⟨s.unackedPackets.largestAcked, s.lastAckFrame.largestAcked, ?_⟩
    rw [ranged, List.map_nil, List.append_nil]
    rfl
  mem n := by simp [InRanges]
  sorted := List.Pairwise.nil
  above := fun _ hn => absurd hn List.not_mem_nil
  iter := ⟨[], rfl, fun _ hi => absurd hi List.not_mem_nil⟩

theorem Ranged.least (h : Ranged s s' done numbers iter bound) :
    s'.getLeastUnacked = s.getLeastUnacked := by
  obtain ⟨_, _, rfl⟩ := h.eq
  rfl

theorem Ranged.ackedPacketsIter (h : Ranged s s' done numbers iter bound) :
    s'.ackedPacketsIter = iter := by
  obtain ⟨_, _, rfl⟩ := h.eq
  rfl

/-- Below the bound the iterator still covers what it did at the start. -/
theorem Ranged.covers (h : Ranged s s' done numbers iter bound) {n : Nat} (hn : n < bound) :
    Covers iter n ↔ Covers s.ackedPacketsIter n := by
  obtain ⟨passed, hiter, hpassed⟩ := h.iter
  rw [hiter, covers_append]
  refine (or_iff_right fun hcovers => ?_).symm
  obtain ⟨i, hi, hcontains⟩ := hcovers
  have := hpassed i hi
  have := hcontains.1
  omega

/-- `largest_acked` may rise. -/
theorem Ranged.raise (h : Ranged s s' done numbers iter bound) {largestAcked : Nat}
    (hle : s'.lastAckFrame.largestAcked ≤ largestAcked) :
    Ranged s (s'.increaseLargestAcked largestAcked) done numbers iter bound := by
  refine ⟨fun hlevel => ?_, ?_, h.mem, h.sorted, h.above, h.iter⟩
  · obtain ⟨hlevel', hmono, hdone⟩ := h.level hlevel
    rw [hlevel'] at hle
    exact ⟨rfl, Nat.le_trans hmono hle,
      fun r hr => Nat.le_trans (hdone r hr) (Nat.succ_le_succ hle)⟩
  · obtain ⟨_, _, rfl⟩ := h.eq
    exact ⟨largestAcked, largestAcked, rfl⟩

/-- The ranges that are left may be further down. -/
theorem Ranged.lower (h : Ranged s s' done numbers iter bound) {bound' : Nat}
    (hle : bound' ≤ bound) : Ranged s s' done numbers iter bound' := by
  obtain ⟨passed, hpassed, hmin⟩ := h.iter
  exact ⟨h.level, h.eq, h.mem, h.sorted, fun n hn => Nat.le_trans hle (h.above n hn), passed,
    hpassed, fun i hi => Nat.le_trans hle (hmin i hi)⟩

theorem inRanges_concat {n : Nat} : InRanges (done ++ [(start, stop)]) n ↔
    InRanges done n ∨ start ≤ n ∧ n < stop := by
  simp only [InRanges, List.mem_append, List.mem_singleton, or_and_right, exists_or,
    exists_eq_left]

/-- The next range adds the numbers of it that were not acked before. -/
theorem Ranged.add (h : Ranged s s' done numbers iter bound)
    (hiter : s.ackedPacketsIter.Pairwise fun i j => j.max < i.min) (hrange : start < stop)
    (hbound : stop ≤ bound) (hlargest : stop ≤ s'.lastAckFrame.largestAcked + 1) :
    ∃ found iter', Ranged s (s'.addNewlyAcked start stop) (done ++ [(start, stop)])
      (numbers ++ found) iter' start := by
  have hlevel : s.Level → s'.Level ∧
      s.unackedPackets.largestAcked ≤ s'.unackedPackets.largestAcked ∧
      ∀ r ∈ done ++ [(start, stop)], r.2 ≤ s'.unackedPackets.largestAcked + 1 := by
    intro hlevel
    obtain ⟨hlevel', hmono, hdone⟩ := h.level hlevel
    refine ⟨hlevel', hmono, fun r hr => ?_⟩
    rcases List.mem_append.mp hr with hr | hr
    · exact hdone r hr
    · rw [List.mem_singleton.mp hr, ← hlevel']
      exact hlargest
  unfold addNewlyAcked
  rw [h.least, h.ackedPacketsIter]
  split
  · rename_i hleast
    have hlower : Ranged s s' done numbers iter start := h.lower (by omega)
    refine ⟨[], iter, ?_⟩
    rw [List.append_nil]
    refine ⟨hlevel, hlower.eq, fun n => ?_, hlower.sorted, hlower.above, hlower.iter⟩
    -- All numbers of the range are below the packets that are tracked.
    rw [h.mem n, inRanges_concat, or_and_right, or_iff_left (a := InRanges done n ∧ _)]
    rintro ⟨hn, hle, -⟩
    omega
  · obtain ⟨passed, hpassed, hpassedMin⟩ := h.iter
    have hiter' : iter.Pairwise fun i j => j.max < i.min := by
      rw [hpassed] at hiter
      exact (List.pairwise_append.mp hiter).2.1
    obtain ⟨passed', hpassed', hpassedMin'⟩ :=
      newlyAcked_rest (max start s.getLeastUnacked) iter stop
    have hfound : ∀ n, n ∈ (newlyAcked (max start s.getLeastUnacked) iter stop).1 ↔
        (start ≤ n ∧ n < stop) ∧ s.getLeastUnacked ≤ n ∧ ¬Covers s.ackedPacketsIter n := by
      intro n
      rw [mem_newlyAcked hiter', Nat.max_le]
      constructor
      · rintro ⟨⟨⟨hstart, hleast⟩, hstop⟩, hcovers⟩
        rw [h.covers (by omega)] at hcovers
        exact ⟨⟨hstart, hstop⟩, hleast, hcovers⟩
      · rintro ⟨⟨hstart, hstop⟩, hleast, hcovers⟩
        rw [← h.covers (by omega)] at hcovers
        exact ⟨⟨⟨hstart, hleast⟩, hstop⟩, hcovers⟩
    refine ⟨(newlyAcked (max start s.getLeastUnacked) iter stop).1,
      (newlyAcked (max start s.getLeastUnacked) iter stop).2, hlevel, ?_, fun n => ?_,
      List.pairwise_append.mpr ⟨h.sorted, pairwise_newlyAcked hiter', ?_⟩, ?_,
      passed ++ passed', ?_, ?_⟩
    · obtain ⟨largestAcked, frameLargestAcked, rfl⟩ := h.eq
      refine ⟨largestAcked, frameLargestAcked, ?_⟩
      rw [ranged, ranged, List.map_append, ← List.append_assoc]
    · rw [List.mem_append, h.mem n, hfound n, inRanges_concat, or_and_right]
    · intro a ha b hb
      have habove := h.above a ha
      have hbelow := ((hfound b).mp hb).1.2
      omega
    · intro n hn
      rcases List.mem_append.mp hn with hn | hn
      · have := h.above n hn
        omega
      · exact ((hfound n).mp hn).1.1
    · rw [hpassed, List.append_assoc, ← hpassed']
    · intro i hi
      rcases List.mem_append.mp hi with hi | hi
      · have := hpassedMin i hi
        omega
      · exact Nat.le_trans (Nat.le_max_left ..) (hpassedMin' i hi)

theorem Ranged.onAckRange (h : Ranged s s' done numbers iter bound)
    (hiter : s.ackedPacketsIter.Pairwise fun i j => j.max < i.min) (hrange : start < stop)
    (hbound : stop ≤ bound) :
    ∃ found iter', Ranged s (s'.onAckRange start stop) (done ++ [(start, stop)])
      (numbers ++ found) iter' start := by
  unfold QuicSentPacketManager.onAckRange
  dsimp only
  split
  · refine (h.raise (by omega)).add hiter hrange hbound ?_
    show stop ≤ stop - 1 + 1
    omega
  · exact h.add hiter hrange hbound (by omega)

/-- A whole frame. -/
theorem ranged_onAckRanges {ranges : List (Nat × Nat)} (hranges : Ranges ranges)
    (h : Ranged s s' done numbers iter bound)
    (hiter : s.ackedPacketsIter.Pairwise fun i j => j.max < i.min)
    (hbound : ∀ r ∈ ranges, r.2 ≤ bound) :
    ∃ found iter' bound', Ranged s (s'.onAckRanges ranges) (done ++ ranges) (numbers ++ found)
      iter' bound' := by
  induction ranges generalizing s' done numbers iter bound with
  | nil =>
    refine ⟨[], iter, bound, ?_⟩
    rw [List.append_nil, List.append_nil]
    exact h
  | cons r rest ih =>
    obtain ⟨hne, hnonempty⟩ := List.forall_mem_cons.mp hranges.nonempty
    obtain ⟨hbelow, hdescend⟩ := List.pairwise_cons.mp hranges.descend
    obtain ⟨found, iter₁, h₁⟩ := h.onAckRange hiter hne (hbound r (List.mem_cons_self ..))
    obtain ⟨found', iter₂, bound', h₂⟩ := ih ⟨hnonempty, hdescend⟩ h₁ hbelow
    refine ⟨found ++ found', iter₂, bound', ?_⟩
    rw [List.append_assoc, List.append_assoc] at h₂
    exact h₂

end Frame

theorem exists_bound (ranges : List (Nat × Nat)) : ∃ bound, ∀ r ∈ ranges, r.2 ≤ bound := by
  induction ranges with
  | nil => exact ⟨0, fun _ hr => absurd hr List.not_mem_nil⟩
  | cons r rest ih =>
    obtain ⟨bound, hbound⟩ := ih
    refine ⟨max r.2 bound, List.forall_mem_cons.mpr ⟨Nat.le_max_left .., fun r' hr' => ?_⟩⟩
    exact Nat.le_trans (hbound r' hr') (Nat.le_max_right ..)

/-- The ranges of a frame, from its start on. -/
theorem ranged_frame (c : Config φ σ) (s : QuicSentPacketManager φ σ) (largestAcked : Nat)
    (ackDelayTime ackReceiveTime : Int) {ranges : List (Nat × Nat)} (hranges : Ranges ranges) :
    ∃ numbers iter bound, Ranged (s.onAckFrameStart c largestAcked ackDelayTime ackReceiveTime)
      ((s.onAckFrameStart c largestAcked ackDelayTime ackReceiveTime).onAckRanges ranges) ranges
      numbers iter bound := by
  obtain ⟨bound, hbound⟩ := exists_bound ranges
  have hiter : s.lastAckFrame.packets.intervals.reverse.Pairwise fun i j => j.max < i.min :=
    List.pairwise_reverse.mpr s.lastAckFrame.packets.separated
  exact ranged_onAckRanges hranges (Ranged.refl _ bound) hiter hbound

/-- The numbers of a frame that are new. -/
theorem Ranged.mem_frame {c : Config φ σ} {s s' : QuicSentPacketManager φ σ} {largestAcked : Nat}
    {ackDelayTime ackReceiveTime : Int} {ranges : List (Nat × Nat)} {numbers : List Nat}
    {iter : List Interval} {bound : Nat}
    (h : Ranged (s.onAckFrameStart c largestAcked ackDelayTime ackReceiveTime) s' ranges numbers
      iter bound) (n : Nat) :
    n ∈ numbers ↔ InRanges ranges n ∧ s.getLeastUnacked ≤ n ∧ n ∉ s.lastAckFrame.packets := by
  have hcovers : Covers s.lastAckFrame.packets.intervals.reverse n ↔
    Covers s.lastAckFrame.packets.intervals n := covers_reverse
  rw [PacketNumberQueue.mem_def, ← hcovers]
  exact h.mem n

/-- **An ack frame newly acknowledges the numbers of its ranges that are still tracked and were
not acked before**, each once and the largest first. -/
theorem packetsAcked_onAckRanges (c : Config φ σ) (s : QuicSentPacketManager φ σ)
    (largestAcked : Nat) (ackDelayTime ackReceiveTime : Int) {ranges : List (Nat × Nat)}
    (hranges : Ranges ranges) :
    ∃ numbers : List Nat,
      ((s.onAckFrameStart c largestAcked ackDelayTime ackReceiveTime).onAckRanges
        ranges).packetsAcked = s.packetsAcked ++ numbers.map (fun n => ⟨n, 0⟩) ∧
      numbers.Pairwise (· > ·) ∧
      ∀ n, n ∈ numbers ↔
        InRanges ranges n ∧ s.getLeastUnacked ≤ n ∧ n ∉ s.lastAckFrame.packets := by
  obtain ⟨numbers, iter, bound, h⟩ :=
    ranged_frame c s largestAcked ackDelayTime ackReceiveTime hranges
  refine ⟨numbers, ?_, h.sorted, h.mem_frame⟩
  obtain ⟨_, _, heq⟩ := h.eq
  rw [heq]
  rfl

/-- A controller that always lets the sender send, with round trip times as they are measured. -/
def idleConfig : Config Nat Unit where
  algorithm := {
    onPacketSent := fun _ _ _ _ _ _ _ s => s
    onCongestionEvent := fun _ _ _ s => s
    onRetransmissionTimeout := fun _ _ _ s => s
    canSend := fun _ _ _ _ => true
    bandwidthEstimate := fun _ _ _ => .zero }
  updateRtt := fun _ sendDelta _ _ => ⟨sendDelta, sendDelta, sendDelta⟩
  maxTailLossProbes := 2
  maxRtoPackets := 2
  useNewRto := false
  optimizeInflightCheck := false
  fixAdaptiveTimeLoss := false
  fixMarkForLossRetransmission := false

/-- Seven packets are sent, and the third and the fifth are acked. -/
def someAcked : Option (QuicSentPacketManager Nat Unit) := do
  let sent ← (List.range' 1 7).foldlM (fun s n => s.onPacketSent idleConfig ⟨n, 1000, [n]⟩ 0 n
    .notRetransmission true) (new (.new .nack false false) ())
  ((sent.onAckFrameStart idleConfig 5 0 10).onAckRanges [(5, 6), (3, 4)]).onAckFrameEnd idleConfig
    10 10

theorem someAcked_isSome : someAcked.isSome = true := by decide +kernel

/-- Of the next frame the packets 6, 4 and 2 are new. -/
theorem packetsAcked_between_acked :
    let s := someAcked.get someAcked_isSome
    (s.lastAckFrame.packets.intervals.map fun i => (i.min, i.max)) = [(3, 4), (5, 6)] ∧
    ∃ numbers : List Nat,
      ((s.onAckFrameStart idleConfig 6 0 20).onAckRanges [(4, 7), (2, 4)]).packetsAcked =
        s.packetsAcked ++ numbers.map (fun n => ⟨n, 0⟩) ∧
      numbers = [6, 4, 2] ∧
      ∀ n, n ∈ numbers ↔
        InRanges [(4, 7), (2, 4)] n ∧ s.getLeastUnacked ≤ n ∧ n ∉ s.lastAckFrame.packets := by
  intro s
  obtain ⟨numbers, hacked, -, hmem⟩ := packetsAcked_onAckRanges idleConfig s 6 0 20
    (show Ranges [(4, 7), (2, 4)] by decide)
  have hnew : ((s.onAckFrameStart idleConfig 6 0 20).onAckRanges [(4, 7), (2, 4)]).packetsAcked.map
      AckedPacket.packetNumber = [6, 4, 2] := by decide +kernel
  have hnone : s.packetsAcked = [] := by decide +kernel
  refine ⟨by decide +kernel, numbers, hacked, ?_, hmem⟩
  rw [hacked, hnone] at hnew
  simpa [Function.comp_def] using hnew

end QuicSentPacketManager
end CongestionResponse.SentPackets
