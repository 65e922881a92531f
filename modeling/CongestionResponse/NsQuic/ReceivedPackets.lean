import CongestionResponse.Framer.Frames

/-! `PacketNumberQueue` and `QuicReceivedPacketManager`: which packets a receiver has seen
and still has to acknowledge.

The queue keeps intervals in ascending order that neither meet nor touch, and works on them
from both ends. What it stands for is a set of packet numbers: `mem_add` and
`mem_removeUpTo` say what the two operations do to that set, and the intervals stay
separated by the type. -/
namespace CongestionResponse.Framer

/-! ### Intervals -/

def Interval.Contains (i : Interval) (n : Nat) : Prop := i.min ≤ n ∧ n < i.max

instance (i : Interval) (n : Nat) : Decidable (i.Contains n) := inferInstanceAs (Decidable (_ ∧ _))

/-- The interval of one packet. -/
def Interval.single (n : Nat) : Interval := ⟨n, n + 1, Nat.lt_succ_self n⟩

/-- Ascending, and neither meeting nor touching. -/
def Separated (is : List Interval) : Prop := is.Pairwise fun i j => i.max < j.min

/-- Some interval contains the number. -/
def Covers (is : List Interval) (n : Nat) : Prop := ∃ i ∈ is, i.Contains n

section Covers
variable {i : Interval} {is js : List Interval} {n : Nat}

theorem not_covers_nil : ¬Covers [] n := by
  intro hcovers
  obtain ⟨_, hi, _⟩ := hcovers
  exact List.not_mem_nil hi

theorem covers_cons : Covers (i :: is) n ↔ i.Contains n ∨ Covers is n := by
  simp only [Covers, List.mem_cons, exists_eq_or_imp]

theorem covers_append : Covers (is ++ js) n ↔ Covers is n ∨ Covers js n := by
  simp only [Covers, List.mem_append, or_and_right, exists_or]

theorem covers_reverse : Covers is.reverse n ↔ Covers is n := by
  simp only [Covers, List.mem_reverse]

theorem contains_single {m : Nat} : (Interval.single n).Contains m ↔ m = n := by
  simp only [Interval.Contains, Interval.single]
  omega

theorem separated_reverse :
    Separated is.reverse ↔ is.Pairwise fun i j => j.max < i.min := List.pairwise_reverse

end Covers

/-! ### `PacketNumberQueue::Add` -/

section Bounds
variable {i j : Interval} {n : Nat}

theorem Interval.min_lt_of_max_eq (h : i.max = n) : i.min < n + 1 := by
  have := i.nonempty
  omega

theorem Interval.lt_max_of_min_eq (h : i.min = n + 1) : n < i.max := by
  have := i.nonempty
  omega

theorem Interval.min_lt_max_of_between (h : i.min = n + 1) (hj : n = j.max) : j.min < i.max := by
  have := i.nonempty
  have := j.nonempty
  omega

end Bounds

/-- The loop over the deque, from the newest interval to the oldest. -/
def addBackwards (n : Nat) : List Interval → List Interval
  | [] => []
  | i :: older =>
    if i.Contains n then i :: older
    else if h : i.max = n then ⟨i.min, n + 1, Interval.min_lt_of_max_eq h⟩ :: older
    else if h : i.min = n + 1 then
      match older with
      | [] => [⟨n, i.max, Interval.lt_max_of_min_eq h⟩]
      | j :: rest =>
        if hj : n = j.max then
          ⟨j.min, i.max, Interval.min_lt_max_of_between h hj⟩ :: rest
        else ⟨n, i.max, Interval.lt_max_of_min_eq h⟩ :: j :: rest
    else if i.max < n + 1 then .single n :: i :: older
    else i :: addBackwards n older

/-- `Add` on the intervals: at the back, at the front, or in between. -/
def addNumber (n : Nat) (is : List Interval) : List Interval :=
  match is.reverse with
  | [] => [.single n]
  | back :: older =>
    if h : back.max = n then
      (⟨back.min, n + 1, Interval.min_lt_of_max_eq h⟩ :: older : List Interval).reverse
    else if back.max < n then is ++ [.single n]
    else
      match is with
      | [] => []
      | front :: rest =>
        if n + 1 < front.min then .single n :: front :: rest
        else if h : front.min = n + 1 then
          ⟨n, front.max, Interval.lt_max_of_min_eq h⟩ :: rest
        else (addBackwards n (back :: older)).reverse

section Add
variable {n : Nat} {is : List Interval}

/-- Numbers below a bound stay below it. -/
theorem addBackwards_below {b : Nat} (hn : n + 1 < b) (his : ∀ i ∈ is, i.max < b) :
    ∀ i ∈ addBackwards n is, i.max < b := by
  induction is with
  | nil => exact his
  | cons i older ih =>
    have hi := his i (List.mem_cons_self ..)
    have holder : ∀ j ∈ older, j.max < b := fun j hj => his j (List.mem_cons_of_mem _ hj)
    unfold addBackwards
    split_ifs with hmem hmax hmin hlow
    · exact his
    · exact List.forall_mem_cons.mpr ⟨hn, holder⟩
    · cases older with
      | nil => exact List.forall_mem_cons.mpr ⟨hi, holder⟩
      | cons j rest =>
        simp only
        split_ifs
        · exact List.forall_mem_cons.mpr ⟨hi, (List.forall_mem_cons.mp holder).2⟩
        · exact List.forall_mem_cons.mpr ⟨hi, holder⟩
    · exact List.forall_mem_cons.mpr ⟨hn, his⟩
    · exact List.forall_mem_cons.mpr ⟨hi, ih holder⟩

/-- The newest-first list stays in order. -/
theorem addBackwards_separated (his : is.Pairwise fun i j => j.max < i.min) :
    (addBackwards n is).Pairwise fun i j => j.max < i.min := by
  induction is with
  | nil => exact his
  | cons i older ih =>
    obtain ⟨hi, holder⟩ := List.pairwise_cons.mp his
    have hne := i.nonempty
    unfold addBackwards
    split_ifs with hmem hmax hmin hlow
    · exact his
    · exact List.pairwise_cons.mpr ⟨hi, holder⟩
    · cases older with
      | nil => exact List.pairwise_singleton _ _
      | cons j rest =>
        obtain ⟨hj, hrest⟩ := List.pairwise_cons.mp holder
        have hjne := j.nonempty
        have hji := hi j (List.mem_cons_self ..)
        simp only
        split_ifs with htouch
        · exact List.pairwise_cons.mpr ⟨hj, hrest⟩
        · refine List.pairwise_cons.mpr ⟨?_, holder⟩
          intro k hk
          rcases List.mem_cons.mp hk with rfl | hk
          · simp only
            omega
          · have := hj k hk
            simp only
            omega
    · refine List.pairwise_cons.mpr ⟨?_, his⟩
      intro k hk
      simp only [Interval.single]
      rcases List.mem_cons.mp hk with rfl | hk
      · omega
      · have := hi k hk
        omega
    · -- The new packet is further down.
      have habove : n + 1 < i.min := by
        unfold Interval.Contains at hmem
        omega
      exact List.pairwise_cons.mpr ⟨addBackwards_below habove hi, ih holder⟩

/-- A number that is not below all intervals is added. -/
theorem covers_addBackwards (his : is.Pairwise fun i j => j.max < i.min)
    (hlow : ∃ i ∈ is, i.min ≤ n) (m : Nat) :
    Covers (addBackwards n is) m ↔ m = n ∨ Covers is m := by
  induction is with
  | nil => exact absurd hlow (by simp)
  | cons i older ih =>
    obtain ⟨hi, holder⟩ := List.pairwise_cons.mp his
    have hne := i.nonempty
    unfold addBackwards
    split_ifs with hmem hmax hmin hbelow
    · rw [or_iff_right_of_imp]
      rintro rfl
      exact ⟨i, List.mem_cons_self .., hmem⟩
    · rw [covers_cons, covers_cons, ← or_assoc]
      apply or_congr_left
      simp only [Interval.Contains]
      omega
    · cases older with
      | nil =>
        rw [covers_cons, covers_cons, ← or_assoc]
        apply or_congr_left
        simp only [Interval.Contains]
        omega
      | cons j rest =>
        have hjne := j.nonempty
        simp only
        split_ifs with htouch
        · rw [covers_cons, covers_cons, covers_cons, ← or_assoc, ← or_assoc]
          apply or_congr_left
          simp only [Interval.Contains]
          omega
        · rw [covers_cons, covers_cons (i := i), ← or_assoc]
          apply or_congr_left
          simp only [Interval.Contains]
          omega
    · rw [covers_cons, contains_single]
    · rw [covers_cons, covers_cons, ih holder, or_left_comm]
      obtain ⟨k, hk, hkn⟩ := hlow
      rcases List.mem_cons.mp hk with rfl | hk
      · unfold Interval.Contains at hmem
        omega
      · exact ⟨k, hk, hkn⟩

theorem separated_addNumber (his : Separated is) : Separated (addNumber n is) := by
  unfold addNumber
  cases hreverse : is.reverse with
  | nil => exact List.pairwise_singleton _ _
  | cons back older =>
    have hdown : (back :: older).Pairwise fun i j => j.max < i.min := by
      rw [← hreverse, List.pairwise_reverse]
      exact his
    obtain ⟨hback, holder⟩ := List.pairwise_cons.mp hdown
    have hmem : ∀ i ∈ is, i = back ∨ i ∈ older := by
      intro i hi
      rwa [← List.mem_cons, ← hreverse, List.mem_reverse]
    simp only
    split_ifs with hmax hafter
    · exact separated_reverse.mpr (List.pairwise_cons.mpr ⟨hback, holder⟩)
    · refine List.pairwise_append.mpr ⟨his, List.pairwise_singleton _ _, ?_⟩
      intro i hi j hj
      rw [List.mem_singleton.mp hj]
      simp only [Interval.single]
      rcases hmem i hi with rfl | hi
      · exact hafter
      · have := hback i hi
        have := back.nonempty
        omega
    · cases is with
      | nil => exact List.Pairwise.nil
      | cons front rest =>
        obtain ⟨hfront, hrest⟩ := List.pairwise_cons.mp his
        simp only
        split_ifs with hbefore htouch
        · refine List.pairwise_cons.mpr ⟨?_, his⟩
          intro i hi
          simp only [Interval.single]
          rcases List.mem_cons.mp hi with rfl | hi
          · exact hbefore
          · have := hfront i hi
            have := front.nonempty
            omega
        · exact List.pairwise_cons.mpr ⟨hfront, hrest⟩
        · exact separated_reverse.mpr (addBackwards_separated hdown)

theorem covers_addNumber (his : Separated is) (m : Nat) :
    Covers (addNumber n is) m ↔ m = n ∨ Covers is m := by
  unfold addNumber
  cases hreverse : is.reverse with
  | nil =>
    rw [List.reverse_eq_nil_iff.mp hreverse, covers_cons, contains_single]
  | cons back older =>
    have hne := back.nonempty
    have hcovers : Covers is m ↔ back.Contains m ∨ Covers older m := by
      rw [← covers_cons, ← hreverse, covers_reverse]
    simp only
    split_ifs with hmax hafter
    · rw [covers_reverse, covers_cons, hcovers, ← or_assoc]
      apply or_congr_left
      simp only [Interval.Contains]
      omega
    · rw [covers_append, covers_cons, contains_single, or_iff_left not_covers_nil, or_comm]
    · cases is with
      | nil => cases hreverse
      | cons front rest =>
        have hfront := front.nonempty
        simp only
        split_ifs with hbefore htouch
        · rw [covers_cons, contains_single]
        · rw [covers_cons, covers_cons, ← or_assoc]
          apply or_congr_left
          simp only [Interval.Contains]
          omega
        · have hdown : (back :: older).Pairwise fun i j => j.max < i.min := by
            rw [← hreverse, List.pairwise_reverse]
            exact his
          have hlow : ∃ i ∈ back :: older, i.min ≤ n := by
            refine ⟨front, ?_, by omega⟩
            rw [← hreverse, List.mem_reverse]
            exact List.mem_cons_self ..
          rw [covers_reverse, covers_addBackwards hdown hlow, covers_cons, hcovers]

end Add

/-! ### `PacketNumberQueue::RemoveUpTo` -/

/-- The loop of `RemoveUpTo`, from the oldest interval on. -/
def dropNumbers (higher : Nat) : List Interval → List Interval
  | [] => []
  | front :: rest =>
    if front.max < higher then dropNumbers higher rest
    else if h : front.min < higher ∧ higher ≤ front.max then
      if heq : front.max = higher then rest else ⟨higher, front.max, by omega⟩ :: rest
    else front :: rest

section Remove
variable {higher : Nat} {is : List Interval}

theorem separated_dropNumbers (his : Separated is) : Separated (dropNumbers higher is) := by
  induction is with
  | nil => exact his
  | cons front rest ih =>
    obtain ⟨hfront, hrest⟩ := List.pairwise_cons.mp his
    unfold dropNumbers
    split_ifs
    · exact ih hrest
    · exact hrest
    · exact List.pairwise_cons.mpr ⟨hfront, hrest⟩
    · exact his

theorem covers_dropNumbers (his : Separated is) (m : Nat) :
    Covers (dropNumbers higher is) m ↔ Covers is m ∧ higher ≤ m := by
  induction is with
  | nil => exact ⟨fun h => absurd h not_covers_nil, fun h => absurd h.1 not_covers_nil⟩
  | cons front rest ih =>
    obtain ⟨hfront, hrest⟩ := List.pairwise_cons.mp his
    have hne := front.nonempty
    -- What the later intervals cover lies above the first.
    have habove : Covers rest m → front.max < m := by
      rintro ⟨i, hi, hm, -⟩
      exact (hfront i hi).trans_le hm
    unfold dropNumbers
    rw [covers_cons]
    split_ifs with hbelow hcut heq
    · rw [ih hrest, or_and_right, or_iff_right]
      unfold Interval.Contains
      omega
    · constructor
      · intro h
        exact ⟨.inr h, heq ▸ (habove h).le⟩
      · rintro ⟨h | h, hm⟩
        · exact absurd h.2 (by omega)
        · exact h
    · rw [covers_cons]
      constructor
      · rintro (h | h)
        · exact ⟨.inl ⟨hcut.1.le.trans h.1, h.2⟩, h.1⟩
        · exact ⟨.inr h, hcut.2.trans (habove h).le⟩
      · rintro ⟨h | h, hm⟩
        · exact .inl ⟨hm, h.2⟩
        · exact .inr h
    · rw [covers_cons, iff_self_and]
      rintro (h | h)
      · have := h.1
        omega
      · have := habove h
        omega

end Remove

/-! ### `PacketNumberQueue` -/

namespace PacketNumberQueue

instance : Membership Nat PacketNumberQueue := ⟨fun q n => Covers q.intervals n⟩

theorem mem_def {q : PacketNumberQueue} {n : Nat} : n ∈ q ↔ Covers q.intervals n := Iff.rfl

def empty : PacketNumberQueue := ⟨[], List.Pairwise.nil⟩

theorem not_mem_empty (n : Nat) : n ∉ empty := not_covers_nil

def add (q : PacketNumberQueue) (packetNumber : Nat) : PacketNumberQueue :=
  ⟨addNumber packetNumber q.intervals, separated_addNumber q.separated⟩

@[simp] theorem mem_add {q : PacketNumberQueue} {n m : Nat} : m ∈ q.add n ↔ m = n ∨ m ∈ q :=
  covers_addNumber q.separated m

def min? (q : PacketNumberQueue) : Option Nat := q.intervals.head?.map Interval.min

/-- The queue without the numbers below `higher`, and whether it has changed or is empty. -/
def removeUpTo (q : PacketNumberQueue) (higher : Nat) : Bool × PacketNumberQueue :=
  if q.intervals.isEmpty then (false, q)
  else
    let left : PacketNumberQueue :=
      ⟨dropNumbers higher q.intervals, separated_dropNumbers q.separated⟩
    (left.intervals.isEmpty || left.min? != q.min?, left)

@[simp] theorem mem_removeUpTo {q : PacketNumberQueue} {higher m : Nat} :
    m ∈ (q.removeUpTo higher).2 ↔ m ∈ q ∧ higher ≤ m := by
  unfold removeUpTo
  split
  · rename_i hempty
    have hnone : m ∉ q := by
      rw [mem_def, List.isEmpty_iff.mp hempty]
      exact not_covers_nil
    exact ⟨fun h => absurd h hnone, fun h => absurd h.1 hnone⟩
  · exact covers_dropNumbers q.separated m

/-- The first and the last interval are looked at before the others. -/
def contains (q : PacketNumberQueue) (packetNumber : Nat) : Bool :=
  match q.intervals.head?, q.intervals.getLast? with
  | some front, some back =>
    if packetNumber < front.min ∨ back.max ≤ packetNumber then false
    else q.intervals.any fun i => decide (i.Contains packetNumber)
  | _, _ => false

theorem head_le {q : PacketNumberQueue} {front : Interval} (h : q.intervals.head? = some front)
    {n : Nat} (hn : n ∈ q) : front.min ≤ n := by
  obtain ⟨i, hi, hin, -⟩ := hn
  have hsep := q.separated
  obtain ⟨rest, hcons⟩ := List.head?_eq_some_iff.mp h
  rw [hcons] at hi hsep
  rcases List.mem_cons.mp hi with rfl | hi
  · exact hin
  · exact (front.nonempty.trans ((List.pairwise_cons.mp hsep).1 i hi)).le.trans hin

theorem lt_last {q : PacketNumberQueue} {back : Interval} (h : q.intervals.getLast? = some back)
    {n : Nat} (hn : n ∈ q) : n < back.max := by
  obtain ⟨i, hi, -, hin⟩ := hn
  have hsep := q.separated
  obtain ⟨older, happend⟩ := List.getLast?_eq_some_iff.mp h
  rw [happend] at hi hsep
  rcases List.mem_append.mp hi with hi | hi
  · have hlt := (List.pairwise_append.mp hsep).2.2 i hi back (List.mem_singleton_self back)
    exact hin.trans (hlt.trans back.nonempty)
  · rw [← List.mem_singleton.mp hi]
    exact hin

theorem contains_iff {q : PacketNumberQueue} {n : Nat} : q.contains n = true ↔ n ∈ q := by
  have hany : q.intervals.any (fun i => decide (i.Contains n)) = true ↔ n ∈ q := by
    simp [mem_def, Covers]
  unfold contains
  split
  · rename_i front back hfront hback
    split_ifs with hout
    · refine ⟨fun h => (by cases h), fun hn => ?_⟩
      have := head_le hfront hn
      have := lt_last hback hn
      omega
    · exact hany
  · rename_i hnone
    refine ⟨fun h => (by cases h), ?_⟩
    rintro ⟨i, hi, -⟩
    have hne := List.ne_nil_of_mem hi
    exact absurd (List.getLast?_eq_some_getLast hne) (hnone _ _ (List.head?_eq_some_head hne))

end PacketNumberQueue
end CongestionResponse.Framer

namespace CongestionResponse.NsQuic
open Quic Framer

/-! ### `QuicReceivedPacketManager` -/

/-- What the manager keeps. It saves no timestamps and has no limit on the ack ranges, and
the statistics are left out. -/
structure QuicReceivedPacketManager where
  peerLeastPacketAwaitingAck : Nat
  ackFrame : QuicAckFrame
  ackFrameUpdated : Bool
  timeLargestObserved : Int

namespace QuicReceivedPacketManager

def new : QuicReceivedPacketManager := ⟨0, ⟨0, Delta.infinite, .empty⟩, false, 0⟩

def isAwaitingPacket (m : QuicReceivedPacketManager) (packetNumber : Nat) : Bool :=
  decide (m.peerLeastPacketAwaitingAck ≤ packetNumber) &&
    !m.ackFrame.packets.contains packetNumber

def recordPacketReceived (m : QuicReceivedPacketManager) (packetNumber : Nat) (receiptTime : Int) :
    QuicReceivedPacketManager :=
  {m with
    ackFrameUpdated := true
    timeLargestObserved :=
      if m.ackFrame.largestAcked < packetNumber then receiptTime else m.timeLargestObserved
    ackFrame := {m.ackFrame with
      largestAcked :=
        if m.ackFrame.largestAcked < packetNumber then packetNumber else m.ackFrame.largestAcked
      packets := m.ackFrame.packets.add packetNumber}}

/-- The manager with its ack frame ready to be sent. -/
def getUpdatedAckFrame (m : QuicReceivedPacketManager) (approximateNow : Int) :
    QuicReceivedPacketManager :=
  {m with
    ackFrameUpdated := false
    ackFrame := {m.ackFrame with
      ackDelayTime :=
        if m.timeLargestObserved = 0 then Delta.infinite
        else if approximateNow < m.timeLargestObserved then 0
        else approximateNow - m.timeLargestObserved}}

def dontWaitForPacketsBefore (m : QuicReceivedPacketManager) (leastUnacked : Nat) :
    QuicReceivedPacketManager :=
  if m.peerLeastPacketAwaitingAck < leastUnacked then
    let removed := m.ackFrame.packets.removeUpTo leastUnacked
    {m with
      peerLeastPacketAwaitingAck := leastUnacked
      ackFrame := {m.ackFrame with packets := removed.2}
      ackFrameUpdated := removed.1 || m.ackFrameUpdated}
  else m

section Fields
variable (m : QuicReceivedPacketManager)

@[simp] theorem largestAcked_recordPacketReceived (n : Nat) (t : Int) :
    (m.recordPacketReceived n t).ackFrame.largestAcked = max m.ackFrame.largestAcked n := by
  simp only [recordPacketReceived]
  split <;> omega

@[simp] theorem mem_recordPacketReceived {n k : Nat} {t : Int} :
    k ∈ (m.recordPacketReceived n t).ackFrame.packets ↔ k = n ∨ k ∈ m.ackFrame.packets :=
  PacketNumberQueue.mem_add

@[simp] theorem largestAcked_dontWaitForPacketsBefore (n : Nat) :
    (m.dontWaitForPacketsBefore n).ackFrame.largestAcked = m.ackFrame.largestAcked := by
  unfold dontWaitForPacketsBefore
  split <;> rfl

theorem mem_dontWaitForPacketsBefore {n k : Nat} :
    k ∈ (m.dontWaitForPacketsBefore n).ackFrame.packets ↔
      k ∈ m.ackFrame.packets ∧ (m.peerLeastPacketAwaitingAck < n → n ≤ k) := by
  unfold dontWaitForPacketsBefore
  split
  · rename_i hlt
    simp only [PacketNumberQueue.mem_removeUpTo, hlt, true_implies]
  · rename_i hle
    simp only [hle, false_implies, and_true]

@[simp] theorem peerLeast_dontWaitForPacketsBefore (n : Nat) :
    (m.dontWaitForPacketsBefore n).peerLeastPacketAwaitingAck =
      max m.peerLeastPacketAwaitingAck n := by
  unfold dontWaitForPacketsBefore
  split
  · simp only
    omega
  · omega

theorem isAwaitingPacket_iff {n : Nat} :
    m.isAwaitingPacket n = true ↔
      m.peerLeastPacketAwaitingAck ≤ n ∧ n ∉ m.ackFrame.packets := by
  rw [isAwaitingPacket, Bool.and_eq_true, decide_eq_true_iff, Bool.not_eq_true', ← Bool.not_eq_true,
    PacketNumberQueue.contains_iff]

end Fields
end QuicReceivedPacketManager
end CongestionResponse.NsQuic
