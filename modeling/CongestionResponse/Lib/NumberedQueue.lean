import Mathlib.Algebra.BigOperators.Group.List.Basic
import Mathlib.Algebra.GroupWithZero.Nat
import Mathlib.Data.List.Basic

/-! Queues of items with consecutive numbers.

Items enter at the back and leave at the front, so the number of an item never changes.
`get?` finds an item by its number; what an operation does is said by what `get?` gives
afterwards, and by the `total` of a weight over the items. -/
namespace CongestionResponse.Lib

/-- The items of a queue, and the number of the first. -/
structure NumberedQueue (α : Type) where
  first : Nat
  items : List α

namespace NumberedQueue
variable {α : Type} (q : NumberedQueue α)

/-- The number of the next item to enter. -/
def next : Nat := q.first + q.items.length

def get? (n : Nat) : Option α := if q.first ≤ n then q.items[n - q.first]? else none

def modify (n : Nat) (f : α → α) : NumberedQueue α :=
  if q.first ≤ n then {q with items := q.items.modify (n - q.first) f} else q

def push (a : α) : NumberedQueue α := {q with items := q.items ++ [a]}

/-- Let items enter until a number is the next. -/
def fill (a : α) (n : Nat) : NumberedQueue α :=
  {q with items := q.items ++ List.replicate (n - q.next) a}

/-- How many items at the front satisfy `p`, which sees their numbers. -/
def dropCount (p : Nat → α → Bool) : Nat → List α → Nat
  | _, [] => 0
  | n, a :: rest => if p n a then dropCount p (n + 1) rest + 1 else 0

/-- Let items leave while the first satisfies `p`. -/
def dropWhile (p : Nat → α → Bool) : NumberedQueue α :=
  let k := dropCount p q.first q.items
  ⟨q.first + k, q.items.drop k⟩

def total (w : α → Nat) : Nat := (q.items.map w).sum

variable {q} {n m : Nat} {a b : α} {f : α → α}

/-! ### Finding items -/

theorem get?_isSome : (q.get? n).isSome ↔ q.first ≤ n ∧ n < q.next := by
  unfold get? next
  split
  · rw [isSome_getElem?]
    omega
  · simp only [Option.isSome_none, Bool.false_eq_true, false_iff]
    omega

theorem exists_get? (hfirst : q.first ≤ n) (hnext : n < q.next) : ∃ a, q.get? n = some a :=
  Option.isSome_iff_exists.mp (get?_isSome.mpr ⟨hfirst, hnext⟩)

theorem bounds (h : q.get? n = some a) : q.first ≤ n ∧ n < q.next :=
  get?_isSome.mp (h ▸ rfl)

/-! ### Changing an item -/

@[simp] theorem first_modify : (q.modify n f).first = q.first := by
  unfold modify
  split <;> rfl

@[simp] theorem next_modify : (q.modify n f).next = q.next := by
  unfold modify next
  split
  · simp only [List.length_modify]
  · rfl

theorem get?_modify (q : NumberedQueue α) (n m : Nat) (f : α → α) :
    (q.modify n f).get? m = if m = n then (q.get? n).map f else q.get? m := by
  unfold modify
  split
  · rename_i hn
    unfold get?
    by_cases hm : q.first ≤ m
    · rw [if_pos hm, if_pos hn, if_pos hm]
      by_cases heq : m = n
      · subst heq
        rw [if_pos rfl]
        exact List.getElem?_modify_eq ..
      · rw [if_neg heq]
        exact List.getElem?_modify_ne _ _ (show n - q.first ≠ m - q.first by omega)
    · have hne : m ≠ n := fun heq => hm (heq ▸ hn)
      rw [if_neg hm, if_neg hm, if_neg hne]
  · rename_i hn
    split
    · rename_i heq
      subst heq
      rw [get?, if_neg hn]
      rfl
    · rfl

theorem sum_modify (w : α → Nat) {items : List α} {i : Nat} (h : items[i]? = some a) :
    ((items.modify i f).map w).sum + w a = (items.map w).sum + w (f a) := by
  induction items generalizing i with
  | nil => cases h
  | cons b rest ih =>
    cases i with
    | zero =>
      cases h
      rw [List.modify_zero_cons, List.map_cons, List.sum_cons, List.map_cons, List.sum_cons]
      omega
    | succ i =>
      have hrest := ih (i := i) h
      rw [List.modify_succ_cons, List.map_cons, List.sum_cons, List.map_cons, List.sum_cons]
      omega

theorem total_modify (w : α → Nat) (h : q.get? n = some a) :
    (q.modify n f).total w + w a = q.total w + w (f a) := by
  have hfirst := (bounds h).1
  rw [get?, if_pos hfirst] at h
  unfold modify total
  rw [if_pos hfirst]
  exact sum_modify w h

/-! ### Entering -/

@[simp] theorem next_push : (q.push a).next = q.next + 1 := by
  rw [next, push, List.length_append, List.length_singleton, ← Nat.add_assoc]
  rfl

theorem get?_push (q : NumberedQueue α) (a : α) (n : Nat) :
    (q.push a).get? n = if n = q.next then some a else q.get? n := by
  unfold get? push next
  by_cases hn : q.first ≤ n
  · simp only [if_pos hn, List.getElem?_append]
    split
    · rw [if_neg (by omega)]
    · by_cases heq : n = q.first + q.items.length
      · rw [if_pos heq, heq, Nat.add_sub_cancel_left, Nat.sub_self]
        rfl
      · rw [if_neg heq, List.getElem?_eq_none (by rw [List.length_singleton]; omega),
          List.getElem?_eq_none (by omega)]
  · simp only [if_neg hn]
    rw [if_neg (by omega)]

theorem total_push (w : α → Nat) : (q.push a).total w = q.total w + w a := by
  simp [total, push]

theorem get?_fill (q : NumberedQueue α) (a : α) (n m : Nat) :
    (q.fill a n).get? m = if q.next ≤ m ∧ m < n then some a else q.get? m := by
  unfold get? fill next
  by_cases hm : q.first ≤ m
  · simp only [if_pos hm, List.getElem?_append]
    split
    · rw [if_neg (by omega)]
    · rw [List.getElem?_replicate]
      by_cases hn : q.first + q.items.length ≤ m ∧ m < n
      · rw [if_pos hn, if_pos (by omega)]
      · rw [if_neg hn, if_neg (by omega), List.getElem?_eq_none (by omega)]
  · simp only [if_neg hm]
    rw [if_neg (by omega)]

theorem next_fill (h : q.next ≤ n) : (q.fill a n).next = n := by
  simp only [fill, next, List.length_append, List.length_replicate] at h ⊢
  omega

/-- Items of no weight may enter. -/
theorem total_fill {w : α → Nat} (h : w a = 0) : (q.fill a n).total w = q.total w := by
  simp [fill, total, h]

/-! ### Leaving -/

section Leaving
variable {p : Nat → α → Bool}

theorem dropCount_le (p : Nat → α → Bool) (n : Nat) (items : List α) :
    dropCount p n items ≤ items.length := by
  induction items generalizing n with
  | nil => exact Nat.le_refl 0
  | cons a rest ih =>
    unfold dropCount
    split
    · exact Nat.succ_le_succ (ih _)
    · exact Nat.zero_le _

theorem of_lt_dropCount {items : List α} {i : Nat} (h : i < dropCount p n items)
    (ha : items[i]? = some a) : p (n + i) a = true := by
  induction items generalizing n i with
  | nil => cases ha
  | cons b rest ih =>
    unfold dropCount at h
    split at h
    · rename_i hb
      cases i with
      | zero =>
        cases ha
        exact hb
      | succ i =>
        rw [← Nat.add_assoc, Nat.add_right_comm]
        exact ih (Nat.lt_of_succ_lt_succ h) ha
    · cases h

/-- The first item that does not leave does not satisfy `p`. -/
theorem of_dropCount {items : List α} (ha : items[dropCount p n items]? = some a) :
    p (n + dropCount p n items) a = false := by
  induction items generalizing n with
  | nil => cases ha
  | cons b rest ih =>
    unfold dropCount at ha ⊢
    split at ha
    · rename_i hb
      rw [if_pos hb, ← Nat.add_assoc, Nat.add_right_comm]
      exact ih ha
    · rename_i hb
      rw [if_neg hb]
      cases ha
      exact Bool.eq_false_iff.mpr hb

theorem first_le_dropWhile : q.first ≤ (q.dropWhile p).first := Nat.le_add_right _ _

@[simp] theorem next_dropWhile : (q.dropWhile p).next = q.next := by
  have hle := dropCount_le p q.first q.items
  simp only [next, dropWhile, List.length_drop]
  omega

theorem get?_dropWhile (q : NumberedQueue α) (p : Nat → α → Bool) (n : Nat) :
    (q.dropWhile p).get? n = if (q.dropWhile p).first ≤ n then q.get? n else none := by
  unfold get?
  split
  · rename_i hn
    have hfirst : q.first ≤ n := Nat.le_trans first_le_dropWhile hn
    simp only [dropWhile] at hn ⊢
    rw [if_pos hfirst, List.getElem?_drop]
    congr 1
    omega
  · rfl

/-- What is found after items have left was found before. -/
theorem get?_of_dropWhile (h : (q.dropWhile p).get? n = some a) : q.get? n = some a := by
  rw [get?_dropWhile] at h
  split at h
  · exact h
  · cases h

/-- An item that is not found any more satisfied `p`. -/
theorem of_dropped (h : q.get? n = some a) (hn : n < (q.dropWhile p).first) : p n a = true := by
  have hfirst := (bounds h).1
  rw [get?, if_pos hfirst] at h
  have hcount : n - q.first < dropCount p q.first q.items := by
    simp only [dropWhile] at hn
    omega
  have hp := of_lt_dropCount hcount h
  rwa [Nat.add_sub_cancel' hfirst] at hp

/-- The item that is then first is one to keep. -/
theorem of_first_dropWhile (h : (q.dropWhile p).get? (q.dropWhile p).first = some a) :
    p (q.dropWhile p).first a = false := by
  have hfirst : q.first ≤ (q.dropWhile p).first := first_le_dropWhile
  have h := get?_of_dropWhile h
  rw [get?, if_pos hfirst] at h
  simp only [dropWhile, Nat.add_sub_cancel_left] at h ⊢
  exact of_dropCount h

/-- Items of no weight leave the total as it is. -/
theorem total_dropWhile {w : α → Nat} (h : ∀ n a, p n a = true → w a = 0) :
    (q.dropWhile p).total w = q.total w := by
  have hzero : ∀ (items : List α) (n : Nat),
      ((items.drop (dropCount p n items)).map w).sum = (items.map w).sum := by
    intro items
    induction items with
    | nil => exact fun _ => rfl
    | cons a rest ih =>
      intro n
      unfold dropCount
      split
      · rename_i ha
        rw [List.drop_succ_cons, ih, List.map_cons, List.sum_cons, h n a ha, Nat.zero_add]
      · rfl
  exact hzero q.items q.first

end Leaving
end NumberedQueue
end CongestionResponse.Lib
