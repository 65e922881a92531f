import Mathlib.Algebra.Order.Group.Defs
import Mathlib.Algebra.BigOperators.Group.List.Basic
import CongestionResponse.Lib.Run

/-! Virtual scheduling: what a due time admits.

Sends of a given cost are admitted against a due time. Each one moves the due time on by
its cost, from the due time or from the time of the send, whichever is later, so time that
was not used is not kept. If every send comes at most `slack` before it is due, the cost of
the sends of any window is at most its length and the slack (`window_le`). -/
namespace CongestionResponse.Lib.VirtualSchedule
variable {α : Type}

structure Send (α : Type) where
  time : α
  cost : α
deriving DecidableEq

/-- The due time after a send. -/
def advance [Add α] [Max α] (due : α) (s : Send α) : α := max (due + s.cost) (s.time + s.cost)

/-- A send at most `slack` before it is due. -/
def OnTime [Add α] [LE α] (slack due : α) (s : Send α) : Prop := due ≤ s.time + slack

variable [AddCommGroup α] [LinearOrder α]

theorem add_cost_le_advance (due : α) (s : Send α) : due + s.cost ≤ advance due s :=
  le_max_left ..

theorem time_add_cost_le_advance (due : α) (s : Send α) : s.time + s.cost ≤ advance due s :=
  le_max_right ..

variable [IsOrderedAddMonoid α] {slack due : α}

/-- The due time moves on by no less than what the sends cost. -/
theorem add_sum_le_run (due : α) (sends : List (Send α)) :
    due + (sends.map Send.cost).sum ≤ run advance due sends := by
  induction sends generalizing due with
  | nil => simp
  | cons s rest ih =>
    calc due + ((s :: rest).map Send.cost).sum
        = due + s.cost + (rest.map Send.cost).sum := by
          rw [List.map_cons, List.sum_cons, add_assoc]
      _ ≤ advance due s + (rest.map Send.cost).sum :=
          add_le_add_left (add_cost_le_advance due s) _
      _ ≤ run advance due (s :: rest) := ih (advance due s)

/-- From one send up to another, the cost is at most the time and the slack. -/
theorem sum_le_of_onTime {first last : Send α} {before between : List (Send α)}
    (h : Along advance (OnTime slack) due (before ++ first :: between ++ [last])) :
    ((first :: between).map Send.cost).sum ≤ last.time - first.time + slack := by
  have hlast : run advance due (before ++ first :: between) ≤ last.time + slack :=
    (along_concat.mp h).2
  rw [run_append, run_cons] at hlast
  have hsum := add_sum_le_run (advance (run advance due before) first) between
  have hfirst := time_add_cost_le_advance (run advance due before) first
  have htotal : first.time + ((first :: between).map Send.cost).sum ≤ last.time + slack :=
    calc first.time + ((first :: between).map Send.cost).sum
        = first.time + first.cost + (between.map Send.cost).sum := by
          rw [List.map_cons, List.sum_cons, add_assoc]
      _ ≤ advance (run advance due before) first + (between.map Send.cost).sum :=
          add_le_add_left hfirst _
      _ ≤ last.time + slack := hsum.trans hlast
  rw [sub_add_eq_add_sub]
  exact le_sub_iff_add_le'.mpr htotal

/-- **The cost of the sends of any window is at most its length and the slack.** -/
theorem window_le {sends : List (Send α)} (h : Along advance (OnTime slack) due sends) {i j : Nat}
    (hij : i < j) (hj : j < sends.length) :
    (((sends.take j).drop i).map Send.cost).sum ≤ sends[j].time - sends[i].time + slack := by
  have hlen : (sends.take j).length = j := List.length_take_of_le hj.le
  have hdrop : (sends.take j).drop i = sends[i] :: (sends.take j).drop (i + 1) := by
    rw [List.drop_eq_getElem_cons (by omega), List.getElem_take]
  have hsplit : sends.take (j + 1) =
      (sends.take j).take i ++ sends[i] :: (sends.take j).drop (i + 1) ++ [sends[j]] := by
    rw [← hdrop, List.take_append_drop, List.take_append_getElem]
  rw [hdrop]
  rw [← List.take_append_drop (j + 1) sends, along_append, hsplit] at h
  exact sum_le_of_onTime h.1

end CongestionResponse.Lib.VirtualSchedule
