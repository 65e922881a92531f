import CongestionResponse.Quic.Units
import Mathlib.Data.List.Induction

/-! The windowed filter: the best, second best and third best sample of a window.

Times are `uint64_t` round numbers, so a time difference that would be negative
wraps around. `compare` decides when a sample is at least as good as another;
`maxFilter` is the one the senders use. -/
namespace CongestionResponse.Quic

structure Sample (T : Type) where
  sample : T
  time : Nat

/-- `best`, `second` and `third` are `estimates_[0]`, `[1]` and `[2]`. -/
structure WindowedFilter (T : Type) where
  windowLength : Nat
  zeroValue : T
  best : Sample T
  second : Sample T
  third : Sample T

/-- `MaxFilter`: the first is greater than or equal to the second. -/
def maxFilter {T : Type} [LinearOrder T] (lhs rhs : T) : Bool := decide (rhs ≤ lhs)

namespace WindowedFilter
variable {T : Type}

def new (windowLength : Nat) (zeroValue : T) (zeroTime : Nat) : WindowedFilter T :=
  ⟨windowLength, zeroValue, ⟨zeroValue, zeroTime⟩, ⟨zeroValue, zeroTime⟩, ⟨zeroValue, zeroTime⟩⟩

/-- Resets all estimates to the new sample. -/
def reset (f : WindowedFilter T) (newSample : T) (newTime : Nat) : WindowedFilter T :=
  {f with
    best := ⟨newSample, newTime⟩, second := ⟨newSample, newTime⟩, third := ⟨newSample, newTime⟩}

def getBest (f : WindowedFilter T) : T := f.best.sample

/-- A sample better than the second or third best replaces it and those after it. -/
def place (compare : T → T → Bool) (f : WindowedFilter T) (new : Sample T) : WindowedFilter T :=
  if compare new.sample f.second.sample then {f with second := new, third := new}
  else if compare new.sample f.third.sample then {f with third := new}
  else f

/-- Expire the best estimates that left the window, or refresh the later ones. -/
def expire [DecidableEq T] (f : WindowedFilter T) (new : Sample T) : WindowedFilter T :=
  if f.windowLength < subU64 new.time f.best.time then
    let g := {f with best := f.second, second := f.third, third := new}
    -- The promoted estimate may be outside the window as well.
    if f.windowLength < subU64 new.time g.best.time then {g with best := g.second, second := g.third}
    else g
  else if f.second.sample = f.best.sample ∧ f.windowLength >>> 2 < subU64 new.time f.second.time then
    {f with second := new, third := new}
  else if f.third.sample = f.second.sample ∧ f.windowLength >>> 1 < subU64 new.time f.third.time then
    {f with third := new}
  else f

/-- `Update`. -/
def update [DecidableEq T] (compare : T → T → Bool) (f : WindowedFilter T) (newSample : T)
    (newTime : Nat) : WindowedFilter T :=
  if f.best.sample = f.zeroValue ∨ compare newSample f.best.sample ∨
      f.windowLength < subU64 newTime f.third.time then
    f.reset newSample newTime
  else
    (f.place compare ⟨newSample, newTime⟩).expire ⟨newSample, newTime⟩

/-- The three estimates, best first. -/
def estimates (f : WindowedFilter T) : List (Sample T) := [f.best, f.second, f.third]

theorem mem_estimates_place (compare : T → T → Bool) (f : WindowedFilter T) (new x : Sample T)
    (h : x ∈ (f.place compare new).estimates) : x ∈ f.estimates ∨ x = new := by
  unfold place at h
  split at h
  · simp only [estimates, List.mem_cons, List.not_mem_nil, or_false] at h ⊢
    tauto
  · split at h
    · simp only [estimates, List.mem_cons, List.not_mem_nil, or_false] at h ⊢
      tauto
    · exact .inl h

theorem mem_estimates_expire [DecidableEq T] (f : WindowedFilter T) (new x : Sample T)
    (h : x ∈ (f.expire new).estimates) : x ∈ f.estimates ∨ x = new := by
  unfold expire at h
  split at h
  · simp only at h
    split at h <;>
    · simp only [estimates, List.mem_cons, List.not_mem_nil, or_false] at h ⊢
      tauto
  · split at h
    · simp only [estimates, List.mem_cons, List.not_mem_nil, or_false] at h ⊢
      tauto
    · split at h
      · simp only [estimates, List.mem_cons, List.not_mem_nil, or_false] at h ⊢
        tauto
      · exact .inl h

/-- An update keeps some of the old estimates and records the new sample: nothing else. -/
theorem mem_estimates_update [DecidableEq T] (compare : T → T → Bool) (f : WindowedFilter T)
    (newSample : T) (newTime : Nat) (x : Sample T)
    (h : x ∈ (f.update compare newSample newTime).estimates) :
    x ∈ f.estimates ∨ x = ⟨newSample, newTime⟩ := by
  unfold update at h
  split at h
  · simp only [estimates, reset, List.mem_cons, List.not_mem_nil, or_false] at h
    exact .inr (by tauto)
  · rcases mem_estimates_expire _ _ _ h with h | h
    · exact mem_estimates_place compare f _ x h
    · exact .inr h

theorem best_place (compare : T → T → Bool) (f : WindowedFilter T) (new : Sample T) :
    (f.place compare new).best = f.best ∧ (f.place compare new).windowLength = f.windowLength ∧
      ((f.place compare new).third = f.third ∨ (f.place compare new).third = new) := by
  unfold place
  split_ifs <;> simp

theorem windowLength_update [DecidableEq T] (compare : T → T → Bool) (f : WindowedFilter T)
    (newSample : T) (newTime : Nat) :
    (f.update compare newSample newTime).windowLength = f.windowLength := by
  unfold update expire place reset
  split
  · rfl
  · simp only
    split_ifs <;> rfl

/-! ### The best estimate -/

section Best
variable [LinearOrder T] {f : WindowedFilter T} {new : Sample T}

theorem le_place (f : WindowedFilter T) (new : Sample T) :
    new.sample ≤ (f.place maxFilter new).second.sample ∧
      new.sample ≤ (f.place maxFilter new).third.sample := by
  unfold place
  simp only [maxFilter, decide_eq_true_eq]
  split_ifs with hsecond hthird
  · exact ⟨le_refl _, le_refl _⟩
  · exact ⟨le_of_not_ge hsecond, le_refl _⟩
  · exact ⟨le_of_not_ge hsecond, le_of_not_ge hthird⟩

/-- The best estimate stays above the new sample, whatever the times. -/
theorem le_expire (hbest : new.sample ≤ f.best.sample) (hsecond : new.sample ≤ f.second.sample)
    (hthird : new.sample ≤ f.third.sample) : new.sample ≤ (f.expire new).best.sample := by
  unfold expire
  simp only
  split_ifs
  · exact hthird
  · exact hsecond
  all_goals exact hbest

theorem le_update (f : WindowedFilter T) (newSample : T) (newTime : Nat) :
    newSample ≤ (f.update maxFilter newSample newTime).getBest := by
  unfold update
  split_ifs with hreset
  · exact le_refl newSample
  · simp only [not_or, maxFilter, decide_eq_true_eq, not_le] at hreset
    obtain ⟨hsecond, hthird⟩ := f.le_place ⟨newSample, newTime⟩
    refine le_expire ?_ hsecond hthird
    rw [(f.best_place maxFilter ⟨newSample, newTime⟩).1]
    exact hreset.2.1.le

/-- The best estimate stays above the new sample and inside the window, if the third is. -/
theorem expire_best (hbest : new.sample ≤ f.best.sample) (hsecond : new.sample ≤ f.second.sample)
    (hthird : new.sample ≤ f.third.sample) (htimes : ∀ x ∈ f.estimates, x.time ≤ new.time)
    (hwindow : new.time ≤ f.third.time + f.windowLength) :
    new.sample ≤ (f.expire new).best.sample ∧
      new.time ≤ (f.expire new).best.time + f.windowLength := by
  refine ⟨le_expire hbest hsecond hthird, ?_⟩
  have hle (x : Sample T) (hx : x ∈ f.estimates) : subU64 new.time x.time = new.time - x.time :=
    subU64_of_le (htimes x hx)
  have hinside {x : Sample T} (h : ¬f.windowLength < new.time - x.time) :
      new.time ≤ x.time + f.windowLength := by omega
  unfold expire
  simp only [hle f.best (by simp [estimates]), hle f.second (by simp [estimates])]
  split_ifs with hbestOld hsecondOld
  · exact hwindow
  · exact hinside hsecondOld
  all_goals exact hinside hbestOld

/-- After an update the best estimate is at least the new sample and inside the window. The
times so far are not after the new one, so no time difference wraps. -/
theorem update_best (newSample : T) {newTime : Nat} (htimes : ∀ x ∈ f.estimates, x.time ≤ newTime) :
    newSample ≤ (f.update maxFilter newSample newTime).getBest ∧
      newTime ≤ (f.update maxFilter newSample newTime).best.time + f.windowLength := by
  unfold update
  split_ifs with hreset
  · exact ⟨le_refl newSample, Nat.le_add_right _ _⟩
  · obtain ⟨-, hbetter, hwindow⟩ := not_or.mp hreset |>.imp_right not_or.mp
    rw [subU64_of_le (htimes f.third (by simp [estimates]))] at hwindow
    simp only [maxFilter, decide_eq_true_eq, not_le] at hbetter
    obtain ⟨hbest, hlength, hthird⟩ := f.best_place maxFilter ⟨newSample, newTime⟩
    obtain ⟨hsecondLe, hthirdLe⟩ := f.le_place ⟨newSample, newTime⟩
    have hplaced : ∀ x ∈ (f.place maxFilter ⟨newSample, newTime⟩).estimates, x.time ≤ newTime := by
      intro x hx
      rcases mem_estimates_place _ _ _ _ hx with hold | rfl
      · exact htimes x hold
      · exact Nat.le_refl _
    have hrecent : newTime ≤ (f.place maxFilter ⟨newSample, newTime⟩).third.time +
        (f.place maxFilter ⟨newSample, newTime⟩).windowLength := by
      rw [hlength]
      rcases hthird with hthird | hthird
      · rw [hthird]
        omega
      · rw [hthird]
        exact Nat.le_add_right _ _
    have hexpire := expire_best (by rw [hbest]; exact hbetter.le) hsecondLe hthirdLe hplaced hrecent
    rwa [hlength] at hexpire

/-- Update a filter with samples, each at its time. -/
def feed (f : WindowedFilter T) (us : List (Nat × T)) : WindowedFilter T :=
  us.foldl (fun f u => f.update maxFilter u.2 u.1) f

theorem feed_concat (f : WindowedFilter T) (us : List (Nat × T)) (u : Nat × T) :
    f.feed (us ++ [u]) = (f.feed us).update maxFilter u.2 u.1 := List.foldl_append ..

theorem windowLength_feed (f : WindowedFilter T) (us : List (Nat × T)) :
    (f.feed us).windowLength = f.windowLength := by
  induction us using List.reverseRecOn with
  | nil => rfl
  | append_singleton us u ih => rw [feed_concat, windowLength_update, ih]

/-- A filter that started empty holds nothing but what it was updated with. -/
theorem mem_of_mem_estimates_feed {windowLength zeroTime : Nat} {zeroValue : T}
    {us : List (Nat × T)} (hne : us ≠ []) {x : Sample T}
    (hx : x ∈ ((WindowedFilter.new windowLength zeroValue zeroTime).feed us).estimates) :
    (x.time, x.sample) ∈ us := by
  induction us using List.reverseRecOn with
  | nil => exact absurd rfl hne
  | append_singleton us u ih =>
    rw [feed_concat] at hx
    rw [List.mem_append, List.mem_singleton]
    by_cases hfirst : us = []
    · -- The first update finds the zero value and resets the filter.
      rw [hfirst, feed, List.foldl_nil, update, if_pos (.inl rfl)] at hx
      simp only [estimates, reset, List.mem_cons, List.not_mem_nil, or_false, or_self] at hx
      exact .inr (by rw [hx])
    · rcases mem_estimates_update _ _ _ _ _ hx with hold | rfl
      · exact .inl (ih hfirst hold)
      · exact .inr rfl

/-- After the last of several updates the best estimate is the value of one of them, from the
last window, and at least the last value. -/
theorem feed_best (windowLength : Nat) (zeroValue : T) {us : List (Nat × T)} {u : Nat × T}
    (hpast : ∀ v ∈ us, v.1 ≤ u.1) :
    (∀ x ∈ ((WindowedFilter.new windowLength zeroValue 0).feed us).estimates, x.time ≤ u.1) ∧
      u.2 ≤ ((WindowedFilter.new windowLength zeroValue 0).feed (us ++ [u])).getBest ∧
      ∃ v ∈ us ++ [u],
        v.2 = ((WindowedFilter.new windowLength zeroValue 0).feed (us ++ [u])).getBest ∧
        v.1 ≤ u.1 ∧ u.1 ≤ v.1 + windowLength := by
  have htimes : ∀ x ∈ ((WindowedFilter.new windowLength zeroValue 0).feed us).estimates,
      x.time ≤ u.1 := by
    intro x hx
    by_cases hfirst : us = []
    · rw [hfirst, feed, List.foldl_nil] at hx
      simp only [estimates, WindowedFilter.new, List.mem_cons, List.not_mem_nil, or_false,
        or_self] at hx
      rw [hx]
      exact Nat.zero_le _
    · exact hpast _ (mem_of_mem_estimates_feed hfirst hx)
  obtain ⟨hle, hwindow⟩ := update_best u.2 htimes
  rw [← feed_concat, windowLength_feed] at hwindow
  rw [← feed_concat] at hle
  have hmem : (((WindowedFilter.new windowLength zeroValue 0).feed (us ++ [u])).best.time,
      ((WindowedFilter.new windowLength zeroValue 0).feed (us ++ [u])).best.sample) ∈ us ++ [u] :=
    mem_of_mem_estimates_feed (by simp) (List.mem_cons_self ..)
  refine ⟨htimes, hle, _, hmem, rfl, ?_, hwindow⟩
  rcases List.mem_append.mp hmem with hold | hnew
  · exact hpast _ hold
  · exact (congrArg Prod.fst (List.mem_singleton.mp hnew)).le

end Best
end WindowedFilter
end CongestionResponse.Quic
