import Mathlib.Data.List.Basic

/-! The gaps that a running maximum leaves behind.

Numbers arrive in any order and more than once. Whenever one is above all before it, the
numbers between it and the largest so far are skipped. A number is skipped at most once, and
exactly if a greater one comes before it first does. -/
namespace CongestionResponse.Lib

/-- The numbers that are skipped when `ks` arrive and the largest so far is `base`. -/
def gaps (base : Nat) : List Nat → List Nat
  | [] => []
  | k :: ks => List.range' (base + 1) (k - (base + 1)) ++ gaps (max base k) ks

/-- A number above `n` comes before `n` first does, whether or not `n` comes at all. -/
def Overtaken (n : Nat) (ks : List Nat) : Prop := ∃ k ∈ ks.takeWhile (· ≠ n), n < k

theorem overtaken_cons {n k : Nat} {ks : List Nat} :
    Overtaken n (k :: ks) ↔ k ≠ n ∧ (n < k ∨ Overtaken n ks) := by
  unfold Overtaken
  by_cases h : k = n <;> simp [h]

theorem mem_gaps {n base : Nat} {ks : List Nat} :
    n ∈ gaps base ks ↔ base < n ∧ Overtaken n ks := by
  induction ks generalizing base with
  | nil => simp [gaps, Overtaken]
  | cons k ks ih =>
    rw [gaps, List.mem_append, ih, overtaken_cons, List.mem_range'_1]
    constructor
    · rintro (hgap | ⟨hmax, hlater⟩)
      · exact ⟨by omega, by omega, .inl (by omega)⟩
      · exact ⟨by omega, by omega, .inr hlater⟩
    · rintro ⟨hbase, hne, hk | hlater⟩
      · exact .inl (by omega)
      · by_cases hk : n < k
        · exact .inl (by omega)
        · exact .inr ⟨by omega, hlater⟩

/-- The numbers are skipped in order. -/
theorem pairwise_gaps (base : Nat) (ks : List Nat) : (gaps base ks).Pairwise (· < ·) := by
  induction ks generalizing base with
  | nil => exact .nil
  | cons k ks ih =>
    refine List.pairwise_append.mpr ⟨List.pairwise_lt_range' .., ih _, ?_⟩
    intro n hn m hm
    rw [List.mem_range'_1] at hn
    have hmax := (mem_gaps.mp hm).1
    omega

end CongestionResponse.Lib
