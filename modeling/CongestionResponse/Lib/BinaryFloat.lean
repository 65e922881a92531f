import Mathlib.Tactic.Ring
import Mathlib.Algebra.Order.Ring.Nat

/-! Nonnegative binary floating point with `p` bits of precision.

A value is `significand * 2 ^ exponent`. `round p` is round-to-nearest, ties to
even, so `mul p` and `ofNat p` are the IEEE 754 multiplication and integer
conversion of binary32 (`p = 24`) and binary64 (`p = 53`) wherever neither
overflow nor underflow is in reach: the exponent here is unbounded. `llround`
and `truncate` are the two ways back to an integer. -/
namespace CongestionResponse.Lib

structure BinaryFloat where
  significand : Nat
  exponent : Int
deriving DecidableEq

namespace BinaryFloat

/-- Precision of `float`. -/
def single : Nat := 24
/-- Precision of `double`. -/
def double : Nat := 53

/-- `m / 2 ^ k` to the nearest integer, a tie to the even one. -/
def shiftEven (m k : Nat) : Nat :=
  let q := m / 2 ^ k
  let r := m % 2 ^ k
  if 2 * r < 2 ^ k then q else if 2 ^ k < 2 * r then q + 1 else q + q % 2

/-- The nearest value with at most `p` significant bits. -/
def round (p : Nat) (x : BinaryFloat) : BinaryFloat :=
  let k := x.significand.log2 + 1 - p
  ⟨shiftEven x.significand k, x.exponent + k⟩

def ofNat (p n : Nat) : BinaryFloat := round p ⟨n, 0⟩

def mul (p : Nat) (x y : BinaryFloat) : BinaryFloat :=
  round p ⟨x.significand * y.significand, x.exponent + y.exponent⟩

/-- The literal `n / d`: enough quotient bits, a sticky bit for the rest, one rounding. -/
def ofRatio (p n d : Nat) : BinaryFloat :=
  let s := p + d.log2 + 2
  round p ⟨2 * (n * 2 ^ s / d) + (if n * 2 ^ s % d = 0 then 0 else 1), -(s + 1 : Nat)⟩

/-- The nearest integer, halves away from zero. -/
def llround (x : BinaryFloat) : Nat :=
  if 0 ≤ x.exponent then x.significand * 2 ^ x.exponent.toNat
  else (x.significand + 2 ^ ((-x.exponent).toNat - 1)) / 2 ^ (-x.exponent).toNat

/-- The conversion to an integer type, which drops the fraction. -/
def truncate (x : BinaryFloat) : Nat :=
  if 0 ≤ x.exponent then x.significand * 2 ^ x.exponent.toNat
  else x.significand / 2 ^ (-x.exponent).toNat

/-- Numeric comparison, whatever the representations. -/
def le (x y : BinaryFloat) : Bool :=
  decide (x.significand * 2 ^ (x.exponent - y.exponent).toNat ≤
    y.significand * 2 ^ (y.exponent - x.exponent).toNat)

def eq (x y : BinaryFloat) : Bool := x.le y && y.le x

def one : BinaryFloat := ⟨1, 0⟩

/-! ### Where no rounding happens -/

theorem shiftEven_zero (m : Nat) : shiftEven m 0 = m := by
  simp [shiftEven, Nat.mod_one]

/-- A significand of at most `p` bits is kept. -/
theorem round_of_lt {p : Nat} {x : BinaryFloat} (h : x.significand < 2 ^ p) (hp : 0 < p) :
    round p x = x := by
  have hk : x.significand.log2 + 1 - p = 0 := by
    by_cases h0 : x.significand = 0
    · rw [h0, Nat.log2_zero]
      omega
    · have := (Nat.log2_lt h0).mpr h
      omega
  simp [round, hk, shiftEven_zero]

theorem ofNat_of_lt {p n : Nat} (h : n < 2 ^ p) (hp : 0 < p) : ofNat p n = ⟨n, 0⟩ :=
  round_of_lt h hp

theorem mul_of_lt {p : Nat} {x y : BinaryFloat} (h : x.significand * y.significand < 2 ^ p)
    (hp : 0 < p) : mul p x y = ⟨x.significand * y.significand, x.exponent + y.exponent⟩ :=
  round_of_lt h hp

/-! ### What rounding loses -/

theorem div_le_shiftEven (m k : Nat) : m / 2 ^ k ≤ shiftEven m k := by
  unfold shiftEven
  simp only
  split_ifs <;> omega

theorem shiftEven_le (m k : Nat) : 2 * (shiftEven m k * 2 ^ k) ≤ 2 * m + 2 ^ k := by
  have hdiv := Nat.div_add_mod m (2 ^ k)
  rw [Nat.mul_comm] at hdiv
  have hround : shiftEven m k = m / 2 ^ k ∨
      shiftEven m k = m / 2 ^ k + 1 ∧ 2 ^ k ≤ 2 * (m % 2 ^ k) := by
    unfold shiftEven
    simp only
    split_ifs
    · exact .inl rfl
    · exact .inr ⟨rfl, by omega⟩
    · rcases Nat.mod_two_eq_zero_or_one (m / 2 ^ k) with heven | hodd
      · exact .inl (by omega)
      · exact .inr ⟨by omega, by omega⟩
  rcases hround with h | ⟨h, hhalf⟩
  · rw [h]
    omega
  · have hnext : shiftEven m k * 2 ^ k = m / 2 ^ k * 2 ^ k + 2 ^ k := by rw [h, Nat.succ_mul]
    omega

/-- Rounding to six bits or more changes a value by at most one part in thirty-two. -/
theorem round_near {p : Nat} (hp : 6 ≤ p) (x : BinaryFloat) :
    ∃ k : Nat, (round p x).exponent = x.exponent + k ∧
      31 * x.significand ≤ 32 * ((round p x).significand * 2 ^ k) ∧
      32 * ((round p x).significand * 2 ^ k) ≤ 33 * x.significand := by
  obtain ⟨m, e⟩ := x
  refine ⟨m.log2 + 1 - p, rfl, ?_⟩
  simp only [round]
  generalize hk : m.log2 + 1 - p = k
  have hfloor : m < (shiftEven m k + 1) * 2 ^ k :=
    (Nat.div_lt_iff_lt_mul (Nat.two_pow_pos k)).mp (Nat.lt_succ_of_le (div_le_shiftEven m k))
  rw [Nat.succ_mul] at hfloor
  have hceil := shiftEven_le m k
  by_cases hzero : k = 0
  · subst hzero
    rw [shiftEven_zero, Nat.pow_zero, Nat.mul_one]
    omega
  · -- What is cut off is worth less than `2 ^ k`, and `m` has five bits more.
    have hm : m ≠ 0 := by
      rintro rfl
      rw [Nat.log2_zero] at hk
      omega
    have hpow : 2 ^ (5 + k) ≤ m :=
      (Nat.pow_le_pow_right (by decide) (by omega)).trans (Nat.log2_self_le hm)
    rw [Nat.pow_add] at hpow
    omega

/-- The product of an integer and a gain is rounded twice. -/
theorem mul_ofNat_near {p : Nat} (hp : 6 ≤ p) (n : Nat) (gain : BinaryFloat) :
    ∃ k : Nat, (mul p (ofNat p n) gain).exponent = gain.exponent + k ∧
      961 * (n * gain.significand) ≤ 1024 * ((mul p (ofNat p n) gain).significand * 2 ^ k) ∧
      1024 * ((mul p (ofNat p n) gain).significand * 2 ^ k) ≤ 1089 * (n * gain.significand) := by
  obtain ⟨k, hk, hlow, hhigh⟩ : ∃ k : Nat, (ofNat p n).exponent = 0 + k ∧
    31 * n ≤ 32 * ((ofNat p n).significand * 2 ^ k) ∧
    32 * ((ofNat p n).significand * 2 ^ k) ≤ 33 * n := round_near hp ⟨n, 0⟩
  generalize ofNat p n = x at hk hlow hhigh
  obtain ⟨k', hk', hlow', hhigh'⟩ : ∃ k' : Nat,
    (mul p x gain).exponent = x.exponent + gain.exponent + k' ∧
    31 * (x.significand * gain.significand) ≤ 32 * ((mul p x gain).significand * 2 ^ k') ∧
    32 * ((mul p x gain).significand * 2 ^ k') ≤ 33 * (x.significand * gain.significand) :=
    round_near hp _
  generalize mul p x gain = y at hk' hlow' hhigh'
  refine ⟨k + k', by rw [hk', hk]; push_cast; ring, ?_, ?_⟩
  · calc 961 * (n * gain.significand) = 31 * (31 * n * gain.significand) := by ring
      _ ≤ 31 * (32 * (x.significand * 2 ^ k) * gain.significand) := by gcongr
      _ = 32 * (31 * (x.significand * gain.significand)) * 2 ^ k := by ring
      _ ≤ 32 * (32 * (y.significand * 2 ^ k')) * 2 ^ k := by gcongr
      _ = 1024 * (y.significand * 2 ^ (k + k')) := by ring
  · calc 1024 * (y.significand * 2 ^ (k + k'))
        = 32 * (32 * (y.significand * 2 ^ k')) * 2 ^ k := by ring
      _ ≤ 32 * (33 * (x.significand * gain.significand)) * 2 ^ k := by gcongr
      _ = 33 * (32 * (x.significand * 2 ^ k) * gain.significand) := by ring
      _ ≤ 33 * (33 * n * gain.significand) := by gcongr
      _ = 1089 * (n * gain.significand) := by ring

/-! ### The nearest integer -/

/-- `llround` is at least every integer below the value. -/
theorem le_llround {x : BinaryFloat} {n : Nat}
    (h : n * 2 ^ (-x.exponent).toNat ≤ x.significand * 2 ^ x.exponent.toNat) : n ≤ x.llround := by
  unfold llround
  split
  · rename_i hexp
    rwa [Int.toNat_of_nonpos (by omega), Nat.pow_zero, Nat.mul_one] at h
  · rename_i hexp
    rw [Int.toNat_of_nonpos (show x.exponent ≤ 0 by omega), Nat.pow_zero, Nat.mul_one] at h
    exact (Nat.le_div_iff_mul_le (Nat.two_pow_pos _)).mpr (le_trans h (Nat.le_add_right _ _))

/-- `llround` is at most every integer above the value. -/
theorem llround_le {x : BinaryFloat} {n : Nat}
    (h : x.significand * 2 ^ x.exponent.toNat ≤ n * 2 ^ (-x.exponent).toNat) : x.llround ≤ n := by
  unfold llround
  split
  · rename_i hexp
    rwa [Int.toNat_of_nonpos (show -x.exponent ≤ 0 by omega), Nat.pow_zero, Nat.mul_one] at h
  · rename_i hexp
    rw [Int.toNat_of_nonpos (show x.exponent ≤ 0 by omega), Nat.pow_zero, Nat.mul_one] at h
    obtain ⟨d, hd⟩ : ∃ d, (-x.exponent).toNat = d + 1 := ⟨(-x.exponent).toNat - 1, by omega⟩
    rw [hd] at h ⊢
    refine Nat.le_of_lt_succ (Nat.div_lt_of_lt_mul ?_)
    rw [Nat.mul_comm, Nat.succ_mul, Nat.add_sub_cancel]
    have := Nat.two_pow_pos d
    omega

/-- A value of one half or more is rounded to one or more. -/
theorem llround_pos {x : BinaryFloat}
    (h : 2 ^ (-x.exponent).toNat ≤ 2 * (x.significand * 2 ^ x.exponent.toNat)) : 0 < x.llround := by
  unfold llround
  split
  · have := Nat.two_pow_pos (-x.exponent).toNat
    omega
  · rename_i hexp
    rw [Int.toNat_of_nonpos (show x.exponent ≤ 0 by omega), Nat.pow_zero, Nat.mul_one] at h
    obtain ⟨d, hd⟩ : ∃ d, (-x.exponent).toNat = d + 1 := ⟨(-x.exponent).toNat - 1, by omega⟩
    rw [hd] at h ⊢
    rw [Nat.add_sub_cancel]
    refine Nat.div_pos ?_ (Nat.two_pow_pos _)
    omega

/-- An exponent `k - d` is what is left of the two when they are cut alike. -/
theorem exponent_split {k d : Nat} {e : Int} (he : e = -(d : Int) + k) :
    ∃ c, k = e.toNat + c ∧ d = (-e).toNat + c := by
  rcases Nat.le_total k d with h | h
  · exact ⟨k, by omega, by omega⟩
  · exact ⟨d, by omega, by omega⟩

theorem le_llround_of_exponent {x : BinaryFloat} {n k d : Nat} (he : x.exponent = -(d : Int) + k)
    (h : n * 2 ^ d ≤ x.significand * 2 ^ k) : n ≤ x.llround := by
  obtain ⟨c, hk, hd⟩ := exponent_split he
  rw [hk, hd, Nat.pow_add, Nat.pow_add, ← Nat.mul_assoc, ← Nat.mul_assoc] at h
  exact le_llround (Nat.le_of_mul_le_mul_right h (Nat.two_pow_pos c))

theorem llround_le_of_exponent {x : BinaryFloat} {n k d : Nat} (he : x.exponent = -(d : Int) + k)
    (h : x.significand * 2 ^ k ≤ n * 2 ^ d) : x.llround ≤ n := by
  obtain ⟨c, hk, hd⟩ := exponent_split he
  rw [hk, hd, Nat.pow_add, Nat.pow_add, ← Nat.mul_assoc, ← Nat.mul_assoc] at h
  exact llround_le (Nat.le_of_mul_le_mul_right h (Nat.two_pow_pos c))

theorem llround_pos_of_exponent {x : BinaryFloat} {k d : Nat} (he : x.exponent = -(d : Int) + k)
    (h : 2 ^ d ≤ 2 * (x.significand * 2 ^ k)) : 0 < x.llround := by
  obtain ⟨c, hk, hd⟩ := exponent_split he
  rw [hk, hd, Nat.pow_add, Nat.pow_add, ← Nat.mul_assoc x.significand, ← Nat.mul_assoc 2] at h
  exact llround_pos (Nat.le_of_mul_le_mul_right h (Nat.two_pow_pos c))

/-- Nine eighths of an integer, rounded twice, are no less than it. -/
theorem le_llround_nine_eighths {p : Nat} (hp : 6 ≤ p) (n : Nat) :
    n ≤ llround (mul p (ofNat p n) ⟨9, -3⟩) := by
  obtain ⟨k, hk, hlow, -⟩ := mul_ofNat_near hp n ⟨9, -3⟩
  refine le_llround_of_exponent (d := 3) hk ?_
  simp only at hlow
  omega

/-- A gain of at most `1024 / 1089`, nearly one, makes no integer greater. -/
theorem llround_mul_le {p : Nat} (hp : 6 ≤ p) (n : Nat) {gain : BinaryFloat} {d : Nat}
    (hexp : gain.exponent = -(d : Int)) (hgain : 1089 * gain.significand ≤ 1024 * 2 ^ d) :
    llround (mul p (ofNat p n) gain) ≤ n := by
  obtain ⟨k, hk, -, hhigh⟩ := mul_ofNat_near hp n gain
  rw [hexp] at hk
  refine llround_le_of_exponent hk ?_
  have hscaled := Nat.mul_le_mul_left n hgain
  rw [Nat.mul_left_comm n, Nat.mul_left_comm n] at hscaled
  omega

/-- A gain of at least `512 / 961`, a little more than one half, makes no positive integer zero. -/
theorem llround_mul_pos {p : Nat} (hp : 6 ≤ p) {n : Nat} (hn : 0 < n) {gain : BinaryFloat} {d : Nat}
    (hexp : gain.exponent = -(d : Int)) (hgain : 512 * 2 ^ d ≤ 961 * gain.significand) :
    0 < llround (mul p (ofNat p n) gain) := by
  obtain ⟨k, hk, hlow, -⟩ := mul_ofNat_near hp n gain
  rw [hexp] at hk
  refine llround_pos_of_exponent hk ?_
  have := Nat.le_mul_of_pos_left gain.significand hn
  omega

end BinaryFloat
end CongestionResponse.Lib
