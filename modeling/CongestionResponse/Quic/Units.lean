import Mathlib.Order.Lattice
import CongestionResponse.Lib.BinaryFloat

/-! The units the senders compute in: times, byte counts and bandwidths.

`QuicTime` and `QuicTime::Delta` are microseconds in an `int64_t`; no clock this
side of the year 294000 overflows them, so they are `Int` here. Byte counts
(`QuicByteCount`) and packet numbers (`QuicPacketNumber`) are `Nat`. Where 64-bit
arithmetic can show, it is written out: an unsigned difference wraps (`subU64`),
`bytes * 10^6` wraps before the division in `fromBytesAndTimeDelta`, and a
bandwidth built from a negative `int64_t` is zero. A product with a gain is
computed in `float`, a product of a duration in `double`, each with the rounding
of the format. -/
namespace CongestionResponse.Quic
open Lib (BinaryFloat)

/-- The difference of two `uint64_t`, wrapping around below zero. -/
def subU64 (a b : Nat) : Nat := if b ≤ a then a - b else a + 2 ^ 64 - b

/-- The conversion of an `int64_t` to `uint64_t`. -/
def toU64 (x : Int) : Nat := if 0 ≤ x then x.toNat else (x + 2 ^ 64).toNat

/-- The conversion of a `uint64_t` to `int64_t`. -/
def toI64 (n : Nat) : Int := if n % 2 ^ 64 < 2 ^ 63 then n % 2 ^ 64 else n % 2 ^ 64 - 2 ^ 64

/-- The conversion of an `int64_t` to `uint32_t`. -/
def toU32 (x : Int) : Nat := (x % 2 ^ 32).toNat

/-- The difference of two `uint32_t`, wrapping around below zero. -/
def subU32 (a b : Nat) : Nat := (a + (2 ^ 32 - b)) % 2 ^ 32

theorem toU32_lt (x : Int) : toU32 x < 2 ^ 32 := by
  unfold toU32
  omega

/-- The wrapped difference of two times is the wrapped time between them. -/
theorem subU32_toU32 (x y : Int) : subU32 (toU32 x) (toU32 y) = toU32 (x - y) := by
  unfold subU32 toU32
  omega

theorem subU64_of_le {a b : Nat} (h : b ≤ a) : subU64 a b = a - b := if_pos h

namespace Delta

/-- `QuicTime::Delta::Infinite()`. -/
def infinite : Int := 2 ^ 63 - 1

def fromSeconds (secs : Int) : Int := secs * 1000 * 1000
def fromMilliseconds (ms : Int) : Int := ms * 1000
def toMilliseconds (d : Int) : Int := d.tdiv 1000

/-- `operator*(QuicTime::Delta, double)`. -/
def mulDouble (d : Int) (x : BinaryFloat) : Int :=
  d.sign * ((BinaryFloat.ofNat BinaryFloat.double d.natAbs).mul BinaryFloat.double x).llround

end Delta

/-- A bandwidth in bits per second: an `int64_t` that its constructor keeps nonnegative. -/
structure QuicBandwidth where
  bitsPerSecond : Nat
  isInt64 : bitsPerSecond < 2 ^ 63

namespace QuicBandwidth

theorem bitsPerSecond_injective : Function.Injective bitsPerSecond := by
  rintro ⟨a, ha⟩ ⟨b, hb⟩ h
  cases h
  rfl

instance : LinearOrder QuicBandwidth := LinearOrder.lift' bitsPerSecond bitsPerSecond_injective

theorem le_def {a b : QuicBandwidth} : a ≤ b ↔ a.bitsPerSecond ≤ b.bitsPerSecond := Iff.rfl

def zero : QuicBandwidth := ⟨0, by decide⟩
def infinite : QuicBandwidth := ⟨2 ^ 63 - 1, by decide⟩

theorem zero_le (a : QuicBandwidth) : zero ≤ a := Nat.zero_le a.bitsPerSecond

/-- The constructor, on the bits of a `uint64_t`: a set sign bit gives zero. -/
def ofU64 (n : Nat) : QuicBandwidth :=
  if h : n % 2 ^ 64 < 2 ^ 63 then ⟨n % 2 ^ 64, h⟩ else zero

theorem ofU64_of_lt {n : Nat} (h : n < 2 ^ 63) : (ofU64 n).bitsPerSecond = n := by
  have hmod : n % 2 ^ 64 = n := Nat.mod_eq_of_lt (by omega)
  unfold ofU64
  rw [dif_pos (by rw [hmod]; exact h)]
  exact hmod

def fromBitsPerSecond (n : Nat) : QuicBandwidth := ofU64 n

def kNumMicrosPerSecond : Nat := 1000 * 1000

/-- `FromBytesAndTimeDelta`. A zero `delta` divides by zero in the source. -/
def fromBytesAndTimeDelta (bytes : Nat) (delta : Int) : QuicBandwidth :=
  ofU64 ((bytes * kNumMicrosPerSecond % 2 ^ 64) / toU64 delta * 8)

def toKBitsPerSecond (a : QuicBandwidth) : Nat := a.bitsPerSecond / 1000

/-- `operator*(QuicBandwidth, float)`. A product that `llround` cannot return as
an `int64_t` comes out negative, hence as zero. -/
def mulFloat (a : QuicBandwidth) (gain : BinaryFloat) : QuicBandwidth :=
  let n :=
    ((BinaryFloat.ofNat BinaryFloat.single a.bitsPerSecond).mul BinaryFloat.single gain).llround
  if h : n < 2 ^ 63 then ⟨n, h⟩ else zero

/-- A gain a little above one half and a little below one leaves a bandwidth positive. -/
theorem mulFloat_pos {a : QuicBandwidth} (ha : zero < a) {gain : BinaryFloat} {d : Nat}
    (hexp : gain.exponent = -(d : Int)) (hlow : 512 * 2 ^ d ≤ 961 * gain.significand)
    (hhigh : 1089 * gain.significand ≤ 1024 * 2 ^ d) : zero < a.mulFloat gain := by
  have hpos := BinaryFloat.llround_mul_pos (p := BinaryFloat.single) (by decide) ha hexp hlow
  have hle := BinaryFloat.llround_mul_le (p := BinaryFloat.single) (by decide) a.bitsPerSecond hexp
    hhigh
  unfold mulFloat
  rw [dif_pos (lt_of_le_of_lt hle a.isInt64)]
  exact hpos

/-- `operator*(QuicBandwidth, QuicTime::Delta)`: `ToBytesPerPeriod`. -/
def toBytesPerPeriod (a : QuicBandwidth) (period : Int) : Nat :=
  toU64 (((a.bitsPerSecond / 8 : Nat) : Int) * period) / kNumMicrosPerSecond

/-- `TransferTime`: how long the bytes take at this bandwidth, nothing at none. -/
def transferTime (a : QuicBandwidth) (bytes : Nat) : Int :=
  if a.bitsPerSecond = 0 then 0
  else toI64 (bytes * 8 * kNumMicrosPerSecond % 2 ^ 64 / a.bitsPerSecond)

/-- What a bandwidth holds of a rate in bytes per second, which is all of it below `2 ^ 60`. -/
def heldRate (rate : Nat) : Nat := if rate % 2 ^ 61 < 2 ^ 60 then rate % 2 ^ 61 else 0

theorem heldRate_of_lt {rate : Nat} (h : rate < 2 ^ 60) : heldRate rate = rate := by
  have hmod : rate % 2 ^ 61 = rate := Nat.mod_eq_of_lt (by omega)
  rw [heldRate, hmod, if_pos h]

theorem heldRate_le (rate : Nat) : heldRate rate ≤ rate := by
  unfold heldRate
  split
  · exact Nat.mod_le rate _
  · exact Nat.zero_le rate

theorem ofU64_mul_eight (rate : Nat) : (ofU64 (rate * 8)).bitsPerSecond = 8 * heldRate rate := by
  have hmod : rate * 8 % 2 ^ 64 = 8 * (rate % 2 ^ 61) := by omega
  unfold ofU64 heldRate
  by_cases h : rate % 2 ^ 61 < 2 ^ 60
  · rw [dif_pos (by omega), if_pos h]
    exact hmod
  · rw [dif_neg (by omega), if_neg h]
    rfl

theorem fromBytesAndTimeDelta_eq (bytes : Nat) {delta : Int} (h : 0 ≤ delta) :
    (fromBytesAndTimeDelta bytes delta).bitsPerSecond =
      8 * heldRate (bytes * kNumMicrosPerSecond % 2 ^ 64 / delta.toNat) := by
  rw [fromBytesAndTimeDelta, ofU64_mul_eight, toU64, if_pos h]

theorem fromBytesAndTimeDelta_zero (delta : Int) : fromBytesAndTimeDelta 0 delta = zero := by
  simp [fromBytesAndTimeDelta, ofU64, zero]

/-- A rate of at most `c` bytes per second is reported as at most `8 * c`, whatever wraps on the
way. -/
theorem fromBytesAndTimeDelta_le {bytes c : Nat} {delta : Int} (hpos : 0 < delta)
    (h : (bytes * kNumMicrosPerSecond : Nat) ≤ c * delta) :
    (fromBytesAndTimeDelta bytes delta).bitsPerSecond ≤ 8 * c := by
  have hle : bytes * kNumMicrosPerSecond ≤ c * delta.toNat := by
    have hdelta := Int.toNat_of_nonneg hpos.le
    rw [← hdelta] at h
    exact_mod_cast h
  have hquot : bytes * kNumMicrosPerSecond % 2 ^ 64 / delta.toNat ≤ c :=
    calc bytes * kNumMicrosPerSecond % 2 ^ 64 / delta.toNat
        ≤ bytes * kNumMicrosPerSecond / delta.toNat := Nat.div_le_div_right (Nat.mod_le _ _)
      _ ≤ c := Nat.div_le_of_le_mul (Nat.mul_comm c _ ▸ hle)
  rw [fromBytesAndTimeDelta_eq bytes hpos.le]
  exact Nat.mul_le_mul_left 8 ((heldRate_le _).trans hquot)

end QuicBandwidth
end CongestionResponse.Quic
