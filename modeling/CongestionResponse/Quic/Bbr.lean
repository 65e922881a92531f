import CongestionResponse.Quic.Units

/-! What the two BBR senders have in common: a random start of the gain cycle, and a
minimum round trip time that expires ten seconds after it was last dated. -/
namespace CongestionResponse.Quic
open Lib (BinaryFloat)

/-- A `float` constant given in hundredths. -/
def hundredths (n : Nat) : BinaryFloat := BinaryFloat.ofRatio BinaryFloat.single n 100

/-! ### The gain cycle -/

/-- The values `RandUint64` will return, and how many of them are used. -/
structure MyQuicRandom where
  outcomes : Nat → Nat
  drawn : Nat

def MyQuicRandom.randUint64 (r : MyQuicRandom) : Nat × MyQuicRandom :=
  (r.outcomes r.drawn % 2 ^ 64, {r with drawn := r.drawn + 1})

def kGainCycleLength : Nat := 8

/-- An offset out of `{0, 2, ..., 7}`, so that draining never starts a cycle. -/
def drawOffset (rand : Nat) : Nat :=
  let offset := rand % (kGainCycleLength - 1)
  if 1 ≤ offset then offset + 1 else offset

/-! ### The minimum round trip time -/

def kMinRttExpiry : Int := Delta.fromSeconds 10
def kSimilarMinRttThreshold : BinaryFloat := ⟨9, -3⟩

theorem le_mulDouble_similar {d : Int} (hd : 0 ≤ d) :
    d ≤ Delta.mulDouble d kSimilarMinRttThreshold := by
  obtain ⟨n, rfl⟩ := Int.eq_ofNat_of_zero_le hd
  by_cases hzero : n = 0
  · subst hzero
    decide
  · have hsign : (n : Int).sign = 1 := Int.sign_eq_one_of_pos (by omega)
    rw [Delta.mulDouble, hsign, one_mul, Int.natAbs_natCast, Int.ofNat_le]
    exact BinaryFloat.le_llround_nine_eighths (by decide) n

/-- `min_rtt_` and `min_rtt_timestamp_`. -/
structure MinRtt where
  minRtt : Int
  minRttTimestamp : Int
deriving DecidableEq

namespace MinRtt
variable (m : MinRtt)

def lower (now rtt : Int) : MinRtt := if rtt < m.minRtt then ⟨rtt, now⟩ else m

/-- A sample close above the minimum dates it anew. -/
def confirm (now rtt : Int) : MinRtt :=
  if m.minRtt < rtt ∧ rtt ≤ Delta.mulDouble m.minRtt kSimilarMinRttThreshold then
    {m with minRttTimestamp := now}
  else m

/-- What a sample does: `UpdateRttAndInflight` and `UpdateRtt` agree on it. -/
def update (now rtt : Int) : MinRtt :=
  if m.minRtt = 0 then ⟨rtt, now⟩ else (m.lower now rtt).confirm now rtt

/-- `min_rtt_expired`, as `OnAck` computes it. -/
def isExpired (eventTime : Int) : Bool := decide (m.minRttTimestamp + kMinRttExpiry < eventTime)

/-- The record after an acknowledgement, with a sample if its packet was tracked. -/
def after (now : Int) : Option Int → MinRtt
  | none => m
  | some rtt => m.update now rtt

/-- A sample that dates the minimum anew: the first one, a smaller one, or one above the
minimum by at most an eighth. -/
def Refreshes (rtt : Int) : Prop :=
  m.minRtt = 0 ∨ rtt < m.minRtt ∨
    m.minRtt < rtt ∧ rtt ≤ Delta.mulDouble m.minRtt kSimilarMinRttThreshold

/-- An acknowledgement that finds the minimum fresh, or makes it so. -/
def FreshAt (now : Int) (sample : Option Int) : Prop :=
  (∃ rtt, sample = some rtt ∧ m.Refreshes rtt) ∨ now ≤ m.minRttTimestamp + kMinRttExpiry

variable {m} {rtt : Int}

theorem minRttTimestamp_of_refreshes (h : m.Refreshes rtt) (now : Int) :
    (m.update now rtt).minRttTimestamp = now := by
  by_cases hzero : m.minRtt = 0
  · rw [update, if_pos hzero]
  · rw [update, if_neg hzero]
    rcases h with h | h | h
    · exact absurd h hzero
    · have hlower : m.lower now rtt = ⟨rtt, now⟩ := if_pos h
      rw [hlower, confirm]
      split <;> rfl
    · have hlower : m.lower now rtt = m := if_neg (Int.not_lt.mpr (Int.le_of_lt h.1))
      rw [hlower, confirm, if_pos h]

theorem minRttTimestamp_of_not_refreshes (h : ¬m.Refreshes rtt) (now : Int) :
    (m.update now rtt).minRttTimestamp = m.minRttTimestamp := by
  unfold update lower confirm
  rw [if_neg fun hzero => h (.inl hzero), if_neg fun hlt => h (.inr (.inl hlt)),
    if_neg fun hconfirm => h (.inr (.inr hconfirm))]

theorem minRtt_update (m : MinRtt) (now rtt : Int) :
    (m.update now rtt).minRtt = if m.minRtt = 0 then rtt else min rtt m.minRtt := by
  unfold update lower confirm
  split_ifs <;> first | rfl | (simp only; omega) | omega

/-- The minimum does not expire exactly at an acknowledgement that finds it fresh, or makes
it so. -/
theorem isExpired_after (now : Int) (sample : Option Int) :
    (m.after now sample).isExpired now = false ↔ m.FreshAt now sample := by
  unfold isExpired FreshAt
  rw [decide_eq_false_iff_not, Int.not_lt]
  cases sample with
  | none => simp [after]
  | some rtt =>
    simp only [after, Option.some.injEq, exists_eq_left']
    by_cases hrefreshes : m.Refreshes rtt
    · rw [minRttTimestamp_of_refreshes hrefreshes]
      exact iff_of_true (by unfold kMinRttExpiry Delta.fromSeconds; omega) (.inl hrefreshes)
    · rw [minRttTimestamp_of_not_refreshes hrefreshes]
      exact (or_iff_right hrefreshes).symm

end MinRtt
end CongestionResponse.Quic
