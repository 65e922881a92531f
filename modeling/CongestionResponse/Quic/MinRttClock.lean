import CongestionResponse.Lib.Run
import CongestionResponse.Quic.Bbr

/-! The minimum round trip time over a run, apart from the senders.

A run shows the record its accepted acknowledgements, `AckSeen`: when each came, the round
trip time of its packet if the sender was tracking it, and whether the sender looks for an
expiry (`MyBbrSenderV5` does not in its first round). `Dating` says on these inputs
alone what the smallest round trip time is and when it was last dated; a sample equal to the
smallest does not date it. Where all samples are within an eighth of each other, the record
of the senders follows it (`Agrees.fresh_iff_inTime`). -/
namespace CongestionResponse.Quic
open Lib

/-- An accepted acknowledgement: its time, the sample of a tracked packet, and whether the
sender looks for an expiry at it. -/
structure AckSeen where
  time : Int
  rtt : Option Int
  judged : Bool
deriving DecidableEq

def MinRtt.see (m : MinRtt) (ack : AckSeen) : MinRtt := m.after ack.time ack.rtt

def MinRtt.FreshFor (m : MinRtt) (ack : AckSeen) : Prop :=
  ack.judged → m.FreshAt ack.time ack.rtt

/-- The smallest round trip time, and the acknowledgement that last dated it. -/
structure Dating where
  least : Option Int
  since : Int

namespace Dating

/-- Before the first acknowledgement. -/
def start : Dating := ⟨none, 0⟩

/-- Every sample dates the smallest round trip time, but for one that is equal to it. -/
def see (d : Dating) (ack : AckSeen) : Dating :=
  match ack.rtt with
  | none => d
  | some rtt => if d.least = some rtt then d else ⟨some (d.least.elim rtt (min rtt)), ack.time⟩

/-- An acknowledgement that dates the smallest round trip time, or comes at most ten seconds
after one that did. -/
def InTime (d : Dating) (ack : AckSeen) : Prop :=
  ack.judged → (∃ rtt, ack.rtt = some rtt ∧ d.least ≠ some rtt) ∨ ack.time ≤ d.since + kMinRttExpiry

end Dating

/-- All acknowledgements are in time. -/
def OnTime (acks : List AckSeen) : Prop := Along Dating.see Dating.InTime .start acks

/-- All round trip times are between `m` and `9 / 8 * m`. -/
def Within (m : Int) (acks : List AckSeen) : Prop :=
  ∀ ack ∈ acks, ∀ rtt, ack.rtt = some rtt → m ≤ rtt ∧ 8 * rtt ≤ 9 * m

/-- The threshold is computed exactly where nine times the minimum fits a `double`. -/
theorem le_similar {least rtt : Int} (hpos : 0 < least) (hsmall : 9 * least < 2 ^ 53)
    (h : 8 * rtt ≤ 9 * least) : rtt ≤ Delta.mulDouble least kSimilarMinRttThreshold := by
  obtain ⟨n, rfl⟩ := Int.eq_ofNat_of_zero_le hpos.le
  have hsign : (n : Int).sign = 1 := Int.sign_eq_one_of_pos hpos
  have hn : 9 * n < 2 ^ 53 := by exact_mod_cast hsmall
  rw [Delta.mulDouble, hsign, one_mul, Int.natAbs_natCast, kSimilarMinRttThreshold,
    BinaryFloat.ofNat_of_lt (by unfold BinaryFloat.double; omega) (by decide),
    BinaryFloat.mul_of_lt (by unfold BinaryFloat.double; simp only; omega) (by decide)]
  have hround : rtt.toNat ≤ BinaryFloat.llround ⟨n * 9, -(3 : Nat)⟩ :=
    BinaryFloat.le_llround (show rtt.toNat * 2 ^ 3 ≤ n * 9 * 2 ^ 0 by omega)
  exact (Int.self_le_toNat rtt).trans (Int.ofNat_le.mpr hround)

/-- The record of a sender holds what the samples say, which are all near `m`. -/
structure Agrees (m : Int) (r : MinRtt) (d : Dating) : Prop where
  minRtt : r.minRtt = d.least.getD 0
  minRttTimestamp : r.minRttTimestamp = d.since
  near : ∀ least, d.least = some least → m ≤ least ∧ 8 * least ≤ 9 * m

section Agrees
variable {m : Int} {r : MinRtt} {d : Dating}

theorem agrees_start (m : Int) : Agrees m ⟨0, 0⟩ .start := ⟨rfl, rfl, fun _ h => by cases h⟩

/-- Of samples that are this close, all but those equal to the minimum date it anew. -/
theorem Agrees.refreshes_iff (h : Agrees m r d) (hpos : 0 < m) (hsmall : m < 2 ^ 49) {rtt : Int}
    (hrtt : m ≤ rtt ∧ 8 * rtt ≤ 9 * m) : r.Refreshes rtt ↔ d.least ≠ some rtt := by
  unfold MinRtt.Refreshes
  rw [h.minRtt]
  cases hleast : d.least with
  | none => simp
  | some least =>
    obtain ⟨hle, hge⟩ := h.near least hleast
    have hsimilar : rtt ≤ Delta.mulDouble least kSimilarMinRttThreshold :=
      le_similar (by omega) (by omega) (by omega)
    simp only [Option.getD_some, ne_eq, Option.some.injEq, hsimilar, and_true]
    omega

theorem Agrees.freshFor_iff (h : Agrees m r d) (hpos : 0 < m) (hsmall : m < 2 ^ 49) {ack : AckSeen}
    (hack : ∀ rtt, ack.rtt = some rtt → m ≤ rtt ∧ 8 * rtt ≤ 9 * m) :
    r.FreshFor ack ↔ d.InTime ack := by
  unfold MinRtt.FreshFor MinRtt.FreshAt Dating.InTime
  rw [h.minRttTimestamp]
  refine imp_congr_right fun _ => or_congr_left (exists_congr fun rtt => ?_)
  refine and_congr_right fun hrtt => ?_
  exact h.refreshes_iff hpos hsmall (hack rtt hrtt)

theorem Agrees.see (h : Agrees m r d) (hpos : 0 < m) (hsmall : m < 2 ^ 49) {ack : AckSeen}
    (hack : ∀ rtt, ack.rtt = some rtt → m ≤ rtt ∧ 8 * rtt ≤ 9 * m) :
    Agrees m (r.see ack) (d.see ack) := by
  unfold MinRtt.see Dating.see
  cases hrtt : ack.rtt with
  | none => exact h
  | some rtt =>
    obtain ⟨hle, hge⟩ := hack rtt hrtt
    have hrefreshes := h.refreshes_iff hpos hsmall ⟨hle, hge⟩
    simp only [MinRtt.after]
    by_cases hsame : d.least = some rtt
    · -- A sample equal to the minimum leaves everything as it is.
      have hnot : ¬r.Refreshes rtt := fun hr => hrefreshes.mp hr hsame
      rw [if_pos hsame]
      exact ⟨by rw [MinRtt.minRtt_update, h.minRtt, hsame]; simp,
        by rw [MinRtt.minRttTimestamp_of_not_refreshes hnot, h.minRttTimestamp], h.near⟩
    · rw [if_neg hsame]
      refine ⟨?_, MinRtt.minRttTimestamp_of_refreshes (hrefreshes.mpr hsame) _, ?_⟩
      · rw [MinRtt.minRtt_update, h.minRtt]
        cases hleast : d.least with
        | none => simp
        | some least =>
          have hne : least ≠ 0 := by have := h.near least hleast; omega
          simp [hne]
      · intro least hleast
        cases hold : d.least with
        | none => rw [hold] at hleast; cases hleast; exact ⟨hle, hge⟩
        | some old =>
          have hnear := h.near old hold
          rw [hold] at hleast
          cases hleast
          simp only [Option.elim_some]
          omega

/-- **Of samples within an eighth of `m`, exactly those equal to the smallest do not keep
the minimum fresh.** -/
theorem Agrees.fresh_iff_inTime (h : Agrees m r d) (hpos : 0 < m) (hsmall : m < 2 ^ 49)
    {acks : List AckSeen} (hacks : Within m acks) :
    Along MinRtt.see MinRtt.FreshFor r acks ↔ Along Dating.see Dating.InTime d acks := by
  induction acks generalizing r d with
  | nil => exact Iff.rfl
  | cons ack rest ih =>
    have hack := hacks ack List.mem_cons_self
    have hrest : Within m rest := fun a ha => hacks a (List.mem_cons_of_mem _ ha)
    exact and_congr (h.freshFor_iff hpos hsmall hack) (ih (h.see hpos hsmall hack) hrest)

end Agrees
end CongestionResponse.Quic
