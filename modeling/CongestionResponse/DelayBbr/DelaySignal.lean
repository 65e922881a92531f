import CongestionResponse.DelayBbr.RttUpdates

/-! The delay signal of `MyBbrSenderV5` is sound.

`CheckIfCongestion` compares `s_rtt_` with `base_line_rtt_`. Both follow the samples that are
taken in `ST_INCREASE` of packets sent after the last back-off, and entering `ST_DECREASE`
forgets them. These samples are collected here beside the run (`DelaySamples`): the base line
is their minimum, and the smoothed value stays between it, in whole milliseconds, and the
largest sample since the base line was last lowered. So the signal is given only if a sample is
that much above the base line. -/
namespace CongestionResponse.DelayBbr
open Lib Quic

/-! ### The samples of the signal -/

/-- The sample that an event takes for the signal. -/
def delaySample (s : MyBbrSenderV5) : Event → Option Int
  | .sent _ _ _ => none
  | .ack t p =>
    if s.control.mode = .increase ∧ s.rtt.seqAtBackoff < p then measured s (.ack t p) else none

/-- The samples since the last entry into `ST_DECREASE`, and those of them since the base line
was last lowered, with the one that lowered it. -/
structure DelaySamples where
  all : List Int
  sinceLowered : List Int
deriving DecidableEq

namespace DelaySamples

def empty : DelaySamples := ⟨[], []⟩

def add (g : DelaySamples) (baseLineRtt : Int) : Option Int → DelaySamples
  | none => g
  | some rtt =>
    ⟨g.all ++ [rtt], if rtt < baseLineRtt then [rtt] else g.sinceLowered ++ [rtt]⟩

end DelaySamples

/-- The sender with the samples of its signal. -/
def collect (x : MyBbrSenderV5 × DelaySamples) (e : Event) : MyBbrSenderV5 × DelaySamples :=
  (step x.1 e,
    if backsOff x.1 e then .empty else x.2.add x.1.rtt.baseLineRtt (delaySample x.1 e))

/-- The samples a run has collected. -/
def delaySamples (s : MyBbrSenderV5) (es : List Event) : DelaySamples :=
  (run collect (s, .empty) es).2

theorem run_collect (s : MyBbrSenderV5) (g : DelaySamples) (es : List Event) :
    (run collect (s, g) es).1 = run step s es := by
  induction es generalizing s g with
  | nil => rfl
  | cons e rest ih => exact ih _ _

theorem delaySamples_concat (s : MyBbrSenderV5) (es : List Event) (e : Event) :
    delaySamples s (es ++ [e]) =
      if backsOff (run step s es) e then .empty
      else (delaySamples s es).add (run step s es).rtt.baseLineRtt
        (delaySample (run step s es) e) := by
  rw [delaySamples, run_concat, collect, run_collect]
  rfl

/-! ### What the signal is worth -/

/-- The base line is the least sample, infinite without one, and the smoothed value is between
it and the largest sample since it was last lowered. -/
structure Sound (r : RttRecord) (g : DelaySamples) : Prop where
  baseLineRtt : r.baseLineRtt = g.all.foldl min Delta.infinite
  base_le : g.all ≠ [] → Delta.toMilliseconds r.baseLineRtt ≤ Delta.toMilliseconds r.sRtt
  sRtt_le : g.all ≠ [] → ∃ rtt ∈ g.sinceLowered, r.sRtt ≤ rtt

/-- What makes it inductive: nothing is negative, and without a sample the smoothed value is
the zero that makes the next sample replace it. -/
structure Smoothed (r : RttRecord) (g : DelaySamples) : Prop extends Sound r g where
  idle : g.all = [] → r.sRtt = 0
  base_nonneg : 0 ≤ r.baseLineRtt
  sRtt_nonneg : 0 ≤ r.sRtt
  subset : ∀ rtt ∈ g.sinceLowered, rtt ∈ g.all

section Smoothed
variable {r : RttRecord} {g : DelaySamples}

theorem smoothed_backOff (r : RttRecord) (p : Nat) : Smoothed (r.backOff p) .empty where
  baseLineRtt := rfl
  base_le := fun h => absurd rfl h
  sRtt_le := fun h => absurd rfl h
  idle := fun _ => rfl
  base_nonneg := show (0 : Int) ≤ Delta.infinite by decide
  sRtt_nonneg := Int.le_refl 0
  subset := fun _ h => h

theorem toMilliseconds_of_nonneg {d : Int} (h : 0 ≤ d) : Delta.toMilliseconds d = d / 1000 :=
  Int.tdiv_eq_ediv_of_nonneg h

/-- The smoothed value is, in whole milliseconds, between the old one and the sample. -/
theorem sRtt_smooth {rtt : Int} (hold : 0 ≤ r.sRtt) (hnew : 0 ≤ rtt) :
    (r.sRtt = 0 ∧ (r.smooth rtt).sRtt = rtt) ∨
      (r.sRtt ≠ 0 ∧
        (r.smooth rtt).sRtt = (5 * (r.sRtt / 1000) + 95 * (rtt / 1000)) / 100 * 1000) := by
  unfold RttRecord.smooth
  split
  · exact .inl ⟨‹_›, rfl⟩
  · refine .inr ⟨‹_›, ?_⟩
    rw [toMilliseconds_of_nonneg hold, toMilliseconds_of_nonneg hnew]
    show Int.tdiv (5 * _ + 95 * _) 100 * 1000 = _
    rw [Int.tdiv_eq_ediv_of_nonneg (by omega)]

theorem smooth_frame (r : RttRecord) (rtt : Int) : (r.smooth rtt).baseLineRtt = r.baseLineRtt := by
  unfold RttRecord.smooth
  split <;> rfl

theorem foldl_min_concat (h : Smoothed r g) (rtt : Int) :
    (g.all ++ [rtt]).foldl min Delta.infinite = min r.baseLineRtt rtt := by
  rw [List.foldl_append, ← h.baseLineRtt]
  rfl

/-- A sample below the base line is the new one; smoothed with itself it only loses its
microseconds. -/
theorem Smoothed.lower (h : Smoothed r g) {rtt : Int} (hrtt : 0 ≤ rtt) (hlower : rtt < r.baseLineRtt)
    {r' : RttRecord} (hbase : r'.baseLineRtt = rtt) (hs : r'.sRtt = rtt) :
    Smoothed (r'.smooth rtt) ⟨g.all ++ [rtt], [rtt]⟩ := by
  have hsmooth := sRtt_smooth (hs ▸ hrtt) hrtt
  rw [hs] at hsmooth
  have hnew : 0 ≤ (r'.smooth rtt).sRtt := by omega
  refine ⟨⟨?_, fun _ => ?_, fun _ => ⟨rtt, List.mem_singleton_self _, by omega⟩⟩, ?_, ?_, hnew, ?_⟩
  · rw [smooth_frame, hbase, foldl_min_concat h, min_eq_right hlower.le]
  · rw [smooth_frame, hbase, toMilliseconds_of_nonneg hrtt, toMilliseconds_of_nonneg hnew]
    omega
  · exact fun hnil => absurd hnil (List.append_ne_nil_of_right_ne_nil _ (List.cons_ne_nil _ _))
  · rw [smooth_frame, hbase]
    exact hrtt
  · intro x hx
    exact List.mem_append_right _ hx

/-- Any other sample moves the smoothed value towards itself. -/
theorem Smoothed.keep (h : Smoothed r g) {rtt : Int} (hrtt : 0 ≤ rtt) (hle : r.baseLineRtt ≤ rtt) :
    Smoothed (r.smooth rtt) ⟨g.all ++ [rtt], g.sinceLowered ++ [rtt]⟩ := by
  have hbase := h.base_nonneg
  have hold := h.sRtt_nonneg
  have hsmooth := sRtt_smooth hold hrtt
  have hnew : 0 ≤ (r.smooth rtt).sRtt := by omega
  refine ⟨⟨?_, fun _ => ?_, fun _ => ?_⟩, ?_, ?_, hnew, ?_⟩
  · rw [smooth_frame, foldl_min_concat h, min_eq_left hle]
  · have hms := h.base_le
    rw [toMilliseconds_of_nonneg hbase, toMilliseconds_of_nonneg hold] at hms
    rw [smooth_frame, toMilliseconds_of_nonneg hbase, toMilliseconds_of_nonneg hnew]
    by_cases hall : g.all = []
    · have hidle := h.idle hall
      omega
    · have hms := hms hall
      omega
  · by_cases hsmall : (r.smooth rtt).sRtt ≤ rtt
    · exact ⟨rtt, List.mem_append_right _ (List.mem_singleton_self _), hsmall⟩
    · -- The mean is above the new sample, so it is below the old value.
      have hall : g.all ≠ [] := by
        intro hall
        have hidle := h.idle hall
        omega
      obtain ⟨x, hx, hsx⟩ := h.sRtt_le hall
      exact ⟨x, List.mem_append_left _ hx, by omega⟩
  · exact fun hnil => absurd hnil (List.append_ne_nil_of_right_ne_nil _ (List.cons_ne_nil _ _))
  · rw [smooth_frame]
    exact hbase
  · intro x hx
    rcases List.mem_append.mp hx with hx | hx
    · exact List.mem_append_left _ (h.subset x hx)
    · exact List.mem_append_right _ hx

theorem Smoothed.sample (h : Smoothed r g) {rtt : Int} (hrtt : 0 ≤ rtt) (now : Int) :
    Smoothed ((r.lowerBaseLine now rtt).smooth rtt) (g.add r.baseLineRtt (some rtt)) := by
  by_cases hlower : rtt < r.baseLineRtt
  · have hr : r.lowerBaseLine now rtt =
      {r with baseLineRtt := rtt, sRtt := rtt, baseLineRttTimestamp := now} := if_pos hlower
    rw [hr, DelaySamples.add, if_pos hlower]
    exact h.lower hrtt hlower rfl rfl
  · have hr : r.lowerBaseLine now rtt = r := if_neg hlower
    rw [hr, DelaySamples.add, if_neg hlower]
    exact h.keep hrtt (Int.not_lt.mp hlower)

/-- Only these fields matter. -/
theorem Smoothed.congr (h : Smoothed r g) {r' : RttRecord} (hbase : r'.baseLineRtt = r.baseLineRtt)
    (hs : r'.sRtt = r.sRtt) : Smoothed r' g where
  baseLineRtt := hbase ▸ h.baseLineRtt
  base_le := by rw [hbase, hs]; exact h.base_le
  sRtt_le := hs ▸ h.sRtt_le
  idle := hs ▸ h.idle
  base_nonneg := hbase ▸ h.base_nonneg
  sRtt_nonneg := hs ▸ h.sRtt_nonneg
  subset := h.subset

theorem Smoothed.restore (h : Smoothed r g) (now : Int) : Smoothed (r.restore now) g := by
  unfold RttRecord.restore
  split <;> exact h.congr rfl rfl

theorem updateMinRttInDecrease_frame (r : RttRecord) (mode : Mode) (now rtt : Int) :
    (r.updateMinRttInDecrease mode now rtt).baseLineRtt = r.baseLineRtt ∧
      (r.updateMinRttInDecrease mode now rtt).sRtt = r.sRtt ∧
      (r.updateMinRttInDecrease mode now rtt).seqAtBackoff = r.seqAtBackoff := by
  unfold RttRecord.updateMinRttInDecrease
  split <;> exact ⟨rfl, rfl, rfl⟩

end Smoothed

/-! ### One event -/

section Step
variable {s : MyBbrSenderV5} {g : DelaySamples}

/-- The sample of an acknowledgement, before anything is decided. -/
theorem Smoothed.after (h : Smoothed s.rtt g) {t : Int} {p : Nat}
    (hnonneg : ∀ rtt, measured s (.ack t p) = some rtt → 0 ≤ rtt) :
    Smoothed (s.rtt.after s.control.mode t p (measured s (.ack t p)))
      (g.add s.rtt.baseLineRtt (delaySample s (.ack t p))) := by
  simp only [delaySample]
  cases hrtt : measured s (.ack t p) with
  | none =>
    rw [ite_self]
    exact h
  | some rtt =>
    obtain ⟨hbase, hs, hseq⟩ :=
      updateMinRttInDecrease_frame (s.rtt.updateMinRtt t rtt) s.control.mode t rtt
    have hlowered : Smoothed ((s.rtt.updateMinRtt t rtt).updateMinRttInDecrease s.control.mode t rtt)
      g := h.congr hbase hs
    show Smoothed (RttRecord.updateSmoothedRtt _ s.control.mode t p rtt) _
    unfold RttRecord.updateSmoothedRtt
    rw [hseq]
    show Smoothed (if s.control.mode = .increase ∧ s.rtt.seqAtBackoff < p then _ else _) _
    split
    · have hsample := hlowered.sample (hnonneg rtt hrtt) t
      rw [hbase] at hsample
      exact hsample
    · exact hlowered

theorem Smoothed.step (h : Smoothed s.rtt g) {e : Event}
    (hnonneg : ∀ rtt, measured s e = some rtt → 0 ≤ rtt) :
    Smoothed (step s e).rtt
      (if backsOff s e then .empty else g.add s.rtt.baseLineRtt (delaySample s e)) := by
  cases e with
  | sent t p bytes =>
    rw [backsOff_sent, rtt_step_sent]
    exact h
  | ack t p =>
    by_cases hp : p ≤ s.ledger.lastAckSeq
    · have hnone : measured s (.ack t p) = none := if_pos hp
      rw [backsOff_ignored hp, step_ignored hp]
      simp only [delaySample, hnone, ite_self]
      exact h
    · have hp : s.ledger.lastAckSeq < p := Nat.lt_of_not_le hp
      have hafter := h.after hnonneg
      rw [rtt_step hp, backsOff_accepted hp]
      simp only
      cases s.entersDecrease t p with
      | true =>
        split
        · exact (smoothed_backOff _ _).restore t
        · exact smoothed_backOff _ _
      | false =>
        split
        · exact hafter.restore t
        · exact hafter

end Step

/-! ### Whole runs -/

section Run
variable {minBps : Nat} {random : MyQuicRandom}

theorem smoothed_run (es : List Event) (h : Chronological es) :
    Smoothed (run step (.new minBps random) es).rtt (delaySamples (.new minBps random) es) := by
  induction es using List.reverseRecOn with
  | nil => exact smoothed_backOff (MyBbrSenderV5.new minBps random).rtt 0
  | append_singleton es e ih =>
    rw [delaySamples_concat, run_concat]
    exact (ih h.init).step fun rtt hrtt => measured_nonneg h hrtt

/-- Congestion is reported only if a sample is above the tolerable delay. -/
theorem Smoothed.exists_delayed {s : MyBbrSenderV5} {g : DelaySamples} (h : Smoothed s.rtt g)
    {p : Nat} (hdelay : (s.checkIfCongestion p).1 = ccDelay) :
    ∃ rtt ∈ g.all, Delta.mulDouble s.rtt.baseLineRtt kTolerableDelayFactor < rtt := by
  have hdelayed : s.isDelayed = true := by
    by_contra hnot
    simp only [MyBbrSenderV5.checkIfCongestion, hnot] at hdelay
    cases hdelay
  obtain ⟨hfinite, hlt, -⟩ := of_decide_eq_true hdelayed
  have hall : g.all ≠ [] := by
    intro hall
    apply hfinite
    rw [h.baseLineRtt, hall]
    rfl
  obtain ⟨rtt, hmem, hle⟩ := h.sRtt_le hall
  exact ⟨rtt, h.subset rtt hmem, hlt.trans_le hle⟩

/-- **The delay signal is sound.** In every state of a run the base line is the least of the
samples of the signal and the smoothed value is between the base line, in whole milliseconds,
and the largest sample since it was lowered. Both also hold where the next acknowledgement
calls `CheckIfCongestion`, with its own sample, and the call returns `cc_delay` only if a
sample is above the tolerable multiple of the base line. -/
theorem delay_signal_sound (minBps : Nat) (random : MyQuicRandom) (es : List Event)
    (h : Chronological es) :
    let s := run step (.new minBps random) es
    let g := delaySamples (.new minBps random) es
    Sound s.rtt g ∧
      ∀ t p, Chronological (es ++ [.ack t p]) → s.ledger.lastAckSeq < p →
        let asked := (s.answer t p).2.2
        let g := g.add s.rtt.baseLineRtt (delaySample s (.ack t p))
        Sound asked.rtt g ∧ ((asked.checkIfCongestion p).1 = ccDelay →
          ∃ rtt ∈ g.all, Delta.mulDouble asked.rtt.baseLineRtt kTolerableDelayFactor < rtt) := by
  intro s g
  have hs : Smoothed s.rtt g := smoothed_run es h
  refine ⟨hs.toSound, fun t p hnext hp => ?_⟩
  have hafter := hs.after fun rtt hrtt => measured_nonneg hnext hrtt
  rw [measured_accepted hp, ← MyBbrSenderV5.rtt_answer] at hafter
  exact ⟨hafter.toSound, hafter.exists_delayed⟩

end Run

/-- After an expiry, a round trip of a tenth of a second in `ST_INCREASE`. -/
def steadyIncrease : List Event :=
  lateAck ++ [.sent 10000200 3 1000, .ack 10100200 3, .sent 10100300 4 1000]

/-- The next round trip takes twice as long, and the delay is noticed. -/
theorem delay_signal_sound_doubled :
    let s := run step (.new 1000000 ⟨fun _ => 0, 0⟩) steadyIncrease
    let asked := (s.answer 10300300 4).2.2
    Chronological (steadyIncrease ++ [.ack 10300300 4]) ∧ (asked.checkIfCongestion 4).1 = ccDelay ∧
      ∃ rtt ∈ [100000, 200000],
        Delta.mulDouble asked.rtt.baseLineRtt kTolerableDelayFactor < rtt := by
  intro s asked
  have hdelay : (asked.checkIfCongestion 4).1 = ccDelay := by decide +kernel
  have hsamples : ((delaySamples (.new 1000000 ⟨fun _ => 0, 0⟩) steadyIncrease).add s.rtt.baseLineRtt
      (delaySample s (.ack 10300300 4))).all = [100000, 200000] := by decide +kernel
  have hsound := ((delay_signal_sound 1000000 ⟨fun _ => 0, 0⟩ steadyIncrease (by decide)).2 10300300
    4 (by decide) (by decide +kernel)).2 hdelay
  rw [hsamples] at hsound
  exact ⟨by decide, hdelay, hsound⟩

end CongestionResponse.DelayBbr
