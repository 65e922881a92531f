import CongestionResponse.DelayBbr.RttUpdates

/-! The age of the minimum round trip time of `MyBbrSenderV5`.

`min_rtt_timestamp_` is meant to be the time of a measurement close to `min_rtt_`. A sample that
lowers or confirms the minimum keeps it so, and so does the minimum of an `ST_DECREASE`, which
has a date of its own. The fallback does not: an `ST_DECREASE` that an expiry began and that
took no sample ends with the old minimum, dated anew. The date is backed by a measurement in
every state exactly if every fallback comes with one (`min_rtt_backed_iff`). -/
namespace CongestionResponse.DelayBbr
open Lib Quic

/-! ### Measurements -/

structure Measurement where
  time : Int
  rtt : Int
deriving DecidableEq

/-- What an accepted acknowledgement measures. -/
def measurement (s : MyBbrSenderV5) (e : Event) : List Measurement :=
  (measured s e).toList.map fun rtt => ⟨e.time, rtt⟩

/-- The measurements of a run, in order. -/
def measurements (s : MyBbrSenderV5) (es : List Event) : List Measurement :=
  trace step measurement s es

/-- A measurement that dates this minimum: it is taken at its time, and above it by an eighth at
most. -/
def Measurement.Dates (x : Measurement) (m : MinRtt) : Prop :=
  x.time = m.minRttTimestamp ∧ m.minRtt ≤ x.rtt ∧
    x.rtt ≤ Delta.mulDouble m.minRtt kSimilarMinRttThreshold

instance (x : Measurement) (m : MinRtt) : Decidable (x.Dates m) :=
  inferInstanceAs (Decidable (_ ∧ _ ∧ _))

/-- A minimum with a date that is backed by a measurement, unless there is none. -/
def Backed (xs : List Measurement) (m : MinRtt) : Prop := m.minRtt ≠ 0 → ∃ x ∈ xs, x.Dates m

instance (xs : List Measurement) (m : MinRtt) : Decidable (Backed xs m) :=
  inferInstanceAs (Decidable (_ → _))

section Backed
variable {xs : List Measurement} {m : MinRtt}

theorem Backed.append (h : Backed xs m) (ys : List Measurement) : Backed (xs ++ ys) m := by
  intro hm
  obtain ⟨x, hx, hdates⟩ := h hm
  exact ⟨x, List.mem_append_left _ hx, hdates⟩

/-- A measurement dates itself. -/
theorem backed_of_mem {time rtt : Int} (h : ⟨time, rtt⟩ ∈ xs) (hrtt : 0 ≤ rtt) :
    Backed xs ⟨rtt, time⟩ :=
  fun _ => ⟨⟨time, rtt⟩, h, rfl, Int.le_refl _, le_mulDouble_similar hrtt⟩

/-- Whatever a sample does to the minimum, its date is backed. -/
theorem Backed.update (h : Backed xs m) {now rtt : Int} (hrtt : 0 ≤ rtt) :
    Backed (xs ++ [⟨now, rtt⟩]) (m.update now rtt) := by
  have hself : Backed (xs ++ [⟨now, rtt⟩]) ⟨rtt, now⟩ :=
    backed_of_mem (List.mem_append_right _ (List.mem_singleton_self _)) hrtt
  unfold MinRtt.update MinRtt.lower
  split
  · exact hself
  · split
    · have hconfirm : (⟨rtt, now⟩ : MinRtt).confirm now rtt = ⟨rtt, now⟩ :=
        if_neg fun hlt => Int.lt_irrefl _ hlt.1
      rw [hconfirm]
      exact hself
    · unfold MinRtt.confirm
      split
      · rename_i hnear
        exact fun _ => ⟨⟨now, rtt⟩, List.mem_append_right _ (List.mem_singleton_self _), rfl,
          Int.le_of_lt hnear.1, hnear.2⟩
      · exact h.append _

end Backed

/-! ### The record -/

/-- The minimum is backed, and so is the minimum of the last `ST_DECREASE`. -/
structure Grounded (xs : List Measurement) (r : RttRecord) : Prop where
  minRtt : Backed xs r.toMinRtt
  decrease : r.minRttInDecrease = Delta.infinite ∨
    ⟨r.minRttTimestampInDecrease, r.minRttInDecrease⟩ ∈ xs
  nonneg : 0 ≤ r.minRttInDecrease

section Grounded
variable {xs : List Measurement} {r : RttRecord}

theorem Grounded.update (h : Grounded xs r) {rtt : Int} (hrtt : 0 ≤ rtt) (mode : Mode) (now : Int)
    (p : Nat) : Grounded (xs ++ [⟨now, rtt⟩]) (r.update mode now p rtt) := by
  have hminRtt : Backed (xs ++ [⟨now, rtt⟩]) (r.update mode now p rtt).toMinRtt := by
    rw [MyBbrSenderV5.minRtt_update]
    exact h.minRtt.update hrtt
  have hdecrease := r.decrease_update mode now p rtt
  split at hdecrease
  · obtain ⟨hvalue, hdate⟩ := Prod.mk.inj hdecrease
    refine ⟨hminRtt, .inr ?_, hrtt.trans_eq hvalue.symm⟩
    rw [hvalue, hdate]
    exact List.mem_append_right _ (List.mem_singleton_self _)
  · obtain ⟨hvalue, hdate⟩ := Prod.mk.inj hdecrease
    refine ⟨hminRtt, ?_, h.nonneg.trans_eq hvalue.symm⟩
    rw [hvalue, hdate]
    exact h.decrease.imp_right fun hmem => List.mem_append_left _ hmem

theorem Grounded.backOff (h : Grounded xs r) (p : Nat) : Grounded xs (r.backOff p) :=
  ⟨h.minRtt, .inl rfl, show (0 : Int) ≤ Delta.infinite by decide⟩

/-- Out of an expiry: the minimum of `ST_DECREASE` is backed, the recorded one has to be. -/
theorem Grounded.restore (h : Grounded xs r) {now : Int}
    (hfallback : r.minRttInDecrease = Delta.infinite → Backed xs ⟨r.minRttRecord, now⟩) :
    Grounded xs (r.restore now) := by
  unfold RttRecord.restore
  split
  · exact ⟨hfallback ‹_›, h.decrease, h.nonneg⟩
  · exact ⟨backed_of_mem (h.decrease.resolve_left ‹_›) h.nonneg, h.decrease, h.nonneg⟩

end Grounded

/-! ### One event -/

/-- The minimum there was before an `ST_DECREASE`: the one it has recorded, or the present one if
it is yet to begin. -/
def MyBbrSenderV5.oldMinRtt (s : MyBbrSenderV5) : Int :=
  if s.control.mode = .decrease then s.rtt.minRttRecord else s.rtt.minRtt

/-- An acknowledgement ends an `ST_DECREASE` that an expiry began. If it lasts already, no sample
was taken in it, and none is taken now; if the acknowledgement begins it, it has none. -/
def FallsBack (s : MyBbrSenderV5) : Event → Prop
  | .sent _ _ _ => False
  | .ack t p =>
    s.ledger.lastAckSeq < p ∧ s.restoresMinRtt t p = true ∧
      (s.control.mode = .decrease → s.rtt.minRttInDecrease = Delta.infinite ∧
        ∀ rtt ∈ s.rttSample t p, Delta.infinite ≤ rtt)

instance (s : MyBbrSenderV5) : (e : Event) → Decidable (FallsBack s e)
  | .sent _ _ _ => isFalse id
  | .ack _ _ => inferInstanceAs (Decidable (_ ∧ _ ∧ _))

section Step
variable {s : MyBbrSenderV5} {xs : List Measurement}

/-- The sample of an acknowledgement is backed by itself. -/
theorem Grounded.after (h : Grounded xs s.rtt) {t : Int} {p : Nat}
    (hnonneg : ∀ rtt, measured s (.ack t p) = some rtt → 0 ≤ rtt) :
    Grounded (xs ++ measurement s (.ack t p))
      (s.rtt.after s.control.mode t p (measured s (.ack t p))) := by
  unfold measurement
  cases hrtt : measured s (.ack t p) with
  | none =>
    show Grounded (xs ++ []) s.rtt
    rw [List.append_nil]
    exact h
  | some rtt => exact h.update (hnonneg rtt hrtt) s.control.mode t p

theorem Grounded.ite_backOff {r : RttRecord} (h : Grounded xs r) (c : Bool) (p : Nat) :
    Grounded xs (if c then r.backOff p else r) := by
  split
  · exact h.backOff p
  · exact h

/-- An expiry leaves the minimum as it was: a sample that changed it would have dated it. -/
theorem minRtt_of_expired {t : Int} {p : Nat} (h : (s.answer t p).2.2.rtt.isExpired t = true) :
    (s.answer t p).2.2.rtt.minRtt = s.rtt.minRtt := by
  have hstale : ¬s.rtt.toMinRtt.FreshAt t (s.rttSample t p) := by
    rw [← MinRtt.isExpired_after, ← s.minRtt_answer]
    exact fun hfresh => Bool.false_ne_true (hfresh.symm.trans h)
  show (s.answer t p).2.2.rtt.toMinRtt.minRtt = _
  rw [s.minRtt_answer]
  cases hsample : s.rttSample t p with
  | none => rfl
  | some rtt =>
    have hnot : ¬s.rtt.toMinRtt.Refreshes rtt := fun hr => hstale (.inl ⟨rtt, hsample, hr⟩)
    unfold MinRtt.Refreshes at hnot
    rw [MinRtt.after, MinRtt.minRtt_update, if_neg (fun hzero => hnot (.inl hzero))]
    exact min_eq_right (not_lt.mp fun hlt => hnot (.inr (.inl hlt)))

/-- In `ST_DECREASE` a sample leaves no minimum behind exactly if there was none and it is
infinite itself. -/
theorem minRttInDecrease_update_iff {r : RttRecord} (hle : r.minRttInDecrease ≤ Delta.infinite)
    (t : Int) (p : Nat) (rtt : Int) :
    (r.update .decrease t p rtt).minRttInDecrease = Delta.infinite ↔
      r.minRttInDecrease = Delta.infinite ∧ Delta.infinite ≤ rtt := by
  have hupdate := congrArg Prod.fst (r.decrease_update .decrease t p rtt)
  split at hupdate
  · rename_i htaken
    have htaken := htaken.2
    simp only at hupdate
    rw [hupdate]
    omega
  · rename_i hkept
    have hgt : ¬rtt ≤ r.minRttInDecrease := fun hle => hkept ⟨rfl, hle⟩
    simp only at hupdate
    rw [hupdate]
    omega

/-- Where the `ST_DECREASE` lasts already, only the sample writes anything. -/
theorem decreased_of_lasting {t : Int} {p : Nat} (hp : s.ledger.lastAckSeq < p)
    (hround : s.rounds.roundTripCount ≠ 0) (hdecrease : s.control.mode = .decrease)
    (hle : s.rtt.minRttInDecrease ≤ Delta.infinite) :
    (s.decreased t p).rtt.minRttRecord = s.rtt.minRttRecord ∧
      ((s.decreased t p).rtt.minRttInDecrease = Delta.infinite ↔
        s.rtt.minRttInDecrease = Delta.infinite ∧
          ∀ rtt ∈ s.rttSample t p, Delta.infinite ≤ rtt) := by
  have hrtt := MyBbrSenderV5.rtt_decreased (t := t) hp hround
  have henter : s.entersDecrease t p = false := decide_eq_false fun h => h.2.1 hdecrease
  rw [henter, measured_accepted hp, hdecrease] at hrtt
  rw [hrtt]
  cases s.rttSample t p with
  | none => exact ⟨rfl, by simp [RttRecord.after]⟩
  | some rtt =>
    refine ⟨s.rtt.minRttRecord_update .decrease t p rtt, ?_⟩
    simp only [Option.mem_def, Option.some_inj, forall_eq']
    exact minRttInDecrease_update_iff hle t p rtt

/-- Where the acknowledgement begins it, it does so with the expiry, and records the minimum. -/
theorem decreased_of_beginning {t : Int} {p : Nat} (hp : s.ledger.lastAckSeq < p)
    (hrestore : s.restoresMinRtt t p = true) (hdecrease : s.control.mode ≠ .decrease) :
    (s.decreased t p).rtt.minRttRecord = s.rtt.minRtt ∧
      (s.decreased t p).rtt.minRttInDecrease = Delta.infinite := by
  obtain ⟨hround, hmode, -, hexpired⟩ := of_decide_eq_true hrestore
  have hsame : (s.reason t p).2.control.mode = s.control.mode :=
    congrArg Prod.fst (s.control_reason t p)
  have hcause : (s.reason t p).2.control.mode ≠ .decrease ∧
      ((s.answer t p).2.2.rtt.isExpired t ∨ (s.reason t p).1 ≠ 0) := by
    by_contra hnot
    rw [MyBbrSenderV5.decreased, MyBbrSenderV5.enterDecrease, if_neg hnot, hsame] at hmode
    exact hdecrease hmode
  have hstale : (s.answer t p).2.2.rtt.isExpired t = true := by
    rwa [MyBbrSenderV5.decreased, MyBbrSenderV5.enterDecrease, if_pos hcause] at hexpired
  have henter : s.entersDecrease t p = true := decide_eq_true ⟨hround, hdecrease, .inl hstale⟩
  have hrtt := MyBbrSenderV5.rtt_decreased (t := t) hp hround
  rw [henter, measured_accepted hp, ← s.rtt_answer] at hrtt
  rw [hrtt]
  exact ⟨minRtt_of_expired hstale, rfl⟩

/-- What the way out of an expiry finds, in terms of the state before the acknowledgement. -/
theorem decreased_of_restoresMinRtt {t : Int} {p : Nat} (hp : s.ledger.lastAckSeq < p)
    (hrestore : s.restoresMinRtt t p = true) (hle : s.rtt.minRttInDecrease ≤ Delta.infinite) :
    (s.decreased t p).rtt.minRttRecord = s.oldMinRtt ∧
      ((s.decreased t p).rtt.minRttInDecrease = Delta.infinite ↔ FallsBack s (.ack t p)) := by
  rw [MyBbrSenderV5.oldMinRtt, FallsBack, and_iff_right hp, and_iff_right hrestore]
  by_cases hdecrease : s.control.mode = .decrease
  · obtain ⟨hrecord, hiff⟩ :=
      decreased_of_lasting (t := t) hp (of_decide_eq_true hrestore).1 hdecrease hle
    rw [if_pos hdecrease, imp_iff_right hdecrease]
    exact ⟨hrecord, hiff⟩
  · obtain ⟨hrecord, hnone⟩ := decreased_of_beginning hp hrestore hdecrease
    rw [if_neg hdecrease]
    exact ⟨hrecord, iff_of_true hnone fun h => absurd h hdecrease⟩

/-- An event that falls back leaves the old minimum, dated now. -/
theorem minRtt_of_fallsBack {e : Event} (hle : s.rtt.minRttInDecrease ≤ Delta.infinite)
    (h : FallsBack s e) : (step s e).rtt.toMinRtt = ⟨s.oldMinRtt, e.time⟩ := by
  cases e with
  | sent t p bytes => exact h.elim
  | ack t p =>
    obtain ⟨hrecord, hiff⟩ := decreased_of_restoresMinRtt h.1 h.2.1 hle
    rw [rtt_step_of_restoresMinRtt h.1 h.2.1, RttRecord.restore, if_pos (hiff.mpr h), hrecord]
    rfl

theorem Grounded.step (h : Grounded xs s.rtt) {e : Event}
    (hnonneg : ∀ rtt, measured s e = some rtt → 0 ≤ rtt)
    (hle : s.rtt.minRttInDecrease ≤ Delta.infinite)
    (hfallback : FallsBack s e → Backed (xs ++ measurement s e) ⟨s.oldMinRtt, e.time⟩) :
    Grounded (xs ++ measurement s e) (step s e).rtt := by
  cases e with
  | sent t p bytes =>
    show Grounded (xs ++ []) s.rtt
    rw [List.append_nil]
    exact h
  | ack t p =>
    by_cases hp : p ≤ s.ledger.lastAckSeq
    · have hnone : measured s (.ack t p) = none := if_pos hp
      rw [step_ignored hp, measurement, hnone]
      show Grounded (xs ++ []) s.rtt
      rw [List.append_nil]
      exact h
    · have hp : s.ledger.lastAckSeq < p := Nat.lt_of_not_le hp
      have hafter := (h.after hnonneg).ite_backOff (s.entersDecrease t p) s.ledger.lastSentPacket
      by_cases hrestore : s.restoresMinRtt t p = true
      · rw [rtt_step_of_restoresMinRtt hp hrestore]
        have hdecreased := MyBbrSenderV5.rtt_decreased (t := t) hp (of_decide_eq_true hrestore).1
        apply Grounded.restore
        · rw [hdecreased]
          exact hafter
        · intro hinfinite
          obtain ⟨hrecord, hiff⟩ := decreased_of_restoresMinRtt hp hrestore hle
          rw [hrecord]
          exact hfallback (hiff.mp hinfinite)
      · rw [rtt_step hp]
        simp only [hrestore]
        exact hafter

end Step

/-! ### Whole runs -/

/-- Where an event falls back, some acknowledgement so far, this one included, came at the same
time and has measured the old minimum or up to an eighth more, unless there was none. -/
def FallbackMeasured (s₀ : MyBbrSenderV5) (past : List Event) (e : Event) : Prop :=
  FallsBack (run step s₀ past) e → (run step s₀ past).oldMinRtt ≠ 0 →
    ∃ x ∈ measurements s₀ (past ++ [e]), x.time = e.time ∧ (run step s₀ past).oldMinRtt ≤ x.rtt ∧
      x.rtt ≤ Delta.mulDouble (run step s₀ past).oldMinRtt kSimilarMinRttThreshold

instance (s₀ : MyBbrSenderV5) (past : List Event) (e : Event) :
    Decidable (FallbackMeasured s₀ past e) :=
  inferInstanceAs (Decidable (_ → _ → _))

theorem minRttInDecrease_le (minBps : Nat) (random : MyQuicRandom) (es : List Event) :
    (run step (.new minBps random) es).rtt.minRttInDecrease ≤ Delta.infinite := by
  induction es using List.reverseRecOn with
  | nil => exact Int.le_refl _
  | append_singleton es e ih =>
    rw [run_concat]
    refine rtt_preserved (P := fun r => r.minRttInDecrease ≤ Delta.infinite) ih ?_ ?_ ?_
    · intro rtt _ mode now p
      have hupdate := congrArg Prod.fst
        ((run step (.new minBps random) es).rtt.decrease_update mode now p rtt)
      split at hupdate
      · rename_i htaken
        exact (le_of_eq hupdate).trans (htaken.2.trans ih)
      · exact (le_of_eq hupdate).trans ih
    · intro r p _
      exact Int.le_refl _
    · intro r now hr
      unfold RttRecord.restore
      split <;> exact hr

theorem grounded_run {minBps : Nat} {random : MyQuicRandom} {es : List Event}
    (htimes : Chronological es) (h : Throughout (FallbackMeasured (.new minBps random)) es) :
    Grounded (measurements (.new minBps random) es) (run step (.new minBps random) es).rtt := by
  induction es using List.reverseRecOn with
  | nil => exact ⟨fun hm => absurd rfl hm, .inl rfl, show (0 : Int) ≤ Delta.infinite by decide⟩
  | append_singleton es e ih =>
    obtain ⟨hpast, hhere⟩ := throughout_concat.mp h
    rw [FallbackMeasured, measurements, trace_concat] at hhere
    rw [measurements, trace_concat, run_concat]
    exact (ih htimes.init hpast).step (fun rtt hrtt => measured_nonneg htimes hrtt)
      (minRttInDecrease_le minBps random es) hhere

/-- **The date of the minimum round trip time is backed by a measurement in every state exactly
if every fallback is**: whenever an `ST_DECREASE` that an expiry began ends without a sample of
its own, some acknowledgement at that time has measured the minimum from before it, or up to an
eighth more. -/
theorem min_rtt_backed_iff (minBps : Nat) (random : MyQuicRandom) (es : List Event)
    (htimes : Chronological es) :
    (∀ past, past <+: es → Backed (measurements (.new minBps random) past)
        (run step (.new minBps random) past).rtt.toMinRtt) ↔
      Throughout (FallbackMeasured (.new minBps random)) es := by
  constructor
  · intro h
    -- The state after a fallback shows what it was dated with.
    induction es using List.reverseRecOn with
    | nil => trivial
    | append_singleton es e ih =>
      refine throughout_concat.mpr ⟨ih htimes.init fun past hpast =>
        h past (hpast.trans (List.prefix_append _ _)), fun hfalls => ?_⟩
      have hstate := h (es ++ [e]) (List.prefix_refl _)
      rwa [run_concat, minRtt_of_fallsBack (minRttInDecrease_le minBps random es) hfalls] at hstate
  · intro h past hpast
    obtain ⟨rest, rfl⟩ := hpast
    exact (grounded_run htimes.init (along_append.mp h).1).minRtt

/-- Three round trips of a tenth of a second. The minimum expires at the third, which measures it
exactly, and `ST_DECREASE` ends at once. -/
def equalSamples : List Event :=
  [.sent 0 1 1000, .ack 100000 1, .sent 5000000 2 1000, .ack 5100000 2, .sent 10000001 3 1000,
    .ack 10100001 3]

theorem min_rtt_backed_iff_equal_samples :
    Chronological equalSamples ∧
      FallsBack (run step (.new 1000000 ⟨fun _ => 0, 0⟩) equalSamples.dropLast)
        (.ack 10100001 3) ∧
      (run step (.new 1000000 ⟨fun _ => 0, 0⟩) equalSamples.dropLast).oldMinRtt = 100000 ∧
      ∀ past, past <+: equalSamples → Backed (measurements (.new 1000000 ⟨fun _ => 0, 0⟩) past)
        (run step (.new 1000000 ⟨fun _ => 0, 0⟩) past).rtt.toMinRtt :=
  ⟨by decide, by decide +kernel, by decide +kernel,
    (min_rtt_backed_iff 1000000 ⟨fun _ => 0, 0⟩ equalSamples (by decide)).mpr (by decide +kernel)⟩

/-- A round trip of ten seconds ends with a minimum of a microsecond that is dated now. -/
theorem min_rtt_dated_without_measurement :
    Chronological lateAck ∧
      measurements (.new 1000000 ⟨fun _ => 0, 0⟩) lateAck = [⟨1, 1⟩, ⟨10000100, 10000098⟩] ∧
      (run step (.new 1000000 ⟨fun _ => 0, 0⟩) lateAck).rtt.toMinRtt = ⟨1, 10000100⟩ ∧
      ¬Backed (measurements (.new 1000000 ⟨fun _ => 0, 0⟩) lateAck)
        (run step (.new 1000000 ⟨fun _ => 0, 0⟩) lateAck).rtt.toMinRtt :=
  ⟨by decide, by decide +kernel, by decide +kernel, by decide +kernel⟩

end CongestionResponse.DelayBbr
