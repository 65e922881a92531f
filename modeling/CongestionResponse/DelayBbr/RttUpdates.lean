import CongestionResponse.DelayBbr.Bookkeeping
import CongestionResponse.DelayBbr.Modes

/-! What an event does to the round trip times of `MyBbrSenderV5`.

An accepted acknowledgement writes them in at most three places: it takes the sample of its
packet, it may enter `ST_DECREASE`, and it may leave an `ST_DECREASE` that an expiry began.
`rtt_step` says so in one equation, and every invariant of the round trip times is proved from
it. The sample is the time since the packet was sent, so with a clock that does not run
backwards it is not negative. -/
namespace CongestionResponse.DelayBbr
open Lib Quic

/-! ### Tracked packets were sent -/

theorem sent_of_mem {minBps : Nat} {random : MyQuicRandom} {es : List Event} {k : Nat}
    {packet : PerPacket}
    (h : (k, packet) ∈ (run step (.new minBps random) es).ledger.sentPacketsMap.entries) :
    .sent packet.sentTs k packet.bytes ∈ es := by
  induction es using List.reverseRecOn with
  | nil => cases h
  | append_singleton es e ih =>
    rw [run_concat, ledger_step] at h
    cases e with
    | sent t p bytes =>
      simp only [Ledger.step, Ledger.onPacketSent] at h
      split at h
      · exact List.mem_append_left _ (ih h)
      · rcases OrderedMap.mem_insert.mp h with hold | ⟨hnew, _⟩
        · exact List.mem_append_left _ (ih hold)
        · obtain ⟨rfl, rfl⟩ := Prod.mk.inj hnew
          exact List.mem_append_right _ (List.mem_singleton_self _)
    | ack t p =>
      simp only [Ledger.step, Ledger.onAck] at h
      split at h
      · exact List.mem_append_left _ (ih h)
      · have hentries : ((run step (.new minBps random) es).ledger.acceptAck t
            p).sentPacketsMap.entries = _ := OrderedMap.popWhile_le_entries ..
        rw [hentries] at h
        exact List.mem_append_left _ (ih (List.mem_filter.mp h).1)

/-- The sample that an event takes. -/
def measured (s : MyBbrSenderV5) : Event → Option Int
  | .sent _ _ _ => none
  | .ack t p => if p ≤ s.ledger.lastAckSeq then none else s.rttSample t p

theorem measured_accepted {s : MyBbrSenderV5} {p : Nat} (h : s.ledger.lastAckSeq < p) (t : Int) :
    measured s (.ack t p) = s.rttSample t p := if_neg (Nat.not_le.mpr h)

/-- A sample goes back to a sent packet. -/
theorem sent_of_rttSample {minBps : Nat} {random : MyQuicRandom} {es : List Event} {t rtt : Int}
    {p : Nat} (h : (run step (.new minBps random) es).rttSample t p = some rtt) :
    ∃ sentTs bytes, .sent sentTs p bytes ∈ es ∧ rtt = t - sentTs := by
  obtain ⟨packet, hfind, rfl⟩ := Option.map_eq_some_iff.mp h
  exact ⟨packet.sentTs, packet.bytes, sent_of_mem (OrderedMap.find?_eq_some.mp hfind), rfl⟩

/-- The clock does not run backwards. -/
def Chronological (es : List Event) : Prop := (es.map Event.time).Pairwise (· ≤ ·)

instance (es : List Event) : Decidable (Chronological es) :=
  inferInstanceAs (Decidable (List.Pairwise _ _))

theorem Chronological.init {es rest : List Event} (h : Chronological (es ++ rest)) :
    Chronological es := by
  rw [Chronological, List.map_append, List.pairwise_append] at h
  exact h.1

theorem Chronological.time_le {es : List Event} {e e' : Event} (h : Chronological (es ++ [e]))
    (he' : e' ∈ es) : e'.time ≤ e.time := by
  rw [Chronological, List.map_append, List.pairwise_append] at h
  exact h.2.2 _ (List.mem_map_of_mem he') _ (List.mem_singleton_self _)

/-- With such a clock no sample is negative. -/
theorem measured_nonneg {minBps : Nat} {random : MyQuicRandom} {es : List Event} {e : Event}
    (h : Chronological (es ++ [e])) {rtt : Int}
    (hrtt : measured (run step (.new minBps random) es) e = some rtt) : 0 ≤ rtt := by
  cases e with
  | sent t p bytes => cases hrtt
  | ack t p =>
    simp only [measured] at hrtt
    split at hrtt
    · cases hrtt
    · obtain ⟨sentTs, bytes, hsent, rfl⟩ := sent_of_rttSample hrtt
      have hle : sentTs ≤ t := h.time_le hsent
      omega

/-! ### One acknowledgement -/

/-- The minimum of `ST_DECREASE` and its date, after a sample. -/
theorem RttRecord.decrease_update (r : RttRecord) (mode : Mode) (now : Int) (p : Nat) (rtt : Int) :
    ((r.update mode now p rtt).minRttInDecrease,
        (r.update mode now p rtt).minRttTimestampInDecrease) =
      if mode = .decrease ∧ rtt ≤ r.minRttInDecrease then (rtt, now)
      else (r.minRttInDecrease, r.minRttTimestampInDecrease) := by
  unfold update updateSmoothedRtt updateMinRttInDecrease lowerBaseLine smooth
  split_ifs <;> first | rfl | contradiction

theorem RttRecord.minRttRecord_update (r : RttRecord) (mode : Mode) (now : Int) (p : Nat)
    (rtt : Int) : (r.update mode now p rtt).minRttRecord = r.minRttRecord := by
  unfold update updateSmoothedRtt updateMinRttInDecrease lowerBaseLine smooth
  split_ifs <;> rfl

namespace MyBbrSenderV5
variable (s : MyBbrSenderV5) (t : Int) (p : Nat)

theorem lastSentPacket_answer :
    (s.answer t p).2.2.ledger.lastSentPacket = s.ledger.lastSentPacket := by
  show (((s.receive t p).updateRoundTripCounter p).2.sample t p _).2.ledger.lastSentPacket = _
  rw [updateRoundTripCounter_eq]
  rfl

/-- What the acknowledgement finds in `ST_INCREASE`: the reason for a back-off, if any. -/
def reason : Nat × MyBbrSenderV5 := (s.answer t p).2.2.congestionReason p

/-- Whether the acknowledgement enters `ST_DECREASE`. -/
def entersDecrease : Bool :=
  decide (s.rounds.roundTripCount ≠ 0 ∧ s.control.mode ≠ .decrease ∧
    ((s.answer t p).2.2.rtt.isExpired t ∨ (s.reason t p).1 ≠ 0))

/-- The state between the two halves of `MaybeEnterOrExitDecrease`. -/
def decreased : MyBbrSenderV5 :=
  (s.reason t p).2.enterDecrease ((s.answer t p).2.2.rtt.isExpired t) (s.reason t p).1
    s.rounds.roundTripCount

/-- Whether the acknowledgement leaves an `ST_DECREASE` that an expiry began. -/
def restoresMinRtt : Bool :=
  decide (s.rounds.roundTripCount ≠ 0 ∧ (s.decreased t p).control.mode = .decrease ∧
    (s.decreased t p).isDecreaseOver t ∧ (s.decreased t p).control.minRttExpired)

theorem control_reason : (s.reason t p).2.control.modes = s.control.modes := by
  rw [reason, modes_congestionReason, control_answer]

theorem rtt_reason : (s.reason t p).2.rtt = (s.answer t p).2.2.rtt := by
  rw [reason, congestionReason_eq]

theorem lastSentPacket_reason :
    (s.reason t p).2.ledger.lastSentPacket = s.ledger.lastSentPacket := by
  rw [reason, congestionReason_eq, lastSentPacket_answer]

variable {s t p}

theorem rtt_decreased (hp : s.ledger.lastAckSeq < p) (hround : s.rounds.roundTripCount ≠ 0) :
    (s.decreased t p).rtt =
      let r := s.rtt.after s.control.mode t p (measured s (.ack t p))
      if s.entersDecrease t p then r.backOff s.ledger.lastSentPacket else r := by
  have hmode : (s.reason t p).2.control.mode = s.control.mode :=
    congrArg Prod.fst (s.control_reason t p)
  rw [measured_accepted hp, ← rtt_answer]
  unfold decreased enterDecrease entersDecrease
  rw [hmode]
  by_cases henter : s.control.mode ≠ .decrease ∧
      ((s.answer t p).2.2.rtt.isExpired t ∨ (s.reason t p).1 ≠ 0)
  · rw [if_pos henter, if_pos (decide_eq_true ⟨hround, henter⟩)]
    simp only [rtt_reason, lastSentPacket_reason]
  · rw [if_neg henter, if_neg (fun h => henter (of_decide_eq_true h).2), rtt_reason]

theorem rtt_exitDecrease (s : MyBbrSenderV5) (now : Int) :
    (s.exitDecrease now).rtt =
      if s.control.mode = .decrease ∧ s.isDecreaseOver now ∧ s.control.minRttExpired then
        s.rtt.restore now
      else s.rtt := by
  unfold exitDecrease
  split_ifs <;> first | rfl | simp_all

theorem rtt_manageModes (s : MyBbrSenderV5) (t : Int) (p round : Nat) (isRoundUpdate : Bool)
    (bw : QuicBandwidth) : (s.manageModes t p round isRoundUpdate bw).rtt =
      (((s.congestionReason p).2.enterDecrease (s.rtt.isExpired t) (s.congestionReason p).1
        round).exitDecrease t).rtt := by
  rw [manageModes, cycleGain_eq, maybeExitStartupOrDrain_eq, updateBandwidth_eq]
  rfl

theorem rtt_calculatePacingRate (s : MyBbrSenderV5) : s.calculatePacingRate.rtt = s.rtt := rfl

end MyBbrSenderV5

/-- **What an accepted acknowledgement does to the round trip times.** -/
theorem rtt_step {s : MyBbrSenderV5} {p : Nat} (h : s.ledger.lastAckSeq < p) (t : Int) :
    (step s (.ack t p)).rtt =
      let r := s.rtt.after s.control.mode t p (measured s (.ack t p))
      let r := if s.entersDecrease t p then r.backOff s.ledger.lastSentPacket else r
      if s.restoresMinRtt t p then r.restore t else r := by
  have hstep : step s (.ack t p) = (s.answer t p).2.2.manage t p s.rounds.roundTripCount
      (s.answer t p).1 (s.answer t p).2.1 := if_neg (Nat.not_le.mpr h)
  rw [hstep]
  by_cases hround : s.rounds.roundTripCount = 0
  · have henter : s.entersDecrease t p = false := decide_eq_false fun h => h.1 hround
    have hrestore : s.restoresMinRtt t p = false := decide_eq_false fun h => h.1 hround
    rw [henter, hrestore, MyBbrSenderV5.manage, if_pos hround,
      MyBbrSenderV5.rtt_calculatePacingRate, MyBbrSenderV5.rtt_answer, measured_accepted h]
    rfl
  · rw [MyBbrSenderV5.manage, if_neg hround, MyBbrSenderV5.rtt_calculatePacingRate,
      MyBbrSenderV5.rtt_manageModes]
    show ((s.decreased t p).exitDecrease t).rtt = _
    rw [MyBbrSenderV5.rtt_exitDecrease, MyBbrSenderV5.rtt_decreased h hround]
    simp only [MyBbrSenderV5.restoresMinRtt, ne_eq, hround, not_false_eq_true, true_and,
      decide_eq_true_eq]

theorem rtt_step_of_restoresMinRtt {s : MyBbrSenderV5} {t : Int} {p : Nat}
    (h : s.ledger.lastAckSeq < p) (hrestore : s.restoresMinRtt t p = true) :
    (step s (.ack t p)).rtt = (s.decreased t p).rtt.restore t := by
  rw [rtt_step h, MyBbrSenderV5.rtt_decreased h (of_decide_eq_true hrestore).1]
  simp only [hrestore, if_true]

theorem rtt_step_sent (s : MyBbrSenderV5) (t : Int) (p bytes : Nat) :
    (step s (.sent t p bytes)).rtt = s.rtt := rfl

theorem step_ignored {s : MyBbrSenderV5} {p : Nat} (h : p ≤ s.ledger.lastAckSeq) (t : Int) :
    step s (.ack t p) = s := if_pos h

/-- What a sample, a back-off and the way out of an expiry keep, an event keeps. -/
theorem rtt_preserved {P : RttRecord → Prop} {s : MyBbrSenderV5} {e : Event} (h : P s.rtt)
    (hupdate : ∀ rtt, measured s e = some rtt → ∀ mode now p, P (s.rtt.update mode now p rtt))
    (hbackOff : ∀ r p, P r → P (r.backOff p)) (hrestore : ∀ r now, P r → P (r.restore now)) :
    P (step s e).rtt := by
  cases e with
  | sent t p bytes => exact h
  | ack t p =>
    by_cases hp : p ≤ s.ledger.lastAckSeq
    · rw [step_ignored hp]
      exact h
    · have hafter : P (s.rtt.after s.control.mode t p (measured s (.ack t p))) := by
        cases hrtt : measured s (.ack t p) with
        | none => exact h
        | some rtt => exact hupdate rtt hrtt _ _ _
      have hentered : P (if s.entersDecrease t p then
          (s.rtt.after s.control.mode t p (measured s (.ack t p))).backOff s.ledger.lastSentPacket
          else s.rtt.after s.control.mode t p (measured s (.ack t p))) := by
        split
        · exact hbackOff _ _ hafter
        · exact hafter
      rw [rtt_step (Nat.lt_of_not_le hp)]
      simp only
      split
      · exact hrestore _ t hentered
      · exact hentered

/-! ### Entries into `ST_DECREASE` -/

/-- How often a log of mode changes enters `ST_DECREASE`. -/
def decreases (m : Mode × List ModeChange) : Nat :=
  m.2.countP fun change => decide (change.new = .decrease)

theorem decreases_moved (m : Mode × List ModeChange) (new : Mode) (full : Bool) :
    decreases (moved m new full) = decreases m + if new = .decrease then 1 else 0 := by
  rw [decreases, moved, List.countP_append, List.countP_singleton]
  simp [decreases]

theorem decreases_ite {m : Mode × List ModeChange} {new : Mode} (hnew : new ≠ .decrease)
    (full : Bool) (c : Prop) [Decidable c] :
    decreases (if c then moved m new full else m) = decreases m := by
  split
  · rw [decreases_moved, if_neg hnew]
    rfl
  · rfl

/-- Whether an event enters `ST_DECREASE`, as the log tells. -/
def backsOff (s : MyBbrSenderV5) (e : Event) : Bool :=
  decide (decreases s.control.modes < decreases (step s e).control.modes)

theorem decreases_manageModes (s : MyBbrSenderV5) (t : Int) (p round : Nat) (isRoundUpdate : Bool)
    (bw : QuicBandwidth) :
    decreases (s.manageModes t p round isRoundUpdate bw).control.modes =
      decreases ((s.congestionReason p).2.enterDecrease (s.rtt.isExpired t)
        (s.congestionReason p).1 round).control.modes := by
  unfold MyBbrSenderV5.manageModes
  rw [MyBbrSenderV5.modes_cycleGain, MyBbrSenderV5.maybeExitStartupOrDrain,
    MyBbrSenderV5.modes_exitDrain, decreases_ite (by decide), MyBbrSenderV5.modes_exitStartup,
    decreases_ite (by decide), MyBbrSenderV5.updateBandwidth_eq]
  simp only
  rw [MyBbrSenderV5.maybeEnterOrExitDecrease, MyBbrSenderV5.modes_exitDecrease,
    decreases_ite (by decide)]

theorem backsOff_accepted {s : MyBbrSenderV5} {p : Nat} (h : s.ledger.lastAckSeq < p) (t : Int) :
    backsOff s (.ack t p) = s.entersDecrease t p := by
  have hstep : step s (.ack t p) = (s.answer t p).2.2.manage t p s.rounds.roundTripCount
      (s.answer t p).1 (s.answer t p).2.1 := if_neg (Nat.not_le.mpr h)
  have hmodes := s.control_reason t p
  have hmode : (s.reason t p).2.control.mode = s.control.mode := congrArg Prod.fst hmodes
  rw [backsOff, MyBbrSenderV5.entersDecrease, hstep, modes_manage, decide_eq_decide]
  by_cases hround : s.rounds.roundTripCount = 0
  · rw [if_pos hround, s.control_answer]
    simp [hround]
  · rw [if_neg hround, decreases_manageModes]
    show _ < decreases ((s.reason t p).2.enterDecrease _ (s.reason t p).1 _).control.modes ↔ _
    rw [MyBbrSenderV5.modes_enterDecrease, hmode, hmodes]
    simp only [ne_eq, hround, not_false_eq_true, true_and]
    split
    · rename_i henter
      rw [decreases_moved, if_pos rfl]
      exact iff_of_true (Nat.lt_succ_self _) henter
    · rename_i henter
      exact iff_of_false (Nat.lt_irrefl _) henter

theorem backsOff_sent (s : MyBbrSenderV5) (t : Int) (p bytes : Nat) :
    backsOff s (.sent t p bytes) = false := decide_eq_false (Nat.lt_irrefl _)

theorem backsOff_ignored {s : MyBbrSenderV5} {p : Nat} (h : p ≤ s.ledger.lastAckSeq) (t : Int) :
    backsOff s (.ack t p) = false := by
  rw [backsOff, step_ignored h]
  exact decide_eq_false (Nat.lt_irrefl _)

end CongestionResponse.DelayBbr
