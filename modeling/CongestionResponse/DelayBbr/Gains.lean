import CongestionResponse.DelayBbr.Modes

/-! Mode, gain and gain cycle of `MyBbrSenderV5` stay together.

Five functions write `mode_`, `pacing_gain_` or `cycle_current_offset_`, and an acknowledgement
may go through several of them. `Moves` says once what one of them can do. From it follow the
gain that belongs to each mode (`Matched`), and that the phases of a stay in `ST_INCREASE` are
those of an abstract machine (`phaseStep`): a stay never begins with the draining phase, a phase
is followed by the next one of the cycle, and lasts for more than the minimum round trip time. -/
namespace CongestionResponse.DelayBbr
open Lib Quic

/-! ### Gains -/

/-- The gain that belongs to the mode. -/
def Matched (c : Control) : Prop :=
  match c.mode with
  | .start => c.pacingGain = kDefaultHighGain
  | .drain => c.pacingGain = kDrainGain
  | .decrease => c.pacingGain = hundredths 75
  | .increase => c.cycleCurrentOffset < kGainCycleLength ∧
      kPacingGain[c.cycleCurrentOffset]? = some c.pacingGain

/-! ### Phases -/

/-- What can be seen of the phases: a stay in `ST_INCREASE` begins, its phase changes, it
ends. A change is seen together with the minimum round trip time of the moment. -/
inductive PhaseEvent where
  | entered (offset : Nat) (now : Int)
  | advanced (old new : Nat) (now minRtt : Int)
  | left
deriving DecidableEq

/-- The phase of a stay and the time at which it began. -/
abbrev Phase : Type := Option (Nat × Int)

def phaseStep (_ : Phase) : PhaseEvent → Phase
  | .entered offset now => some (offset, now)
  | .advanced _ new now _ => some (new, now)
  | .left => none

/-- A stay does not begin with the draining phase, which comes after the probing phase only;
and a phase lasts for more than the minimum round trip time. -/
def PhaseOk : Phase → PhaseEvent → Prop
  | none, .entered offset _ => offset ≠ 1
  | some (offset, since), .advanced old new now minRtt =>
    old = offset ∧ (new = 1 → old = 0) ∧ minRtt < now - since
  | some _, .left => True
  | _, _ => False

/-- The phase that the control is in. -/
def phaseOf (c : Control) : Phase :=
  if c.mode = .increase then some (c.cycleCurrentOffset, c.lastCycleStart) else none

/-- What is seen of a helper that turns `s` into `s'`. -/
def observe (now : Int) (s s' : MyBbrSenderV5) : List PhaseEvent :=
  if s.control.mode = .increase then
    if s'.control.mode = .increase then
      if s'.control.cycleCurrentOffset = s.control.cycleCurrentOffset then []
      else [.advanced s.control.cycleCurrentOffset s'.control.cycleCurrentOffset now
        s'.rtt.getMinRtt]
    else [.left]
  else if s'.control.mode = .increase then [.entered s'.control.cycleCurrentOffset now]
  else []

/-- What is seen along several helpers. -/
def observeAll (now : Int) : MyBbrSenderV5 → List MyBbrSenderV5 → List PhaseEvent
  | _, [] => []
  | s, s' :: rest => observe now s s' ++ observeAll now s' rest

/-- The states after each helper that writes the mode, the gain or the offset. -/
def stages (s : MyBbrSenderV5) : Event → List MyBbrSenderV5
  | .sent t p bytes => [s.onPacketSent t p bytes]
  | .ack t p =>
    if p ≤ s.ledger.lastAckSeq ∨ s.rounds.roundTripCount = 0 then [s.onAck t p]
    else
      let answer := s.answer t p
      let reason := answer.2.2.congestionReason p
      let decreased := reason.2.enterDecrease (answer.2.2.rtt.isExpired t) reason.1
        s.rounds.roundTripCount
      let recovered := decreased.exitDecrease t
      let drained := (recovered.updateBandwidth answer.1 answer.2.1
        s.rounds.roundTripCount).exitStartup
      let increased := drained.exitDrain t
      [decreased, recovered, drained, increased, increased.cycleGain t]

/-- What is seen of an event. -/
def phases (s : MyBbrSenderV5) (e : Event) : List PhaseEvent := observeAll e.time s (stages s e)

/-! ### One helper -/

/-- What a helper can do to mode, gain and cycle. -/
inductive Moves (now : Int) (s s' : MyBbrSenderV5) : Prop
  | hold : s'.control.mode = s.control.mode → s'.control.pacingGain = s.control.pacingGain →
    s'.control.cycleCurrentOffset = s.control.cycleCurrentOffset →
    s'.control.lastCycleStart = s.control.lastCycleStart → Moves now s s'
  | decrease : s'.control.mode = .decrease → s'.control.pacingGain = hundredths 75 →
    Moves now s s'
  | drain : s.control.mode = .start → s'.control.mode = .drain →
    s'.control.pacingGain = kDrainGain → Moves now s s'
  | enter (rand : Nat) : s.control.mode ≠ .increase → s'.control.mode = .increase →
    s'.control.cycleCurrentOffset = drawOffset rand →
    s'.control.pacingGain = kPacingGain.getD (drawOffset rand) .one →
    s'.control.lastCycleStart = now → Moves now s s'
  | advance : s.control.mode = .increase → s'.control.mode = .increase →
    s'.control.cycleCurrentOffset = (s.control.cycleCurrentOffset + 1) % kGainCycleLength →
    s'.control.pacingGain =
      kPacingGain.getD ((s.control.cycleCurrentOffset + 1) % kGainCycleLength) .one →
    s'.control.lastCycleStart = now →
    s'.rtt.getMinRtt < now - s.control.lastCycleStart → Moves now s s'

theorem drawOffset_spec (rand : Nat) :
    drawOffset rand < kGainCycleLength ∧ drawOffset rand ≠ 1 := by
  unfold drawOffset kGainCycleLength
  simp only
  split <;> omega

theorem kPacingGain_getD {offset : Nat} (h : offset < kGainCycleLength) :
    kPacingGain[offset]? = some (kPacingGain.getD offset .one) := by
  rw [List.getD_eq_getElem?_getD, List.getElem?_eq_getElem h]
  rfl

section Moves
variable {now : Int} {s s' : MyBbrSenderV5}

theorem matched_increase {c : Control} (hmode : c.mode = .increase)
    (hoffset : c.cycleCurrentOffset < kGainCycleLength)
    (hgain : c.pacingGain = kPacingGain.getD c.cycleCurrentOffset .one) : Matched c := by
  rw [Matched, hmode, hgain]
  exact ⟨hoffset, kPacingGain_getD hoffset⟩

theorem Moves.matched (h : Moves now s s') (hs : Matched s.control) : Matched s'.control := by
  cases h with
  | hold hmode hgain hoffset hstart =>
    rw [Matched, hmode, hgain, hoffset]
    exact hs
  | decrease hmode hgain =>
    rw [Matched, hmode]
    exact hgain
  | drain _ hmode hgain =>
    rw [Matched, hmode]
    exact hgain
  | enter rand _ hmode hoffset hgain _ =>
    exact matched_increase hmode (hoffset ▸ (drawOffset_spec rand).1) (by rw [hgain, hoffset])
  | advance _ hmode hoffset hgain _ _ =>
    exact matched_increase hmode (hoffset ▸ Nat.mod_lt _ (by decide)) (by rw [hgain, hoffset])

theorem phaseOf_increase {c : Control} (h : c.mode = .increase) :
    phaseOf c = some (c.cycleCurrentOffset, c.lastCycleStart) := if_pos h

theorem phaseOf_other {c : Control} (h : c.mode ≠ .increase) : phaseOf c = none := if_neg h

/-- What is seen of a helper is allowed to the phase machine, and takes it along. -/
theorem Moves.observed (h : Moves now s s') (hs : Matched s.control) :
    Along phaseStep PhaseOk (phaseOf s.control) (observe now s s') ∧
      run phaseStep (phaseOf s.control) (observe now s s') = phaseOf s'.control := by
  unfold observe
  cases h with
  | hold hmode _ hoffset hstart =>
    have hsame : phaseOf s'.control = phaseOf s.control := by
      rw [phaseOf, phaseOf, hmode, hoffset, hstart]
    simp only [hsame, hmode, hoffset, if_true]
    split_ifs <;> exact ⟨trivial, rfl⟩
  | decrease hmode _ =>
    have hother : s'.control.mode ≠ .increase := by rw [hmode]; decide
    rw [phaseOf_other hother, if_neg hother, if_neg hother]
    split
    · rename_i hbefore
      rw [phaseOf_increase hbefore]
      exact ⟨⟨trivial, trivial⟩, rfl⟩
    · rename_i hbefore
      rw [phaseOf_other hbefore]
      exact ⟨trivial, rfl⟩
  | drain hstart hmode _ =>
    have hbefore : s.control.mode ≠ .increase := by rw [hstart]; decide
    have hother : s'.control.mode ≠ .increase := by rw [hmode]; decide
    rw [if_neg hbefore, if_neg hother, phaseOf_other hbefore, phaseOf_other hother]
    exact ⟨trivial, rfl⟩
  | enter rand hother hmode hoffset _ hstart =>
    rw [if_neg hother, if_pos hmode, phaseOf_other hother, phaseOf_increase hmode, hoffset, hstart]
    exact ⟨⟨(drawOffset_spec rand).2, trivial⟩, rfl⟩
  | advance hbefore hmode hoffset _ hstart hlong =>
    rw [Matched, hbefore] at hs
    have hlt : s.control.cycleCurrentOffset < 8 := hs.1
    -- The next offset of the cycle is another one, so the change is seen.
    have hne : ¬s'.control.cycleCurrentOffset = s.control.cycleCurrentOffset := by
      rw [hoffset, kGainCycleLength]
      omega
    have hdrain : s'.control.cycleCurrentOffset = 1 → s.control.cycleCurrentOffset = 0 := by
      rw [hoffset, kGainCycleLength]
      omega
    rw [if_pos hbefore, if_pos hmode, if_neg hne, phaseOf_increase hbefore, phaseOf_increase hmode,
      hstart]
    exact ⟨⟨⟨rfl, hdrain, hlong⟩, trivial⟩, rfl⟩

/-- What is seen along several helpers. -/
theorem observeAll_spec {rest : List MyBbrSenderV5}
    (h : List.IsChain (Moves now) (s :: rest)) (hs : Matched s.control) :
    Matched ((s :: rest).getLast (List.cons_ne_nil _ _)).control ∧
      Along phaseStep PhaseOk (phaseOf s.control) (observeAll now s rest) ∧
      run phaseStep (phaseOf s.control) (observeAll now s rest) =
        phaseOf ((s :: rest).getLast (List.cons_ne_nil _ _)).control := by
  induction rest generalizing s with
  | nil => exact ⟨hs, trivial, rfl⟩
  | cons s' rest ih =>
    obtain ⟨hmove, hrest⟩ := List.isChain_cons_cons.mp h
    obtain ⟨hok, hrun⟩ := hmove.observed hs
    obtain ⟨hmatched, hokRest, hrunRest⟩ := ih hrest (hmove.matched hs)
    rw [List.getLast_cons (List.cons_ne_nil _ _)]
    refine ⟨hmatched, ?_, ?_⟩
    · rw [observeAll, along_append, hrun]
      exact ⟨hok, hokRest⟩
    · rw [observeAll, run_append, hrun, hrunRest]

end Moves

/-! ### The helpers of an acknowledgement -/

namespace MyBbrSenderV5
variable (s : MyBbrSenderV5)

theorem moves_enterDecrease {a : MyBbrSenderV5} (now : Int)
    (hsame : a.control.mode = s.control.mode ∧ a.control.pacingGain = s.control.pacingGain ∧
      a.control.cycleCurrentOffset = s.control.cycleCurrentOffset ∧
      a.control.lastCycleStart = s.control.lastCycleStart)
    (expired : Bool) (reason round : Nat) :
    Moves now s (a.enterDecrease expired reason round) := by
  unfold enterDecrease
  split
  · exact .decrease rfl rfl
  · exact .hold hsame.1 hsame.2.1 hsame.2.2.1 hsame.2.2.2

theorem moves_exitDecrease (now : Int) : Moves now s (s.exitDecrease now) := by
  unfold exitDecrease
  split
  · rename_i hmode
    have hother : s.control.mode ≠ .increase := by rw [hmode]; decide
    simp only
    split
    · exact .enter (s.control.random.randUint64).1 hother rfl rfl rfl rfl
    · exact .hold rfl rfl rfl rfl
  · exact .hold rfl rfl rfl rfl

theorem moves_exitStartup (now : Int) (isRoundUpdate : Bool) (bw : QuicBandwidth) (round : Nat) :
    Moves now s (s.updateBandwidth isRoundUpdate bw round).exitStartup := by
  rw [updateBandwidth_eq]
  unfold exitStartup
  split
  · rename_i hstart
    exact .drain hstart.1 rfl rfl
  · exact .hold rfl rfl rfl rfl

theorem moves_exitDrain (now : Int) : Moves now s (s.exitDrain now) := by
  unfold exitDrain
  split
  · rename_i hdrain
    have hother : s.control.mode ≠ .increase := by rw [hdrain.1]; decide
    exact .enter (s.control.random.randUint64).1 hother rfl rfl rfl rfl
  · exact .hold rfl rfl rfl rfl

theorem moves_cycleGain (now : Int) : Moves now s (s.cycleGain now) := by
  unfold cycleGain updateGainCyclePhase Control.updateGainCyclePhase
  split
  · rename_i hmode
    by_cases hlong : s.rtt.getMinRtt < now - s.control.lastCycleStart
    · rw [if_pos hlong]
      exact .advance hmode hmode rfl rfl rfl hlong
    · rw [if_neg hlong]
      exact .hold rfl rfl rfl rfl
  · exact .hold rfl rfl rfl rfl

/-- Looking for congestion touches neither mode nor cycle. -/
theorem control_congestionReason (t : Int) (p : Nat) :
    ((s.answer t p).2.2.congestionReason p).2.control.mode = s.control.mode ∧
      ((s.answer t p).2.2.congestionReason p).2.control.pacingGain = s.control.pacingGain ∧
      ((s.answer t p).2.2.congestionReason p).2.control.cycleCurrentOffset =
        s.control.cycleCurrentOffset ∧
      ((s.answer t p).2.2.congestionReason p).2.control.lastCycleStart =
        s.control.lastCycleStart := by
  have hcontrol := s.control_answer t p
  unfold congestionReason
  split
  · simp only [checkIfCongestion, Control.trackLoss, hcontrol, and_self]
  · simp only [hcontrol, and_self]

end MyBbrSenderV5

/-! ### Whole runs -/

/-- Before the second round the modes are not managed. -/
theorem control_onAck_quiet {s : MyBbrSenderV5} {t : Int} {p : Nat}
    (h : p ≤ s.ledger.lastAckSeq ∨ s.rounds.roundTripCount = 0) :
    (s.onAck t p).control = s.control := by
  unfold MyBbrSenderV5.onAck
  split
  · rfl
  · rename_i hnew
    have hround := h.resolve_left hnew
    show (s.acceptAck t p).control = s.control
    rw [MyBbrSenderV5.acceptAck, MyBbrSenderV5.manage, if_pos hround]
    exact s.control_answer t p

theorem stages_chain (s : MyBbrSenderV5) (e : Event) :
    List.IsChain (Moves e.time) (s :: stages s e) := by
  cases e with
  | sent t p bytes => exact .cons_cons (.hold rfl rfl rfl rfl) (.singleton _)
  | ack t p =>
    rw [stages]
    split
    · rename_i hquiet
      have hcontrol := control_onAck_quiet hquiet (t := t)
      exact .cons_cons (.hold (by rw [hcontrol]) (by rw [hcontrol]) (by rw [hcontrol])
        (by rw [hcontrol])) (.singleton _)
    · exact .cons_cons (s.moves_enterDecrease t (s.control_congestionReason t p) _ _ _)
        (.cons_cons (MyBbrSenderV5.moves_exitDecrease _ t)
          (.cons_cons (MyBbrSenderV5.moves_exitStartup _ t _ _ _)
            (.cons_cons (MyBbrSenderV5.moves_exitDrain _ t)
              (.cons_cons (MyBbrSenderV5.moves_cycleGain _ t) (.singleton _)))))

/-- The last stage has the control of the sender after the event. -/
theorem stages_getLast (s : MyBbrSenderV5) (e : Event) :
    ((s :: stages s e).getLast (List.cons_ne_nil _ _)).control = (step s e).control := by
  cases e with
  | sent t p bytes => rfl
  | ack t p =>
    simp only [stages]
    split
    · rfl
    · rename_i hmanaged
      obtain ⟨hnew, hround⟩ := not_or.mp hmanaged
      have hstep : step s (.ack t p) = ((s.answer t p).2.2.manageModes t p
          s.rounds.roundTripCount (s.answer t p).1 (s.answer t p).2.1).calculatePacingRate :=
        (if_neg hnew).trans (if_neg hround)
      simp only [hstep, MyBbrSenderV5.calculatePacingRate, MyBbrSenderV5.manageModes,
        MyBbrSenderV5.maybeExitStartupOrDrain, MyBbrSenderV5.maybeEnterOrExitDecrease,
        List.getLast_cons_cons, List.getLast_singleton]

/-- What a run keeps: the gain matches the mode, and the phases seen are those of the phase
machine, which is where the control is. -/
structure Paced (seen : List PhaseEvent) (s : MyBbrSenderV5) : Prop where
  matched : Matched s.control
  allowed : Along phaseStep PhaseOk none seen
  phase : run phaseStep none seen = phaseOf s.control

theorem Paced.step {seen : List PhaseEvent} {s : MyBbrSenderV5} (h : Paced seen s) (e : Event) :
    Paced (seen ++ phases s e) (step s e) := by
  obtain ⟨hmatched, hallowed, hrun⟩ := observeAll_spec (stages_chain s e) h.matched
  rw [stages_getLast] at hmatched hrun
  rw [← h.phase] at hallowed hrun
  exact ⟨hmatched, along_append.mpr ⟨h.allowed, hallowed⟩, by rw [run_append]; exact hrun⟩

/-- **In every run, whatever the random generator yields, the gain is the one that belongs to
the mode, and the phases of every stay in `ST_INCREASE` follow the cycle**: the draining phase
is entered from the probing phase only, and every phase lasts for more than the minimum round
trip time. -/
theorem gain_matches_mode (minBps : Nat) (random : MyQuicRandom) (es : List Event) :
    Paced (trace step phases (.new minBps random) es) (run step (.new minBps random) es) := by
  induction es using List.reverseRecOn with
  | nil => exact ⟨rfl, trivial, rfl⟩
  | append_singleton es e ih =>
    rw [trace_concat, run_concat]
    exact ih.step e

end CongestionResponse.DelayBbr
