import CongestionResponse.DelayBbr.Sender

/-! The mode machine of `MyBbrSenderV5`.

By the comments of the source a sender starts in `ST_START`, drains once, and then
alternates between `ST_INCREASE` and `ST_DECREASE`. Every helper keeps to this but one:
`MaybeEnterOrExitDecrease` also enters `ST_DECREASE` when the minimum round trip time has
expired, whatever the mode. A run follows the documented machine exactly if that never
happens before the first `ST_INCREASE` (`follows_iff`). -/
namespace CongestionResponse.DelayBbr
open Lib Quic

/-! ### The documented machine -/

def Mode.next : Mode → Mode
  | .start => .drain
  | .drain => .increase
  | .increase => .decrease
  | .decrease => .increase

/-- The modes in the documented order. -/
def documented : Nat → Mode
  | 0 => .start
  | 1 => .drain
  | n + 2 => if n % 2 = 0 then .increase else .decrease

theorem documented_succ (i : Nat) : documented (i + 1) = (documented i).next := by
  match i with
  | 0 => rfl
  | 1 => rfl
  | n + 2 =>
    show (if (n + 1) % 2 = 0 then Mode.increase else .decrease) =
      (if n % 2 = 0 then Mode.increase else .decrease).next
    rcases Nat.mod_two_eq_zero_or_one n with h | h
    · have hodd : ¬(n + 1) % 2 = 0 := by omega
      rw [if_pos h, if_neg hodd]
      rfl
    · have heven : (n + 1) % 2 = 0 := by omega
      have hodd : ¬n % 2 = 0 := by omega
      rw [if_pos heven, if_neg hodd]
      rfl

/-- The changes of mode of a sender that keeps to the documented machine. -/
structure Follows (log : List ModeChange) : Prop where
  sequence : ∀ i change, log[i]? = some change →
    change.old = documented i ∧ change.new = documented (i + 1)
  startup : ∀ change ∈ log, change.old = .start → change.new = .drain ∧ change.atFullBandwidth = true
  decrease : ∀ change ∈ log, change.new = .decrease → change.old = .increase

/-! ### One change -/

def Control.modes (c : Control) : Mode × List ModeChange := (c.mode, c.modeLog)

def moved (m : Mode × List ModeChange) (new : Mode) (atFullBandwidth : Bool) :
    Mode × List ModeChange :=
  (new, m.2 ++ [⟨m.1, new, atFullBandwidth⟩])

structure OnTrack (m : Mode × List ModeChange) : Prop where
  current : m.1 = documented m.2.length
  follows : Follows m.2

theorem OnTrack.moved {m : Mode × List ModeChange} (h : OnTrack m) {new : Mode}
    (hnew : new = m.1.next) {full : Bool} (hfull : m.1 = .start → full = true) :
    OnTrack (moved m new full) := by
  subst hnew
  have hnext : m.1.next = documented (m.2.length + 1) := by rw [h.current, documented_succ]
  refine ⟨?_, ?_, ?_, ?_⟩
  · rw [DelayBbr.moved, List.length_append]
    exact hnext
  · intro i change hi
    rcases Nat.lt_trichotomy i m.2.length with hlt | rfl | hgt
    · rw [DelayBbr.moved, List.getElem?_append_left hlt] at hi
      exact h.follows.sequence i change hi
    · rw [DelayBbr.moved, List.getElem?_concat_length] at hi
      obtain rfl := Option.some.inj hi
      exact ⟨h.current, hnext⟩
    · rw [DelayBbr.moved, List.getElem?_eq_none (by
        rw [List.length_append, List.length_singleton]; omega)] at hi
      cases hi
  · intro change hmem hold
    rcases List.mem_append.mp hmem with hmem | hmem
    · exact h.follows.startup change hmem hold
    · obtain rfl := List.mem_singleton.mp hmem
      have hstart : m.1 = .start := hold
      exact ⟨by rw [hstart]; rfl, hfull hstart⟩
  · intro change hmem hnew
    rcases List.mem_append.mp hmem with hmem | hmem
    · exact h.follows.decrease change hmem hnew
    · obtain rfl := List.mem_singleton.mp hmem
      have hdecrease : m.1.next = .decrease := hnew
      show m.1 = .increase
      cases hm : m.1 <;> rw [hm] at hdecrease <;> first | rfl | cases hdecrease

/-! ### The helpers -/

/-- The record after an acknowledgement's sample, if it has one. -/
def RttRecord.after (r : RttRecord) (mode : Mode) (now : Int) (packetNumber : Nat) :
    Option Int → RttRecord
  | none => r
  | some rtt => r.update mode now packetNumber rtt

namespace MyBbrSenderV5
variable {s : MyBbrSenderV5}

theorem modes_congestionReason (s : MyBbrSenderV5) (packetNumber : Nat) :
    (s.congestionReason packetNumber).2.control.modes = s.control.modes := by
  unfold congestionReason
  split <;> rfl

/-- Congestion is only looked for in `ST_INCREASE`. -/
theorem mode_of_congestionReason {packetNumber : Nat}
    (h : (s.congestionReason packetNumber).1 ≠ 0) : s.control.mode = .increase := by
  unfold congestionReason at h
  split at h
  · assumption
  · exact absurd rfl h

theorem modes_enterDecrease (s : MyBbrSenderV5) (expired : Bool) (reason round : Nat) :
    (s.enterDecrease expired reason round).control.modes =
      if s.control.mode ≠ .decrease ∧ (expired ∨ reason ≠ 0) then
        moved s.control.modes .decrease s.bandwidth.isAtFullBandwidth
      else s.control.modes := by
  unfold enterDecrease
  split <;> rfl

theorem modes_exitDecrease (s : MyBbrSenderV5) (now : Int) :
    (s.exitDecrease now).control.modes =
      if s.control.mode = .decrease ∧ s.isDecreaseOver now then
        moved s.control.modes .increase s.bandwidth.isAtFullBandwidth
      else s.control.modes := by
  unfold exitDecrease
  split_ifs <;> first | rfl | simp_all

theorem modes_exitStartup (s : MyBbrSenderV5) :
    s.exitStartup.control.modes =
      if s.control.mode = .start ∧ s.bandwidth.isAtFullBandwidth then
        moved s.control.modes .drain s.bandwidth.isAtFullBandwidth
      else s.control.modes := by
  unfold exitStartup
  split <;> rfl

theorem modes_exitDrain (s : MyBbrSenderV5) (now : Int) :
    (s.exitDrain now).control.modes =
      if s.control.mode = .drain ∧ s.ledger.bytesInFlight ≤ s.getTargetCongestionWindow .one then
        moved s.control.modes .increase s.bandwidth.isAtFullBandwidth
      else s.control.modes := by
  unfold exitDrain
  split <;> rfl

theorem modes_cycleGain (s : MyBbrSenderV5) (now : Int) :
    (s.cycleGain now).control.modes = s.control.modes := by
  unfold cycleGain
  split
  · unfold updateGainCyclePhase Control.updateGainCyclePhase
    simp only
    split <;> rfl
  · rfl

/-! ### One acknowledgement -/

theorem onTrack_enterDecrease {expired : Bool} {reason : Nat} (h : OnTrack s.control.modes)
    (hfrom : s.control.mode ≠ .decrease ∧ (expired ∨ reason ≠ 0) → s.control.mode = .increase)
    (round : Nat) : OnTrack (s.enterDecrease expired reason round).control.modes := by
  rw [modes_enterDecrease]
  split
  · rename_i henter
    have hmode : s.control.modes.1 = .increase := hfrom henter
    exact h.moved (by rw [hmode]; rfl) fun hstart => by rw [hmode] at hstart; cases hstart
  · exact h

theorem onTrack_exitDecrease (h : OnTrack s.control.modes) (now : Int) :
    OnTrack (s.exitDecrease now).control.modes := by
  rw [modes_exitDecrease]
  split
  · rename_i hexit
    have hmode : s.control.modes.1 = .decrease := hexit.1
    exact h.moved (by rw [hmode]; rfl) fun hstart => by rw [hmode] at hstart; cases hstart
  · exact h

theorem onTrack_exitStartup (h : OnTrack s.control.modes) :
    OnTrack s.exitStartup.control.modes := by
  rw [modes_exitStartup]
  split
  · rename_i hexit
    have hmode : s.control.modes.1 = .start := hexit.1
    exact h.moved (by rw [hmode]; rfl) fun _ => hexit.2
  · exact h

theorem onTrack_exitDrain (h : OnTrack s.control.modes) (now : Int) :
    OnTrack (s.exitDrain now).control.modes := by
  rw [modes_exitDrain]
  split
  · rename_i hexit
    have hmode : s.control.modes.1 = .drain := hexit.1
    exact h.moved (by rw [hmode]; rfl) fun hstart => by rw [hmode] at hstart; cases hstart
  · exact h

/-- Unless the minimum expires in `ST_START` or `ST_DRAIN`, an acknowledgement keeps to the
documented machine. -/
theorem onTrack_manageModes (h : OnTrack s.control.modes) {t : Int}
    (hfresh : s.control.mode = .start ∨ s.control.mode = .drain → s.rtt.isExpired t = false)
    (p round : Nat) (isRoundUpdate : Bool) (bw : QuicBandwidth) :
    OnTrack (s.manageModes t p round isRoundUpdate bw).control.modes := by
  have hreason := modes_congestionReason s p
  have hmode : (s.congestionReason p).2.control.mode = s.control.mode := congrArg Prod.fst hreason
  have hdecrease : OnTrack ((s.congestionReason p).2.maybeEnterOrExitDecrease t
      (s.rtt.isExpired t) (s.congestionReason p).1 round).control.modes := by
    refine onTrack_exitDecrease (onTrack_enterDecrease (by rwa [hreason]) ?_ round) t
    rw [hmode]
    rintro ⟨hne, hexpired | hcongested⟩
    · -- An expiry finds neither `ST_START` nor `ST_DRAIN`, so it finds `ST_INCREASE`.
      cases hm : s.control.mode with
      | start => rw [hfresh (.inl hm)] at hexpired; cases hexpired
      | drain => rw [hfresh (.inr hm)] at hexpired; cases hexpired
      | increase => rfl
      | decrease => exact absurd hm hne
    · exact mode_of_congestionReason hcongested
  unfold manageModes
  rw [modes_cycleGain]
  refine onTrack_exitDrain (onTrack_exitStartup ?_) t
  rw [updateBandwidth_eq]
  exact hdecrease

/-! ### The log only grows -/

theorem grows_ite (m : Mode × List ModeChange) (new : Mode) (full : Bool) (c : Prop) [Decidable c] :
    m.2 <+: (if c then moved m new full else m).2 := by
  split
  · exact List.prefix_append _ _
  · exact List.prefix_refl _

/-- What entering `ST_DECREASE` logged is logged after the acknowledgement. -/
theorem grows_manageModes (s : MyBbrSenderV5) (t : Int) (p round : Nat) (isRoundUpdate : Bool)
    (bw : QuicBandwidth) :
    ((s.congestionReason p).2.enterDecrease (s.rtt.isExpired t) (s.congestionReason p).1
      round).control.modes.2 <+: (s.manageModes t p round isRoundUpdate bw).control.modes.2 := by
  unfold manageModes
  rw [modes_cycleGain, maybeExitStartupOrDrain, modes_exitDrain]
  refine List.IsPrefix.trans ?_ (grows_ite _ _ _ _)
  rw [modes_exitStartup]
  refine List.IsPrefix.trans ?_ (grows_ite _ _ _ _)
  rw [updateBandwidth_eq]
  simp only
  rw [maybeEnterOrExitDecrease, modes_exitDecrease]
  exact grows_ite _ _ _ _

/-- An expiry outside `ST_DECREASE` enters it, from whatever mode it is. -/
theorem mem_manageModes {t : Int} (hmode : s.control.mode ≠ .decrease)
    (hexpired : s.rtt.isExpired t = true) (p round : Nat) (isRoundUpdate : Bool)
    (bw : QuicBandwidth) :
    ∃ full, ⟨s.control.mode, .decrease, full⟩ ∈
      (s.manageModes t p round isRoundUpdate bw).control.modeLog := by
  have hreason := modes_congestionReason s p
  have hsame : (s.congestionReason p).2.control.mode = s.control.mode := congrArg Prod.fst hreason
  refine ⟨(s.congestionReason p).2.bandwidth.isAtFullBandwidth,
    (grows_manageModes s t p round isRoundUpdate bw).subset ?_⟩
  rw [modes_enterDecrease, if_pos ⟨by rwa [hsame], .inl hexpired⟩, hreason]
  exact List.mem_append_right _ (List.mem_singleton_self _)

/-! ### Before the modes are managed -/

theorem control_answer (s : MyBbrSenderV5) (t : Int) (p : Nat) :
    (s.answer t p).2.2.control = s.control := by
  show (((s.receive t p).updateRoundTripCounter p).2.sample t p _).2.control = _
  rw [updateRoundTripCounter_eq]
  rfl

/-- The round trip times take the sample of the acknowledged packet, if it is tracked,
before anything else is decided. -/
theorem rtt_answer (s : MyBbrSenderV5) (t : Int) (p : Nat) :
    (s.answer t p).2.2.rtt = s.rtt.after s.control.mode t p (s.rttSample t p) := by
  have hrtt : (s.answer t p).2.2.rtt = (s.receive t p).rtt := by
    show (((s.receive t p).updateRoundTripCounter p).2.sample t p _).2.rtt = _
    rw [updateRoundTripCounter_eq]
    rfl
  -- The gap before the packet leaves its own sending time alone.
  have hsample : ({s with ledger := s.ledger.onGap p} : MyBbrSenderV5).rttSample t p =
    s.rttSample t p := rfl
  rw [hrtt, receive, updateRttAndInflight, hsample]
  cases s.rttSample t p <;> rfl

theorem minRtt_update (r : RttRecord) (mode : Mode) (now : Int) (packetNumber : Nat) (rtt : Int) :
    (r.update mode now packetNumber rtt).toMinRtt = r.toMinRtt.update now rtt := by
  unfold RttRecord.update RttRecord.updateSmoothedRtt RttRecord.updateMinRttInDecrease
    RttRecord.lowerBaseLine RttRecord.smooth
  split_ifs <;> rfl

theorem minRtt_answer (s : MyBbrSenderV5) (t : Int) (p : Nat) :
    (s.answer t p).2.2.rtt.toMinRtt = s.rtt.toMinRtt.after t (s.rttSample t p) := by
  rw [rtt_answer]
  cases s.rttSample t p with
  | none => rfl
  | some rtt => exact minRtt_update _ _ _ _ _

end MyBbrSenderV5

/-! ### Whole runs -/

/-- Before the first `ST_INCREASE`, an acknowledgement after the first round finds the
minimum round trip time fresh, or makes it so. -/
def StaysFresh (s : MyBbrSenderV5) : Event → Prop
  | .sent _ _ _ => True
  | .ack t p => s.ledger.lastAckSeq < p → s.rounds.roundTripCount ≠ 0 →
      s.control.mode = .start ∨ s.control.mode = .drain →
        s.rtt.FreshAt t (s.rttSample t p)

theorem modes_manage {s : MyBbrSenderV5} {t : Int} {p round : Nat} {isRoundUpdate : Bool}
    {bw : QuicBandwidth} : (s.manage t p round isRoundUpdate bw).control.modes =
      if round = 0 then s.control.modes
      else (s.manageModes t p round isRoundUpdate bw).control.modes := by
  unfold MyBbrSenderV5.manage
  split <;> rfl

theorem onTrack_step {s : MyBbrSenderV5} {e : Event} (h : OnTrack s.control.modes)
    (hfresh : StaysFresh s e) : OnTrack (step s e).control.modes := by
  cases e with
  | sent t p bytes => exact h
  | ack t p =>
    show OnTrack (s.onAck t p).control.modes
    unfold MyBbrSenderV5.onAck
    split
    · exact h
    · rename_i haccept
      have hcontrol := s.control_answer t p
      unfold MyBbrSenderV5.acceptAck
      rw [modes_manage]
      split
      · rwa [hcontrol]
      · rename_i hround
        refine MyBbrSenderV5.onTrack_manageModes (by rwa [hcontrol]) ?_ p _ _ _
        rw [hcontrol, s.minRtt_answer, MinRtt.isExpired_after]
        exact hfresh (Nat.lt_of_not_le haccept) hround

theorem grows_step (s : MyBbrSenderV5) (e : Event) :
    s.control.modeLog <+: (step s e).control.modeLog := by
  cases e with
  | sent t p bytes => exact List.prefix_refl _
  | ack t p =>
    show s.control.modes.2 <+: (s.onAck t p).control.modes.2
    unfold MyBbrSenderV5.onAck
    split
    · exact List.prefix_refl _
    · have hcontrol := s.control_answer t p
      unfold MyBbrSenderV5.acceptAck
      rw [modes_manage]
      split
      · exact hcontrol ▸ List.prefix_refl _
      · refine List.IsPrefix.trans ?_ (MyBbrSenderV5.grows_manageModes _ _ _ _ _ _)
        rw [MyBbrSenderV5.modes_enterDecrease, MyBbrSenderV5.modes_congestionReason, hcontrol]
        exact MyBbrSenderV5.grows_ite _ _ _ _

/-- An acknowledgement that finds the minimum expired too early leaves the documented
machine for good. -/
theorem strays_step {s : MyBbrSenderV5} {e : Event} (h : ¬StaysFresh s e) :
    ∃ change ∈ (step s e).control.modeLog, change.new = .decrease ∧ change.old ≠ .increase := by
  cases e with
  | sent t p bytes => exact absurd trivial h
  | ack t p =>
    simp only [StaysFresh, not_forall] at h
    obtain ⟨hlt, hround, hmode, hstale⟩ := h
    have hcontrol := s.control_answer t p
    have hexpired : (s.answer t p).2.2.rtt.isExpired t = true := by
      rw [← Bool.not_eq_false, s.minRtt_answer, MinRtt.isExpired_after]
      exact hstale
    have hne : (s.answer t p).2.2.control.mode ≠ .decrease := by
      rw [hcontrol]
      rcases hmode with hmode | hmode <;> rw [hmode] <;> decide
    obtain ⟨full, hmem⟩ := MyBbrSenderV5.mem_manageModes hne hexpired p s.rounds.roundTripCount
      (s.answer t p).1 (s.answer t p).2.1
    refine ⟨⟨(s.answer t p).2.2.control.mode, .decrease, full⟩, ?_, rfl, ?_⟩
    · show _ ∈ (s.onAck t p).control.modes.2
      rw [MyBbrSenderV5.onAck, if_neg (Nat.not_le.mpr hlt), MyBbrSenderV5.acceptAck, modes_manage,
        if_neg hround]
      exact hmem
    · show (s.answer t p).2.2.control.mode ≠ .increase
      rw [hcontrol]
      rcases hmode with hmode | hmode <;> rw [hmode] <;> decide

theorem Follows.init {a b : List ModeChange} (h : Follows b) (hab : a <+: b) : Follows a where
  sequence := fun i change hi => h.sequence i change (by
    obtain ⟨rest, rfl⟩ := hab
    obtain ⟨hlt, -⟩ := List.getElem?_eq_some_iff.mp hi
    rwa [List.getElem?_append_left hlt])
  startup := fun change hmem => h.startup change (hab.subset hmem)
  decrease := fun change hmem => h.decrease change (hab.subset hmem)

theorem onTrack_new (minBps : Nat) (random : MyQuicRandom) :
    OnTrack (MyBbrSenderV5.new minBps random).control.modes where
  current := rfl
  follows :=
    { sequence := fun i change hi => by cases hi
      startup := fun change hmem => by cases hmem
      decrease := fun change hmem => by cases hmem }

theorem onTrack_run {s : MyBbrSenderV5} (hs : OnTrack s.control.modes) {es : List Event}
    (hes : Along step StaysFresh s es) : OnTrack (run step s es).control.modes :=
  run_preserves (P := fun s => OnTrack s.control.modes)
    (fun _ _ hfresh h => onTrack_step h hfresh) hs hes

/-- **A run keeps to the documented mode machine exactly if no acknowledgement in
`ST_START` or `ST_DRAIN` finds the minimum round trip time expired.** -/
theorem mode_machine_followed_iff (minBps : Nat) (random : MyQuicRandom) (es : List Event) :
    OnTrack (run step (.new minBps random) es).control.modes ↔
      Along step StaysFresh (.new minBps random) es := by
  refine ⟨fun h => ?_, onTrack_run (onTrack_new minBps random)⟩
  -- A change out of order stays in the log, so it is enough to look at the last event.
  have hfollows := h.follows
  clear h
  induction es using List.reverseRecOn with
  | nil => trivial
  | append_singleton es e ih =>
    rw [run_concat] at hfollows
    rw [along_concat]
    refine ⟨ih (hfollows.init (grows_step _ e)), ?_⟩
    by_contra hstale
    obtain ⟨change, hmem, hnew, hold⟩ := strays_step hstale
    exact hold (hfollows.decrease change hmem hnew)

/-- The second acknowledgement comes ten seconds after the first, with a round trip time
that does not date the minimum anew. -/
def lateAck : List Event :=
  [.sent 0 1 1000, .ack 1 1, .sent 2 2 1000, .ack 10000100 2]

/-- The sender goes from `ST_START` to `ST_DECREASE`, not at full bandwidth. -/
theorem mode_machine_left_from_start :
    (lateAck.map Event.time).Pairwise (· ≤ ·) ∧
      (run step (.new 1000000 ⟨fun _ => 0, 0⟩) lateAck).control.modeLog =
        [⟨.start, .decrease, false⟩, ⟨.decrease, .increase, false⟩] ∧
      ¬OnTrack (run step (.new 1000000 ⟨fun _ => 0, 0⟩) lateAck).control.modes := by
  have hlog : (run step (.new 1000000 ⟨fun _ => 0, 0⟩) lateAck).control.modeLog =
      [⟨.start, .decrease, false⟩, ⟨.decrease, .increase, false⟩] := by decide +kernel
  refine ⟨by decide, hlog, fun h => ?_⟩
  have hdecrease := h.follows.decrease ⟨.start, .decrease, false⟩ (by
    show _ ∈ (run step (.new 1000000 ⟨fun _ => 0, 0⟩) lateAck).control.modeLog
    rw [hlog]
    exact List.mem_cons_self ..) rfl
  cases hdecrease

end CongestionResponse.DelayBbr
