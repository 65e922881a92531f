import CongestionResponse.DelayBbr.RttUpdates

/-! The round counter of `MyBbrSenderV5` counts round trips.

An acknowledgement that advances the counter leaves `current_round_trip_end_` at the last
number sent. The next one that advances it is above that number, and those between are not.
Where every acknowledged number was sent, this says when: the first after the acknowledgement
that began the round, the others before it. -/
namespace CongestionResponse.DelayBbr
open Lib Quic

/-! ### Sent and acknowledged numbers -/

/-- The number that an event sends, if `OnPacketSent` accepts it. -/
def sentNumber (s : MyBbrSenderV5) : Event → List Nat
  | .sent _ p _ => if p ≤ s.ledger.lastSentPacket then [] else [p]
  | .ack _ _ => []

/-- The number that an event acknowledges, if `OnAck` accepts it. -/
def ackedNumber (s : MyBbrSenderV5) : Event → List Nat
  | .sent _ _ _ => []
  | .ack _ p => if p ≤ s.ledger.lastAckSeq then [] else [p]

/-- The numbers sent by a run, in order. -/
def sentNumbers (s : MyBbrSenderV5) (es : List Event) : List Nat := trace step sentNumber s es

/-- The numbers acknowledged by a run, in order. -/
def ackedNumbers (s : MyBbrSenderV5) (es : List Event) : List Nat := trace step ackedNumber s es

/-- An acknowledged number has been sent before. -/
def SentBefore (s₀ : MyBbrSenderV5) (past : List Event) : Event → Prop
  | .sent _ _ _ => True
  | .ack _ p => p ∈ sentNumbers s₀ past

instance (s₀ : MyBbrSenderV5) (past : List Event) : (e : Event) → Decidable (SentBefore s₀ past e)
  | .sent _ _ _ => isTrue trivial
  | .ack _ p => inferInstanceAs (Decidable (p ∈ sentNumbers s₀ past))

theorem lastSentPacket_step (s : MyBbrSenderV5) (e : Event) :
    s.ledger.lastSentPacket ≤ (step s e).ledger.lastSentPacket ∧
      ∀ p ∈ sentNumber s e,
        s.ledger.lastSentPacket < p ∧ p ≤ (step s e).ledger.lastSentPacket := by
  rw [ledger_step]
  cases e with
  | sent t p bytes =>
    simp only [Ledger.step, Ledger.onPacketSent, sentNumber]
    split
    · exact ⟨Nat.le_refl _, fun p hp => by cases hp⟩
    · refine ⟨by simp only; omega, fun q hq => ?_⟩
      obtain rfl := List.mem_singleton.mp hq
      exact ⟨by omega, Nat.le_refl _⟩
  | ack t p =>
    simp only [Ledger.step, Ledger.onAck, sentNumber]
    split <;> exact ⟨Nat.le_refl _, fun p hp => by cases hp⟩

/-- A run sends above what was sent before it, and up to the last number. -/
theorem lastSentPacket_run (s : MyBbrSenderV5) (es : List Event) :
    s.ledger.lastSentPacket ≤ (run step s es).ledger.lastSentPacket ∧
      ∀ p ∈ sentNumbers s es,
        s.ledger.lastSentPacket < p ∧ p ≤ (run step s es).ledger.lastSentPacket := by
  induction es generalizing s with
  | nil => exact ⟨Nat.le_refl _, fun p hp => by cases hp⟩
  | cons e rest ih =>
    obtain ⟨hle, hhere⟩ := lastSentPacket_step s e
    obtain ⟨hle', hlater⟩ := ih (step s e)
    refine ⟨hle.trans hle', fun p hp => ?_⟩
    rcases List.mem_append.mp hp with hp | hp
    · exact ⟨(hhere p hp).1, (hhere p hp).2.trans hle'⟩
    · exact ⟨hle.trans_lt (hlater p hp).1, (hlater p hp).2⟩

/-! ### The counter -/

/-- An event that advances `round_trip_count_`. -/
def Advances (s : MyBbrSenderV5) (e : Event) : Prop :=
  s.rounds.roundTripCount < (step s e).rounds.roundTripCount

instance (s : MyBbrSenderV5) (e : Event) : Decidable (Advances s e) :=
  inferInstanceAs (Decidable (_ < _))

theorem MyBbrSenderV5.rounds_updateRoundTripCounter (s : MyBbrSenderV5) (p : Nat) :
    (s.updateRoundTripCounter p).2.rounds =
      if s.rounds.currentRoundTripEnd < p then
        ⟨s.ledger.lastSentPacket, s.rounds.roundTripCount + 1⟩
      else s.rounds := by
  unfold updateRoundTripCounter
  split <;> rfl

theorem rounds_step_ack (s : MyBbrSenderV5) (t : Int) (p : Nat) :
    (step s (.ack t p)).rounds =
      if s.ledger.lastAckSeq < p ∧ s.rounds.currentRoundTripEnd < p then
        ⟨s.ledger.lastSentPacket, s.rounds.roundTripCount + 1⟩
      else s.rounds := by
  by_cases hp : p ≤ s.ledger.lastAckSeq
  · rw [step_ignored hp, if_neg fun h => absurd hp (Nat.not_le.mpr h.1)]
  · have hstep : step s (.ack t p) = (s.answer t p).2.2.manage t p s.rounds.roundTripCount
      (s.answer t p).1 (s.answer t p).2.1 := if_neg hp
    rw [hstep, (MyBbrSenderV5.manage_frame ..).2]
    simp only [Nat.lt_of_not_le hp, true_and]
    show ((s.receive t p).updateRoundTripCounter p).2.rounds = _
    rw [MyBbrSenderV5.rounds_updateRoundTripCounter]
    rfl

/-- An advance is the acknowledgement of a number above the end of the round, and the round it
begins ends at the last number sent. -/
theorem advances_iff {s : MyBbrSenderV5} {t : Int} {p : Nat} :
    Advances s (.ack t p) ↔ s.ledger.lastAckSeq < p ∧ s.rounds.currentRoundTripEnd < p := by
  rw [Advances, rounds_step_ack]
  split
  · exact iff_of_true (Nat.lt_succ_self _) ‹_›
  · exact iff_of_false (Nat.lt_irrefl _) ‹_›

theorem currentRoundTripEnd_of_advances {s : MyBbrSenderV5} {t : Int} {p : Nat}
    (h : Advances s (.ack t p)) :
    (step s (.ack t p)).rounds.currentRoundTripEnd = s.ledger.lastSentPacket := by
  rw [rounds_step_ack, if_pos (advances_iff.mp h)]

theorem rounds_of_not_advances {s : MyBbrSenderV5} {e : Event} (h : ¬Advances s e) :
    (step s e).rounds = s.rounds := by
  cases e with
  | sent t p bytes => rfl
  | ack t p => rw [rounds_step_ack, if_neg fun hp => h (advances_iff.mpr hp)]

/-- As long as nothing advances the counter, the round ends where it did, and what is
acknowledged belongs to it. -/
theorem rounds_run {s : MyBbrSenderV5} {es : List Event}
    (h : Along step (fun s e => ¬Advances s e) s es) :
    (run step s es).rounds = s.rounds ∧
      ∀ p ∈ ackedNumbers s es, p ≤ s.rounds.currentRoundTripEnd := by
  induction es generalizing s with
  | nil => exact ⟨rfl, fun p hp => by cases hp⟩
  | cons e rest ih =>
    have hsame := rounds_of_not_advances h.1
    obtain ⟨hrun, hacked⟩ := ih h.2
    refine ⟨hrun.trans hsame, fun p hp => ?_⟩
    rcases List.mem_append.mp hp with hp | hp
    · cases e with
      | sent t q bytes => cases hp
      | ack t q =>
        simp only [ackedNumber] at hp
        split at hp
        · cases hp
        · obtain rfl := List.mem_singleton.mp hp
          by_contra hlt
          exact h.1 (advances_iff.mpr ⟨by omega, by omega⟩)
    · rw [← hsame]
      exact hacked p hp

/-! ### Two consecutive advances -/

theorem sentNumbers_ack (s : MyBbrSenderV5) (a b : List Event) (t : Int) (p : Nat) :
    sentNumbers s (a ++ .ack t p :: b) =
      sentNumbers s a ++ sentNumbers (step (run step s a) (.ack t p)) b := by
  rw [sentNumbers, trace_append]
  rfl

/-- **Between two advances lies a round trip.** Where every acknowledged number was sent before,
the second of two consecutive advances acknowledges a packet sent after the first one, and what
is acknowledged between them was sent before the first one. -/
theorem round_counter_counts_round_trips (minBps : Nat) (random : MyQuicRandom)
    (before between : List Event) (ta tb : Int) (a b : Nat) :
    let s₀ := MyBbrSenderV5.new minBps random
    let first := run step s₀ before
    let next := step first (.ack ta a)
    Throughout (SentBefore s₀) (before ++ .ack ta a :: between ++ [.ack tb b]) →
    Advances first (.ack ta a) → Along step (fun s e => ¬Advances s e) next between →
    Advances (run step next between) (.ack tb b) →
      b ∉ sentNumbers s₀ before ∧ b ∈ sentNumbers next between ∧
        ∀ c ∈ ackedNumbers next between, c ∈ sentNumbers s₀ before := by
  intro s₀ first next hsent ha hbetween hb
  obtain ⟨hrounds, hacked⟩ := rounds_run hbetween
  have hend : next.rounds.currentRoundTripEnd = first.ledger.lastSentPacket :=
    currentRoundTripEnd_of_advances ha
  have hlast : first.ledger.lastSentPacket < b := by
    have hb := (advances_iff.mp hb).2
    rwa [hrounds, hend] at hb
  have hbefore : b ∉ sentNumbers s₀ before := fun hmem =>
    absurd ((lastSentPacket_run s₀ before).2 b hmem).2 (Nat.not_le.mpr hlast)
  refine ⟨hbefore, ?_, fun c hc => ?_⟩
  · have hmem := throughout_at hsent
    rw [SentBefore, sentNumbers_ack] at hmem
    exact (List.mem_append.mp hmem).resolve_left hbefore
  · have hle := hacked c hc
    obtain ⟨l, e, r, hsplit, hmem⟩ := mem_trace hc
    cases e with
    | sent t p bytes => cases hmem
    | ack t p =>
      simp only [ackedNumber] at hmem
      split at hmem
      · cases hmem
      · obtain rfl := List.mem_singleton.mp hmem
        rw [hsplit, show before ++ .ack ta a :: (l ++ .ack t c :: r) ++ [.ack tb b] =
          (before ++ .ack ta a :: l) ++ .ack t c :: (r ++ [.ack tb b]) by simp] at hsent
        have hmem := throughout_at hsent
        rw [SentBefore, sentNumbers_ack] at hmem
        refine (List.mem_append.mp hmem).resolve_right fun hlate => ?_
        -- What was sent after the first advance is above the end of the round.
        have hlt := ((lastSentPacket_run next l).2 c hlate).1
        have hmono := (lastSentPacket_step first (.ack ta a)).1
        exact absurd (hend ▸ hle) (Nat.not_le.mpr (hmono.trans_lt hlt))

/-- Two rounds: a packet sent before the first advance is acknowledged in its round, the next
advance acknowledges a packet sent after it. -/
theorem round_counter_counts_round_trips_two_rounds :
    let s₀ := MyBbrSenderV5.new 0 ⟨fun _ => 0, 0⟩
    let before : List Event := [.sent 0 1 1000, .sent 1 2 1000]
    let between : List Event := [.sent 6 3 1000, .ack 7 2]
    let next := step (run step s₀ before) (.ack 5 1)
    Throughout (SentBefore s₀) (before ++ .ack 5 1 :: between ++ [.ack 9 3]) ∧
      ackedNumbers next between = [2] ∧ 3 ∈ sentNumbers next between ∧
        2 ∈ sentNumbers s₀ before := by
  intro s₀ before between next
  have hsent : Throughout (SentBefore s₀) (before ++ .ack 5 1 :: between ++ [.ack 9 3]) := by
    decide +kernel
  have hacked : ackedNumbers next between = [2] := by decide +kernel
  have h := round_counter_counts_round_trips 0 ⟨fun _ => 0, 0⟩ before between 5 9 1 3 hsent
    (by decide +kernel) (by decide +kernel) (by decide +kernel)
  exact ⟨hsent, hacked, h.2.1, h.2.2 2 (hacked ▸ List.mem_singleton_self 2)⟩

/-- An acknowledged number may be below `last_sent_packet_` and not have been sent: here the
second advance is for such a number. -/
theorem round_counter_advanced_by_unsent :
    let s₀ := MyBbrSenderV5.new 0 ⟨fun _ => 0, 0⟩
    let before : List Event := [.sent 0 1 1000]
    let between : List Event := [.sent 2 3 1000]
    let next := step (run step s₀ before) (.ack 1 1)
    Along step AckOfSent s₀ (before ++ .ack 1 1 :: between ++ [.ack 3 2]) ∧
      Advances (run step s₀ before) (.ack 1 1) ∧
      Along step (fun s e => ¬Advances s e) next between ∧
      Advances (run step next between) (.ack 3 2) ∧
      2 ∉ sentNumbers s₀ (before ++ .ack 1 1 :: between ++ [.ack 3 2]) := by
  intro s₀ before between next
  refine ⟨⟨trivial, show 1 ≤ 1 by decide, trivial, show 2 ≤ 3 by decide, trivial⟩, ?_⟩
  exact ⟨by decide +kernel, by decide +kernel, by decide +kernel, by decide +kernel⟩

end CongestionResponse.DelayBbr
