import CongestionResponse.NsQuic.Acknowledged

/-! How long a packet waits for its ack.

The alarm is set by the first packet that is not acknowledged at once, and an ack that is sent
because of the tenth packet leaves it set. So the alarm that a later packet relies on may be
that of a packet long acknowledged. It goes off earlier then, never later: an alarm is at most
25 ms ahead of the time at which it was set, and the clock does not go back. -/
namespace CongestionResponse.NsQuic
open Lib Quic Framer
namespace NsQuicReceiver

/-! ### The packets that wait -/

def Event.ms : Event → Nat
  | .incoming ms _ => ms
  | .heartBeat ms => ms

/-- When a data packet arrives. -/
def Event.arrival (e : Event) : Option Nat := e.dataNumber.map fun _ => e.ms

/-- The receiver, and the arrival times of the data packets since its last `SendAck`. -/
def watch (s : NsQuicReceiver × List Nat) (e : Event) : NsQuicReceiver × List Nat :=
  (s.1.step e, if s.1.acks e = [] then s.2 ++ e.arrival.toList else [])

theorem watch_acked {s : NsQuicReceiver × List Nat} {e : Event} (h : s.1.acks e ≠ []) :
    watch s e = (s.1.step e, []) := by
  rw [watch, if_neg h]

theorem watch_quiet {s : NsQuicReceiver × List Nat} {e : Event} (h : s.1.acks e = []) :
    watch s e = (s.1.step e, s.2 ++ e.arrival.toList) := by
  rw [watch, if_pos h]

/-- The arrival times of the data packets that wait for an ack, the oldest first. -/
def waiting (es : List Event) : List Nat := (run watch (new, []) es).2

theorem run_watch (es : List Event) : run watch (new, []) es = (run step new es, waiting es) :=
  Prod.ext (run_fst (fun _ _ => rfl) _ es) rfl

/-- The longest time for which an ack is put off. -/
def ackDelayBound : Int := Delta.fromMilliseconds mMaxDelayedAckTimeMs

/-- The alarm goes off at most 25 ms after a given time. -/
def AlarmBy (alarm : MyQuicAlarm) (ms : Nat) : Prop :=
  alarm.deadline ≤ clockNow ms + ackDelayBound

theorem clockNow_mono {ms ms' : Nat} (h : ms ≤ ms') : clockNow ms ≤ clockNow ms' := by
  unfold clockNow Delta.fromMilliseconds
  omega

theorem AlarmBy.mono {alarm : MyQuicAlarm} {ms ms' : Nat} (h : AlarmBy alarm ms)
    (hle : ms ≤ ms') : AlarmBy alarm ms' :=
  h.trans (Int.add_le_add_right (clockNow_mono hle) _)

theorem isSet_ackAlarm (ms : Nat) : (⟨clockNow ms + ackDelayBound⟩ : MyQuicAlarm).IsSet := by
  have hpos : 0 < clockNow 0 + ackDelayBound := by decide
  exact hpos.trans_le (Int.add_le_add_right (clockNow_mono (Nat.zero_le ms)) _)

/-- What holds between the events. -/
structure Watched (es : List Event) (r : NsQuicReceiver) (pending : List Nat) : Prop where
  running : r.running = true
  counted : r.numPacketsReceivedSinceLastAckSent = pending.length
  few : r.numPacketsReceivedSinceLastAckSent < mMaxRetransmittablePacketsBeforeAck
  early : r.received < mMinReceivedBeforeAckDecimation → r.numPacketsReceivedSinceLastAckSent = 0
  /-- Also an alarm that no packet waits for was set at some earlier event. -/
  leftover : r.ackAlarm.IsSet → ∃ e ∈ es, AlarmBy r.ackAlarm e.ms
  covered : ∀ oldest, pending.head? = some oldest → r.ackAlarm.IsSet ∧ AlarmBy r.ackAlarm oldest

section Step
variable {es : List Event} {e : Event} {r r' : NsQuicReceiver} {pending : List Nat}

/-- Nothing arrives and no ack is sent. -/
theorem Watched.quiet (h : Watched es r pending) (hrunning : r'.running = r.running)
    (hcount : r'.numPacketsReceivedSinceLastAckSent = r.numPacketsReceivedSinceLastAckSent)
    (hreceived : r'.received = r.received) (halarm : r'.ackAlarm = r.ackAlarm) :
    Watched (es ++ [e]) r' pending := by
  refine ⟨hrunning.trans h.running, hcount.trans h.counted, by rw [hcount]; exact h.few, ?_, ?_, ?_⟩
  · rw [hreceived, hcount]
    exact h.early
  · rw [halarm]
    intro hset
    obtain ⟨e', he', hby⟩ := h.leftover hset
    exact ⟨e', List.mem_append_left _ he', hby⟩
  · rw [halarm]
    exact h.covered

/-- An ack was sent, and the alarm is as it was or has gone off. -/
theorem Watched.acked (h : Watched es r pending) (hrunning : r'.running = r.running)
    (hcount : r'.numPacketsReceivedSinceLastAckSent = 0)
    (halarm : r'.ackAlarm.IsSet → r'.ackAlarm = r.ackAlarm) : Watched (es ++ [e]) r' [] := by
  refine ⟨hrunning.trans h.running, hcount, by rw [hcount]; decide, fun _ => hcount, ?_, ?_⟩
  · intro hset
    have hsame := halarm hset
    rw [hsame] at hset
    obtain ⟨e', he', hby⟩ := h.leftover hset
    exact ⟨e', List.mem_append_left _ he', by rw [hsame]; exact hby⟩
  · intro oldest holdest
    cases holdest

/-- A packet arrives and is not acknowledged, under whatever alarm is due for it. -/
theorem Watched.counts (h : Watched es r pending) {ms seq : Nat}
    (hr : Recorded r (clockNow ms) seq r') (hdue : ¬r'.AckDue) {alarm : MyQuicAlarm}
    (hleftover : alarm.IsSet → ∃ e' ∈ es ++ [e], AlarmBy alarm e'.ms)
    (hcovered : ∀ oldest, (pending ++ [ms]).head? = some oldest →
      alarm.IsSet ∧ AlarmBy alarm oldest) :
    Watched (es ++ [e]) {r' with ackAlarm := alarm} (pending ++ [ms]) where
  running := hr.running.trans h.running
  counted := by
    show r'.numPacketsReceivedSinceLastAckSent = _
    rw [hr.pending, h.counted, List.length_append, List.length_singleton]
  few := Nat.not_le.mp (not_or.mp hdue).2
  early := fun hearly => absurd hearly (not_or.mp hdue).1
  leftover := hleftover
  covered := hcovered

theorem Watched.arrive (h : Watched es r pending) {ms : Nat} (hms : e.ms = ms)
    (hclock : ∀ e' ∈ es, e'.ms ≤ ms) {seq : Nat} (hr : Recorded r (clockNow ms) seq r')
    (hdue : ¬r'.AckDue) :
    Watched (es ++ [e]) (r'.maybeSendAck (clockNow ms)).1 (pending ++ [ms]) := by
  unfold maybeSendAck
  rw [if_neg hdue, hr.ackAlarm]
  by_cases hset : r.ackAlarm.IsSet
  · -- The alarm was set by a packet that waits, or at some event before.
    rw [if_neg (not_not.mpr hset)]
    obtain ⟨e', he', hby⟩ := h.leftover hset
    have hsame : {r' with ackAlarm := r.ackAlarm} = r' := by rw [← hr.ackAlarm]
    refine hsame ▸ h.counts hr hdue (fun _ => ⟨e', List.mem_append_left _ he', hby⟩)
      fun oldest holdest => ?_
    rw [List.head?_append] at holdest
    cases hfirst : pending.head? with
    | none =>
      rw [hfirst] at holdest
      exact ⟨hset, Option.some.inj holdest ▸ hby.mono (hclock e' he')⟩
    | some first =>
      rw [hfirst] at holdest
      exact h.covered oldest (hfirst.trans holdest)
  · -- Nothing waits, or the alarm would be set.
    rw [if_pos hset]
    have hby : AlarmBy ⟨clockNow ms + ackDelayBound⟩ ms := Int.le_refl _
    refine h.counts hr hdue (fun _ => ?_) fun oldest holdest => ?_
    · exact ⟨e, List.mem_append_right _ (List.mem_singleton.mpr rfl), by rw [hms]; exact hby⟩
    · rw [List.head?_append] at holdest
      cases hfirst : pending.head? with
      | none =>
        rw [hfirst] at holdest
        exact Option.some.inj holdest ▸ ⟨isSet_ackAlarm ms, hby⟩
      | some first => exact absurd (h.covered first hfirst).1 hset

/-- An event that neither is a data packet nor makes the receiver send an ack. -/
theorem Watched.step_quiet (h : Watched es r pending) (harrival : e.arrival = none)
    (hreact : r.react e = (r', [])) (hrunning : r'.running = r.running)
    (hcount : r'.numPacketsReceivedSinceLastAckSent = r.numPacketsReceivedSinceLastAckSent)
    (hreceived : r'.received = r.received) (halarm : r'.ackAlarm = r.ackAlarm) :
    Watched (es ++ [e]) (watch (r, pending) e).1 (watch (r, pending) e).2 := by
  have hacks : r.acks e = [] := by rw [acks, hreact]; rfl
  have hstep : r.step e = r' := by rw [NsQuicReceiver.step, hreact]
  rw [watch_quiet hacks, harrival, Option.toList_none, List.append_nil, hstep]
  exact h.quiet hrunning hcount hreceived halarm

theorem Watched.step (h : Watched es r pending) (hclock : ∀ e' ∈ es, e'.ms ≤ e.ms) :
    Watched (es ++ [e]) (watch (r, pending) e).1 (watch (r, pending) e).2 := by
  cases e with
  | incoming ms data =>
    cases hdata : readDatagram data with
    | stream seq sentTs =>
      have harrival : (Event.incoming ms data).arrival = some ms := by
        rw [Event.arrival, Event.dataNumber, Event.datagram, hdata]
        rfl
      obtain ⟨r', hr, hstep, hacks⟩ := react_stream ms h.running hdata
      by_cases hdue : r'.AckDue
      · have hsend : r'.maybeSendAck (clockNow ms) = r'.sendAck (clockNow ms) := if_pos hdue
        rw [hsend] at hstep hacks
        rw [watch_acked (by rw [hacks]; exact List.cons_ne_nil _ _), hstep]
        exact h.acked hr.running rfl fun _ => hr.ackAlarm
      · have hnone : datagrams (r'.maybeSendAck (clockNow ms)).2 = [] := by
          unfold maybeSendAck
          split_ifs <;> rfl
        rw [watch_quiet (hacks.trans hnone), hstep, harrival]
        exact h.arrive rfl hclock hr hdue
    | stopWaiting seq leastUnack =>
      exact h.step_quiet (by rw [Event.arrival, Event.dataNumber, Event.datagram, hdata]; rfl)
        (react_stopWaiting h.running hdata) rfl rfl rfl rfl
    | other =>
      exact h.step_quiet (by rw [Event.arrival, Event.dataNumber, Event.datagram, hdata]; rfl)
        (react_other hdata) rfl rfl rfl rfl
  | heartBeat ms =>
    have hreact : r.react (.heartBeat ms) = _ := react_heartBeat h.running
    by_cases hfires : r.Fires ms
    · rw [if_pos hfires] at hreact
      rw [watch_acked (by rw [acks, hreact]; exact List.cons_ne_nil _ _), NsQuicReceiver.step,
        hreact]
      exact h.acked rfl rfl fun hset => absurd hset (Int.lt_irrefl 0)
    · rw [if_neg hfires] at hreact
      exact h.step_quiet rfl hreact rfl rfl rfl rfl

end Step

/-! ### Whole runs -/

/-- The clock does not go back. -/
def ClockForward (es : List Event) : Prop := es.Pairwise fun e e' => e.ms ≤ e'.ms

instance (es : List Event) : Decidable (ClockForward es) :=
  inferInstanceAs (Decidable (es.Pairwise _))

theorem clockForward_concat {es : List Event} {e : Event} (h : ClockForward (es ++ [e])) :
    ClockForward es ∧ ∀ e' ∈ es, e'.ms ≤ e.ms := by
  obtain ⟨hes, -, hle⟩ := List.pairwise_append.mp h
  exact ⟨hes, fun e' he' => hle e' he' e (List.mem_singleton.mpr rfl)⟩

theorem watched_run {es : List Event} (hes : ClockForward es) :
    Watched es (run step new es) (waiting es) := by
  have hwatched : Watched es (run watch (new, []) es).1 (run watch (new, []) es).2 := by
    refine run_history (P := fun es (s : NsQuicReceiver × List Nat) => Watched es s.1 s.2)
      (fun es e h => (clockForward_concat h).1) ?_
      (fun es e h hs => hs.step (clockForward_concat h).2) es hes
    exact ⟨rfl, rfl, by decide, fun _ => rfl, fun hset => absurd hset (Int.lt_irrefl 0),
      fun oldest h => (by cases h)⟩
  rwa [run_watch] at hwatched

/-- Packets wait, for a bounded time. -/
structure Prompt (r : NsQuicReceiver) (pending : List Nat) : Prop where
  few : r.numPacketsReceivedSinceLastAckSent < mMaxRetransmittablePacketsBeforeAck
  early : r.received < mMinReceivedBeforeAckDecimation → r.numPacketsReceivedSinceLastAckSent = 0
  alarm : 0 < r.numPacketsReceivedSinceLastAckSent → ∃ oldest, pending.head? = some oldest ∧
    r.ackAlarm.IsSet ∧ r.ackAlarm.deadline ≤ clockNow oldest + Delta.fromMilliseconds 25
  heartBeat : ∀ ms, r.ackAlarm.deadline ≤ clockNow ms →
    (r.step (.heartBeat ms)).numPacketsReceivedSinceLastAckSent = 0

/-- **Whatever arrives and whenever the heart beats, fewer than ten packets wait for an ack, and
the alarm that is due for them goes off at most 25 ms after the oldest arrived.** -/
theorem ack_delay_bounded (es : List Event) (hes : ClockForward es) :
    Prompt (run step new es) (waiting es) := by
  have h := watched_run hes
  have halarm : 0 < (run step new es).numPacketsReceivedSinceLastAckSent →
      ∃ oldest, (waiting es).head? = some oldest ∧ (run step new es).ackAlarm.IsSet ∧
        AlarmBy (run step new es).ackAlarm oldest := by
    intro hpos
    rw [h.counted] at hpos
    obtain ⟨first, rest, hwaiting⟩ := List.exists_cons_of_length_pos hpos
    have hhead : (waiting es).head? = some first := by rw [hwaiting]; rfl
    exact ⟨first, hhead, h.covered first hhead⟩
  refine ⟨h.few, h.early, halarm, fun ms hdeadline => ?_⟩
  rw [step, react_heartBeat h.running]
  by_cases hfires : (run step new es).Fires ms
  · rw [if_pos hfires]
    rfl
  · rw [if_neg hfires]
    by_contra hne
    obtain ⟨_, _, hset, _⟩ := halarm (Nat.pos_of_ne_zero hne)
    exact hfires ⟨hset, hdeadline⟩

/-- The hundredth packet waits until the alarm at 125 ms. -/
theorem ack_delay_bounded_hundred_packets :
    let es := (List.range' 1 100).map fun n => Event.incoming n (sendFakePacket n (clockNow n))
    ClockForward es ∧ waiting es = [100] ∧ Prompt (run step new es) (waiting es) :=
  ⟨by decide +kernel, by decide +kernel, ack_delay_bounded _ (by decide +kernel)⟩

end NsQuicReceiver
end CongestionResponse.NsQuic
