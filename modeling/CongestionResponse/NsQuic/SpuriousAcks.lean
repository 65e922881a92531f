import CongestionResponse.NsQuic.AckDelay

/-! Acks that acknowledge nothing new.

The alarm stays set when the tenth packet is acknowledged. It belongs to the packet that set it,
and from that packet on every tenth one sends an ack. So when it goes off, the packets that wait
are those after the last tenth one, and if the last packet was a tenth one there are none. -/
namespace CongestionResponse.NsQuic
open Lib Quic Framer
namespace NsQuicReceiver

/-! ### The calls of `SendAck` -/

/-- The receivers on which an event calls `SendAck`. -/
def sendAckCalls (r : NsQuicReceiver) : Event → List NsQuicReceiver
  | .incoming ms data =>
    if r.running then
      match readDatagram data with
      | .stream seq sentTs =>
        let recorded := (r.recordStreamFrame (clockNow ms) data.length seq sentTs).1
        if recorded.recvPacketManager.ackFrameUpdated ∧ recorded.AckDue then [recorded] else []
      | _ => []
    else []
  | .heartBeat ms =>
    let expired := r.ackAlarm.isExpired (clockNow ms)
    if r.running ∧ expired.1 then [{r with ackAlarm := expired.2}] else []

section Calls
variable {r : NsQuicReceiver} {e : Event} {ms : Nat} {data : List UInt8}

theorem sendAckCalls_stream (hrunning : r.running = true) {seq sentTs : Nat}
    (hdata : readDatagram data = .stream seq sentTs) :
    r.sendAckCalls (.incoming ms data) =
      let recorded := (r.recordStreamFrame (clockNow ms) data.length seq sentTs).1
      if recorded.AckDue then [recorded] else [] := by
  have hupdated : (r.recordStreamFrame (clockNow ms) data.length seq
      sentTs).1.recvPacketManager.ackFrameUpdated = true := by
    rw [(recorded_recordStreamFrame ..).manager]
    rfl
  rw [sendAckCalls, if_pos hrunning, hdata]
  simp only [hupdated, true_and]

theorem sendAckCalls_heartBeat (hrunning : r.running = true) :
    r.sendAckCalls (.heartBeat ms) = if r.Fires ms then [{r with ackAlarm := ⟨0⟩}] else [] := by
  rw [sendAckCalls, MyQuicAlarm.isExpired]
  by_cases hfires : r.Fires ms
  · rw [if_pos hfires, if_pos (show _ ∧ _ from hfires), if_pos ⟨hrunning, rfl⟩]
  · rw [if_neg hfires, if_neg (show ¬(_ ∧ _) from hfires)]
    simp

/-- The acks of a reaction are those of its calls. -/
theorem acks_eq_sendAckCalls (hrunning : r.running = true) (e : Event) :
    r.acks e = (r.sendAckCalls e).flatMap fun caller =>
      datagrams (caller.sendAck (clockNow e.ms)).2 := by
  cases e with
  | incoming ms data =>
    cases hdata : readDatagram data with
    | stream seq sentTs =>
      rw [sendAckCalls_stream hrunning hdata, acks, react_stream_eq ms hrunning hdata]
      simp only [datagrams_append, datagrams_recordStreamFrame, List.nil_append, maybeSendAck]
      split_ifs
      · simp [Event.ms]
      · rfl
      · rfl
    | stopWaiting seq leastUnack =>
      rw [acks, react_stopWaiting hrunning hdata, sendAckCalls, if_pos hrunning, hdata]
      rfl
    | other =>
      rw [acks, react_other hdata, sendAckCalls, if_pos hrunning, hdata]
      rfl
  | heartBeat ms =>
    rw [acks, react_heartBeat hrunning, sendAckCalls_heartBeat hrunning]
    split_ifs
    · simp [Event.ms]
    · rfl

end Calls

/-! ### The alarm and the packets since it was set -/

/-- When the packet that has set the alarm arrived, and how many data packets have arrived from
it on. -/
structure AlarmRound where
  start : Nat
  packets : Nat
deriving DecidableEq

/-- The heart beats when the alarm is due. -/
def AlarmRound.EndsAt (q : AlarmRound) : Event → Prop
  | .incoming _ _ => False
  | .heartBeat ms => q.start + 25 ≤ ms

instance (q : AlarmRound) : (e : Event) → Decidable (q.EndsAt e)
  | .incoming _ _ => inferInstanceAs (Decidable False)
  | .heartBeat ms => inferInstanceAs (Decidable (q.start + 25 ≤ ms))

/-- The number of data packets so far, and the round of the alarm while it is set: the
hundredth packet sets it, or the first one after it has gone off. -/
def nextRound (s : Nat × Option AlarmRound) (e : Event) : Nat × Option AlarmRound :=
  if e.dataNumber.isSome then
    (s.1 + 1, if s.1 + 1 < 100 then none
      else some (s.2.elim ⟨e.ms, 1⟩ fun q => {q with packets := q.packets + 1}))
  else (s.1, s.2.filter fun q => ¬q.EndsAt e)

def roundOf (es : List Event) : Option AlarmRound := (run nextRound (0, none) es).2

/-- The receiver's counters and its alarm, told from the round. -/
structure InStep (r : NsQuicReceiver) (s : Nat × Option AlarmRound) : Prop where
  running : r.running = true
  received : r.received = s.1
  early : s.1 < 100 → s.2 = none
  unset : s.2 = none → ¬r.ackAlarm.IsSet ∧ r.numPacketsReceivedSinceLastAckSent = 0
  set : ∀ q ∈ s.2, r.ackAlarm = ⟨clockNow q.start + ackDelayBound⟩ ∧
    r.numPacketsReceivedSinceLastAckSent = q.packets % 10

section Step
variable {r r' : NsQuicReceiver} {s : Nat × Option AlarmRound} {e : Event}

theorem InStep.fires_iff (h : InStep r s) (ms : Nat) :
    r.Fires ms ↔ ∃ q ∈ s.2, q.EndsAt (.heartBeat ms) := by
  cases hround : s.2 with
  | none => simp [Fires, (h.unset hround).1]
  | some q =>
    obtain ⟨halarm, -⟩ := h.set q hround
    have hdue : clockNow q.start + ackDelayBound ≤ clockNow ms ↔ q.start + 25 ≤ ms := by
      simp only [clockNow, ackDelayBound, Delta.fromMilliseconds, mMaxDelayedAckTimeMs]
      omega
    simp [Fires, halarm, isSet_ackAlarm, hdue, AlarmRound.EndsAt]

theorem inStep_some {q : AlarmRound} {received : Nat} (hrunning : r.running = true)
    (hreceived : r.received = received) (hmany : 100 ≤ received)
    (halarm : r.ackAlarm = ⟨clockNow q.start + ackDelayBound⟩)
    (hcount : r.numPacketsReceivedSinceLastAckSent = q.packets % 10) :
    InStep r (received, some q) := by
  refine ⟨hrunning, hreceived, fun hfew => absurd hmany (Nat.not_le.mpr hfew), ?_, ?_⟩
  · intro hnone
    cases hnone
  · intro q' hq'
    cases hq'
    exact ⟨halarm, hcount⟩

theorem inStep_none {received : Nat} (hrunning : r.running = true)
    (hreceived : r.received = received) (halarm : ¬r.ackAlarm.IsSet)
    (hcount : r.numPacketsReceivedSinceLastAckSent = 0) : InStep r (received, none) :=
  ⟨hrunning, hreceived, fun _ => rfl, fun _ => ⟨halarm, hcount⟩, fun q hq => by cases hq⟩

/-- A data packet: one of the first hundred, the one that sets the alarm, or a later one, which
is a tenth one or not. -/
theorem InStep.arrive (h : InStep r s) {ms seq : Nat} (hr : Recorded r (clockNow ms) seq r') :
    InStep (r'.maybeSendAck (clockNow ms)).1 (s.1 + 1, if s.1 + 1 < 100 then none
      else some (s.2.elim ⟨ms, 1⟩ fun q => {q with packets := q.packets + 1})) := by
  have hrunning : r'.running = true := hr.running.trans h.running
  have hreceived : r'.received = s.1 + 1 := by rw [hr.received, h.received]
  have hcount := hr.pending
  unfold maybeSendAck
  by_cases hfew : s.1 + 1 < 100
  · have hdue : r'.AckDue := .inl (by rw [hreceived]; exact hfew)
    obtain ⟨hunset, -⟩ := h.unset (h.early (by omega))
    rw [if_pos hdue, if_pos hfew]
    exact inStep_none hrunning hreceived (by rw [← hr.ackAlarm] at hunset; exact hunset) rfl
  · have hdue : r'.AckDue ↔ 10 ≤ r.numPacketsReceivedSinceLastAckSent + 1 := by
      rw [AckDue, hreceived, hcount]
      exact or_iff_right hfew
    have hmany : 100 ≤ s.1 + 1 := Nat.not_lt.mp hfew
    rw [if_neg hfew]
    cases hround : s.2 with
    | none =>
      obtain ⟨hunset, hzero⟩ := h.unset hround
      rw [if_neg (by rw [hdue, hzero]; decide), if_pos (by rw [hr.ackAlarm]; exact hunset)]
      exact inStep_some hrunning hreceived hmany rfl (by rw [hcount, hzero]; rfl)
    | some q =>
      obtain ⟨halarm, hpackets⟩ := h.set q hround
      have hset : r'.ackAlarm.IsSet := by
        rw [hr.ackAlarm, halarm]
        exact isSet_ackAlarm q.start
      rw [hpackets] at hdue hcount
      split_ifs with htenth
      · refine inStep_some hrunning hreceived hmany (hr.ackAlarm.trans halarm) ?_
        have hten := hdue.mp htenth
        show 0 = (q.packets + 1) % 10
        omega
      · refine inStep_some hrunning hreceived hmany (hr.ackAlarm.trans halarm) ?_
        have hten := mt hdue.mpr htenth
        show r'.numPacketsReceivedSinceLastAckSent = (q.packets + 1) % 10
        omega

/-- An event that is no data packet and leaves the counters and the alarm alone. -/
theorem InStep.quiet (h : InStep r s) (hrunning : r'.running = r.running)
    (hreceived : r'.received = r.received) (halarm : r'.ackAlarm = r.ackAlarm)
    (hcount : r'.numPacketsReceivedSinceLastAckSent = r.numPacketsReceivedSinceLastAckSent) :
    InStep r' s where
  running := hrunning.trans h.running
  received := hreceived.trans h.received
  early := h.early
  unset := by rw [halarm, hcount]; exact h.unset
  set := by rw [halarm, hcount]; exact h.set

theorem filter_eq_self {e : Event} (h : ∀ q ∈ s.2, ¬q.EndsAt e) :
    (s.2.filter fun q => ¬q.EndsAt e) = s.2 := by
  cases hround : s.2 with
  | none => rfl
  | some q => simp [h q hround]

theorem InStep.step (h : InStep r s) (e : Event) : InStep (r.step e) (nextRound s e) := by
  cases e with
  | incoming ms data =>
    have hsame : (s.2.filter fun q => ¬q.EndsAt (.incoming ms data)) = s.2 :=
      filter_eq_self fun _ _ => id
    cases hdata : readDatagram data with
    | stream seq sentTs =>
      obtain ⟨r', hr, hstep, -⟩ := react_stream ms h.running hdata
      rw [hstep, nextRound, Event.dataNumber, Event.datagram, hdata]
      exact h.arrive hr
    | stopWaiting seq leastUnack =>
      rw [NsQuicReceiver.step, react_stopWaiting h.running hdata, nextRound, Event.dataNumber,
        Event.datagram, hdata, hsame]
      exact h.quiet rfl rfl rfl rfl
    | other =>
      rw [NsQuicReceiver.step, react_other hdata, nextRound, Event.dataNumber, Event.datagram,
        hdata, hsame]
      exact h
  | heartBeat ms =>
    rw [NsQuicReceiver.step, react_heartBeat h.running]
    show InStep _ (s.1, s.2.filter _)
    by_cases hfires : r.Fires ms
    · obtain ⟨q, hq, hends⟩ := (h.fires_iff ms).mp hfires
      have hnone : (s.2.filter fun q => ¬q.EndsAt (.heartBeat ms)) = none := by
        rw [Option.mem_def.mp hq]
        simp [hends]
      rw [if_pos hfires, hnone]
      exact inStep_none h.running h.received (Int.lt_irrefl 0) rfl
    · have hstays : ∀ q ∈ s.2, ¬q.EndsAt (.heartBeat ms) := fun q hq hends =>
        hfires ((h.fires_iff ms).mpr ⟨q, hq, hends⟩)
      rw [if_neg hfires, filter_eq_self hstays]
      exact h

end Step

theorem inStep_run (es : List Event) : InStep (run step new es) (run nextRound (0, none) es) := by
  refine run_simulates (R := InStep) (fun r s e _ h => h.step e) ?_
    (show Along step (fun _ _ => True) new es from along_of_forall fun _ _ => trivial)
  exact inStep_none rfl rfl (Int.lt_irrefl 0) rfl

/-! ### When an ack covers nothing -/

/-- Every call of `SendAck` finds a data packet that has arrived since the last one. -/
def CoversNew (past : List Event) (e : Event) : Prop :=
  ∀ caller ∈ (run step new past).sendAckCalls e, 0 < caller.numPacketsReceivedSinceLastAckSent

/-- When the alarm goes off, the last data packet is not a tenth one. -/
def LeavesSome (past : List Event) (e : Event) : Prop :=
  ∀ q ∈ roundOf past, q.EndsAt e → ¬10 ∣ q.packets

instance (past : List Event) (e : Event) : Decidable (CoversNew past e) :=
  inferInstanceAs (Decidable (∀ caller ∈ _, _))

theorem coversNew_iff (past : List Event) (e : Event) : CoversNew past e ↔ LeavesSome past e := by
  have h := inStep_run past
  unfold CoversNew LeavesSome
  cases e with
  | incoming ms data =>
    -- The packet itself is new.
    refine iff_of_true (fun caller hcaller => ?_) fun q _ hends => hends.elim
    rw [sendAckCalls, if_pos h.running] at hcaller
    cases hdata : readDatagram data with
    | stream seq sentTs =>
      simp only [hdata] at hcaller
      split_ifs at hcaller
      · rw [List.mem_singleton.mp hcaller, (recorded_recordStreamFrame ..).pending]
        exact Nat.succ_pos _
      · cases hcaller
    | stopWaiting seq leastUnack =>
      simp only [hdata] at hcaller
      cases hcaller
    | other =>
      simp only [hdata] at hcaller
      cases hcaller
  | heartBeat ms =>
    rw [sendAckCalls_heartBeat h.running]
    by_cases hfires : (run step new past).Fires ms
    · obtain ⟨q, hq, hends⟩ := (h.fires_iff ms).mp hfires
      have hround : roundOf past = some q := hq
      have hcount := (h.set q hq).2
      simp only [if_pos hfires, List.mem_singleton, forall_eq, hround, Option.mem_def,
        Option.some_inj, forall_eq', hends, true_implies, hcount, Nat.dvd_iff_mod_eq_zero,
        Nat.pos_iff_ne_zero, ne_eq]
    · rw [if_neg hfires]
      refine iff_of_true (fun caller hcaller => absurd hcaller List.not_mem_nil) ?_
      exact fun q hq hends => absurd ((h.fires_iff ms).mpr ⟨q, hq, hends⟩) hfires

/-- **Every ack covers a new packet exactly if, whenever the alarm goes off, the number of data
packets since the one that set it, itself included, is not a multiple of ten.** -/
theorem no_spurious_acks_iff (es : List Event) :
    Throughout CoversNew es ↔ Throughout LeavesSome es := by
  have heq : CoversNew = LeavesSome := by
    funext past e
    exact propext (coversNew_iff past e)
  rw [heq]

/-- The hundredth packet sets the alarm, the hundred-and-ninth one is acknowledged with it, and
at the heart beat 25 ms after the hundredth an ack is sent for nothing. -/
theorem alarm_left_by_tenth_packet :
    let es := (List.range' 1 109).map fun n => Event.incoming n (sendFakePacket n (clockNow n))
    ClockForward (es ++ [.heartBeat 125]) ∧ roundOf es = some ⟨100, 10⟩ ∧
      ((run step new es).sendAckCalls (.heartBeat 125)).map
        (·.numPacketsReceivedSinceLastAckSent) = [0] ∧
      ((run step new es).acks (.heartBeat 125)).length = 1 ∧
      ¬Throughout CoversNew (es ++ [.heartBeat 125]) := by
  intro es
  have hcalls : ((run step new es).sendAckCalls (.heartBeat 125)).map
      (·.numPacketsReceivedSinceLastAckSent) = [0] := by decide +kernel
  refine ⟨by decide +kernel, by decide +kernel, hcalls, by decide +kernel, fun hall => ?_⟩
  obtain ⟨caller, hcaller, hzero⟩ := List.mem_map.mp
    (hcalls ▸ List.mem_singleton.mpr rfl : 0 ∈ List.map _ _)
  have hpos := (throughout_concat.mp hall).2 caller hcaller
  exact absurd hpos (by rw [hzero]; decide)

end NsQuicReceiver
end CongestionResponse.NsQuic
