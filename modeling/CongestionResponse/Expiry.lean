import CongestionResponse.Quic.MinRttClock
import CongestionResponse.DelayBbr.Modes
import CongestionResponse.ClusterBbr.Runs

/-! When the minimum round trip time of the two senders expires.

Each sender is followed by the record of `Quic.MinRttClock` as long as nothing has expired:
only an expiry makes `MyBbrSenderV5` restore a minimum and `MyBbrSender` forget one. So
the first expiry is where the acknowledgements are late. -/
namespace CongestionResponse
open Lib Quic

/-! ### `MyBbrSenderV5` -/

namespace DelayBbr

/-- `min_rtt_expired`, wherever `OnAck` computes it, is false. -/
def Unexpired (s : MyBbrSenderV5) : Event → Prop
  | .sent _ _ _ => True
  | .ack t p => s.ledger.lastAckSeq < p → s.rounds.roundTripCount ≠ 0 →
      (s.answer t p).2.2.rtt.isExpired t = false

/-- What an event shows the record of the minimum. -/
def ackSeen (s : MyBbrSenderV5) : Event → List AckSeen
  | .sent _ _ _ => []
  | .ack t p =>
    if p ≤ s.ledger.lastAckSeq then []
    else [⟨t, s.rttSample t p, decide (s.rounds.roundTripCount ≠ 0)⟩]

/-- The sender has this minimum, and no expiry is being handled. -/
structure Keeps (s : MyBbrSenderV5) (m : MinRtt) : Prop where
  minRtt : s.rtt.toMinRtt = m
  minRttExpired : s.control.minRttExpired = false

section Keeps
variable {s : MyBbrSenderV5} {m : MinRtt}

theorem Keeps.congestionReason (h : Keeps s m) (p : Nat) : Keeps (s.congestionReason p).2 m := by
  unfold MyBbrSenderV5.congestionReason
  split
  · exact ⟨h.minRtt, h.minRttExpired⟩
  · exact h

theorem Keeps.enterDecrease (h : Keeps s m) (reason round : Nat) :
    Keeps (s.enterDecrease false reason round) m := by
  unfold MyBbrSenderV5.enterDecrease
  split
  · exact ⟨h.minRtt, rfl⟩
  · exact h

theorem Keeps.exitDecrease (h : Keeps s m) (now : Int) : Keeps (s.exitDecrease now) m := by
  unfold MyBbrSenderV5.exitDecrease
  split
  · simp only
    split
    · exact ⟨by simp only [h.minRttExpired]; exact h.minRtt, rfl⟩
    · exact ⟨h.minRtt, h.minRttExpired⟩
  · exact h

theorem Keeps.maybeExitStartupOrDrain (h : Keeps s m) (now : Int) :
    Keeps (s.maybeExitStartupOrDrain now) m := by
  have hstart : Keeps s.exitStartup m := by
    unfold MyBbrSenderV5.exitStartup
    split
    · exact ⟨h.minRtt, h.minRttExpired⟩
    · exact h
  unfold MyBbrSenderV5.maybeExitStartupOrDrain MyBbrSenderV5.exitDrain
  split
  · exact ⟨hstart.minRtt, hstart.minRttExpired⟩
  · exact hstart

theorem Keeps.cycleGain (h : Keeps s m) (now : Int) : Keeps (s.cycleGain now) m := by
  unfold MyBbrSenderV5.cycleGain MyBbrSenderV5.updateGainCyclePhase Control.updateGainCyclePhase
  split
  · simp only
    split
    · exact ⟨h.minRtt, h.minRttExpired⟩
    · exact h
  · exact h

/-- Where nothing expires, managing the modes leaves the minimum alone. -/
theorem Keeps.manage (h : Keeps s m) {t : Int} {round : Nat}
    (hfresh : round ≠ 0 → s.rtt.isExpired t = false) (p : Nat) (isRoundUpdate : Bool)
    (bw : QuicBandwidth) : Keeps (s.manage t p round isRoundUpdate bw) m := by
  unfold MyBbrSenderV5.manage
  split
  · exact ⟨h.minRtt, h.minRttExpired⟩
  · rename_i hround
    have hmodes : Keeps (s.manageModes t p round isRoundUpdate bw) m := by
      simp only [MyBbrSenderV5.manageModes, hfresh hround]
      rw [MyBbrSenderV5.updateBandwidth_eq]
      have hdecrease :=
        ((h.congestionReason p).enterDecrease (s.congestionReason p).1 round).exitDecrease t
      refine Keeps.cycleGain (Keeps.maybeExitStartupOrDrain ?_ t) t
      exact ⟨hdecrease.minRtt, hdecrease.minRttExpired⟩
    exact ⟨hmodes.minRtt, hmodes.minRttExpired⟩

theorem Keeps.unexpired_iff (h : Keeps s m) (e : Event) :
    Unexpired s e ↔ Along MinRtt.see MinRtt.FreshFor m (ackSeen s e) := by
  cases e with
  | sent t p bytes => exact Iff.rfl
  | ack t p =>
    simp only [Unexpired, ackSeen, s.minRtt_answer, MinRtt.isExpired_after, h.minRtt]
    by_cases hp : p ≤ s.ledger.lastAckSeq
    · simp [hp, Along, Nat.not_lt.mpr hp]
    · simp [hp, Along, MinRtt.FreshFor, Nat.lt_of_not_le hp]

theorem Keeps.step (h : Keeps s m) {e : Event} (hfresh : Unexpired s e) :
    Keeps (step s e) (run MinRtt.see m (ackSeen s e)) := by
  cases e with
  | sent t p bytes => exact ⟨h.minRtt, h.minRttExpired⟩
  | ack t p =>
    show Keeps (s.onAck t p) (run MinRtt.see m (ackSeen s (.ack t p)))
    unfold MyBbrSenderV5.onAck ackSeen
    by_cases hp : p ≤ s.ledger.lastAckSeq
    · simp only [hp, if_true]
      exact h
    · simp only [hp, if_false]
      have hanswer : Keeps (s.answer t p).2.2 (m.after t (s.rttSample t p)) :=
        ⟨by rw [s.minRtt_answer, h.minRtt], by rw [s.control_answer]; exact h.minRttExpired⟩
      exact hanswer.manage (hfresh (Nat.lt_of_not_le hp)) p _ _

end Keeps

theorem keeps_new (minBps : Nat) (random : MyQuicRandom) :
    Keeps (.new minBps random) ⟨0, 0⟩ := ⟨rfl, rfl⟩

/-- The accepted acknowledgements of a run. -/
def acksSeen (s : MyBbrSenderV5) (es : List Event) : List AckSeen := trace step ackSeen s es

/-- No acknowledgement of a run finds the minimum expired, and at its end no `ST_DECREASE`
is on that was entered for an expiry. -/
structure NeverExpires (s : MyBbrSenderV5) (es : List Event) : Prop where
  unexpired : Along step Unexpired s es
  minRttExpired : (run step s es).control.minRttExpired = false

theorem neverExpires_iff {s : MyBbrSenderV5} {m : MinRtt} (h : Keeps s m) (es : List Event) :
    NeverExpires s es ↔ Along MinRtt.see MinRtt.FreshFor m (acksSeen s es) := by
  have htrace : Along step Unexpired s es ↔ _ :=
    along_trace (R := Keeps) (fun _ _ e hk => hk.unexpired_iff e) (fun _ _ _ hk => hk.step) h es
  refine ⟨fun hnever => htrace.mp hnever.unexpired, fun hfresh => ⟨htrace.mpr hfresh, ?_⟩⟩
  obtain ⟨_, hkeeps⟩ := run_preserves (P := fun s => ∃ m, Keeps s m)
    (fun _ _ hok hk => hk.elim fun _ hk => ⟨_, hk.step hok⟩) ⟨m, h⟩ (htrace.mpr hfresh)
  exact hkeeps.minRttExpired

end DelayBbr

/-! ### `MyBbrSender` -/

namespace ClusterBbr

def Unexpired (s : MyBbrSender) : Event → Prop
  | .ack t p => s.lastAckSeq < p → (s.receive t p).rtt.isExpired t = false
  | _ => True

def RttRecord.rttSample (r : RttRecord) (now : Int) (packetNumber : Nat) : Option Int :=
  (r.seqTsMap.find? packetNumber).map fun sentTs => now - sentTs

def ackSeen (s : MyBbrSender) : Event → List AckSeen
  | .ack t p => if p ≤ s.lastAckSeq then [] else [⟨t, s.rtt.rttSample t p, true⟩]
  | _ => []

/-- The sender has this minimum, and has never entered `PROBE_RTT`. -/
structure Keeps (s : MyBbrSender) (m : MinRtt) : Prop where
  minRtt : s.rtt.toMinRtt = m
  mode : s.control.mode ≠ .probeRtt
  modeLog : .probeRtt ∉ s.control.modeLog

section Keeps
variable {s : MyBbrSender} {m : MinRtt}

theorem minRtt_updateRtt (r : RttRecord) (now : Int) (packetNumber : Nat) :
    (r.updateRtt now packetNumber).toMinRtt =
      r.toMinRtt.after now (r.rttSample now packetNumber) := by
  unfold RttRecord.updateRtt RttRecord.rttSample
  cases r.seqTsMap.find? packetNumber <;> rfl

/-- The gain cycle, and the first acknowledgement of all, do not enter `PROBE_RTT`. -/
theorem Keeps.receive (h : Keeps s m) (t : Int) (p : Nat) :
    Keeps (s.receive t p) (m.after t (s.rtt.rttSample t p)) := by
  have hstart : ∀ c : Control, c.mode ≠ .probeRtt → .probeRtt ∉ c.modeLog →
      (c.leaveStartUp t).mode ≠ .probeRtt ∧ .probeRtt ∉ (c.leaveStartUp t).modeLog := by
    intro c hmode hlog
    unfold Control.leaveStartUp Control.enterProbeBandwidthMode
    split_ifs <;> simp [hmode, hlog]
  have hcycle := fun c minRtt => MyBbrSender.cycleGain_frame c minRtt t
  obtain ⟨hmode, hlog⟩ := hstart s.control h.mode h.modeLog
  exact
    { minRtt := by rw [← h.minRtt]; exact minRtt_updateRtt s.rtt t p
      mode := by rw [MyBbrSender.receive, (hcycle _ _).1]; exact hmode
      modeLog := by rw [MyBbrSender.receive, (hcycle _ _).2]; exact hlog }

theorem Keeps.unexpired_iff (h : Keeps s m) (e : Event) :
    Unexpired s e ↔ Along MinRtt.see MinRtt.FreshFor m (ackSeen s e) := by
  cases e with
  | sent t p bytes => exact Iff.rfl
  | period ms => exact Iff.rfl
  | ack t p =>
    simp only [Unexpired, ackSeen]
    rw [(h.receive t p).minRtt, MinRtt.isExpired_after]
    by_cases hp : p ≤ s.lastAckSeq
    · simp [hp, Along, Nat.not_lt.mpr hp]
    · simp [hp, Along, MinRtt.FreshFor, Nat.lt_of_not_le hp]

/-- An acknowledgement that does not expire the minimum passes by `PROBE_RTT`. -/
theorem Keeps.acceptAck {s' : MyBbrSender} {t : Int} {p : Nat} (h : Keeps s m)
    (hfresh : (s.receive t p).rtt.isExpired t = false) (hack : s.acceptAck t p = some s') :
    Keeps s' (m.after t (s.rtt.rttSample t p)) := by
  have hreceive := h.receive t p
  have hexit : (s.receive t p).exitProbeRtt t = s.receive t p := if_neg hreceive.mode
  obtain ⟨entered, graph, report, henter, -, haverage⟩ := MyBbrSender.acceptAck_stages hack
  rw [hfresh] at henter
  obtain rfl : s.receive t p = entered := Option.some.inj henter
  rw [hexit, MyBbrSender.onEstimate_eq] at haverage
  have heq := MyBbrSender.averageClusters_eq haverage
  have hrtt' : s'.rtt = (s.receive t p).rtt := by rw [heq]; rfl
  have hcontrol' : s'.control = (s.receive t p).control := by rw [heq]; rfl
  exact
    { minRtt := by rw [hrtt']; exact hreceive.minRtt
      mode := by rw [hcontrol']; exact hreceive.mode
      modeLog := by rw [hcontrol']; exact hreceive.modeLog }

theorem Keeps.step {s' : MyBbrSender} (h : Keeps s m) {e : Event} (hfresh : Unexpired s e)
    (hstep : step s e = some s') : Keeps s' (run MinRtt.see m (ackSeen s e)) := by
  cases e with
  | sent t p bytes =>
    simp only [ClusterBbr.step, MyBbrSender.onPacketSent] at hstep
    split at hstep
    · simp only [Option.bind_eq_bind, Option.bind_eq_some_iff] at hstep
      obtain ⟨graph, -, heq⟩ := hstep
      obtain rfl := Option.some.inj heq
      exact ⟨h.minRtt, h.mode, h.modeLog⟩
    · obtain rfl := Option.some.inj hstep
      exact ⟨h.minRtt, h.mode, h.modeLog⟩
  | period ms =>
    obtain rfl := Option.some.inj hstep
    exact ⟨h.minRtt, h.mode, h.modeLog⟩
  | ack t p =>
    simp only [ClusterBbr.step, MyBbrSender.onAck] at hstep
    by_cases hp : p ≤ s.lastAckSeq
    · rw [if_pos hp] at hstep
      obtain rfl := Option.some.inj hstep
      simpa [ackSeen, hp] using h
    · rw [if_neg hp] at hstep
      simp only [ackSeen, hp, if_false]
      exact h.acceptAck (hfresh (Nat.lt_of_not_le hp)) hstep

end Keeps

theorem keeps_new (minBps : Nat) (hasObserver : Bool) (random : MyQuicRandom) :
    Keeps (.new minBps hasObserver random) ⟨0, 0⟩ :=
  ⟨rfl, by simp [MyBbrSender.new], by simp [MyBbrSender.new]⟩

def acksSeen (s : MyBbrSender) (es : List Event) : List AckSeen :=
  trace (attempt step) (fun state e => state.elim [] fun s => ackSeen s e) (some s) es

/-- No acknowledgement of a run finds the minimum expired, and the run does not enter
`PROBE_RTT`. -/
structure NeverExpires (s : MyBbrSender) (es : List Event) : Prop where
  unexpired : Along (attempt step) (fun state e => ∀ s ∈ state, Unexpired s e) (some s) es
  modeLog : ∀ s' ∈ tryRun step s es, .probeRtt ∉ s'.control.modeLog

theorem neverExpires_iff {s : MyBbrSender} {m : MinRtt} (h : Keeps s m) (es : List Event) :
    NeverExpires s es ↔ Along MinRtt.see MinRtt.FreshFor m (acksSeen s es) := by
  -- A state that is missing is followed by every record.
  have hstep : ∀ (state : Option MyBbrSender) (m : MinRtt) (e : Event),
      (∀ s ∈ state, Keeps s m) → (∀ s ∈ state, Unexpired s e) → ∀ s' ∈ attempt step state e,
        Keeps s' (run MinRtt.see m (state.elim [] fun s => ackSeen s e)) := by
    intro state m e hk hok s' hs'
    obtain ⟨s, rfl, hs'⟩ := Option.bind_eq_some_iff.mp hs'
    exact (hk s rfl).step (hok s rfl) hs'
  have htrace : Along (attempt step) (fun state e => ∀ s ∈ state, Unexpired s e) (some s) es ↔ _ :=
    along_trace (R := fun state m => ∀ s ∈ state, Keeps s m)
      (fun state m e hk => by
        cases state with
        | none => simp [Along]
        | some s => simpa using (hk s rfl).unexpired_iff e)
      hstep (by simpa using h) es
  refine ⟨fun hnever => htrace.mp hnever.unexpired, fun hfresh => ⟨htrace.mpr hfresh, ?_⟩⟩
  obtain ⟨_, hkeeps⟩ := run_preserves (P := fun state => ∃ m, ∀ s ∈ state, Keeps s m)
    (fun _ _ hok hk => hk.elim fun _ hk => ⟨_, hstep _ _ _ hk hok⟩) ⟨m, by simpa using h⟩
    (htrace.mpr hfresh)
  exact fun s' hs' => (hkeeps s' hs').modeLog

end ClusterBbr

/-! ### Both senders -/

/-- **Where all round trip times are within an eighth of each other, the minimum expires
exactly if an acknowledgement comes more than ten seconds after the last one that dated it.**
Acknowledgements whose round trip time equals the smallest do not date it. -/
theorem min_rtt_never_expires_iff {m : Int} (hpos : 0 < m) (hsmall : m < 2 ^ 49) :
    (∀ minBps random es, Within m (DelayBbr.acksSeen (.new minBps random) es) →
      (DelayBbr.NeverExpires (.new minBps random) es ↔
        OnTime (DelayBbr.acksSeen (.new minBps random) es))) ∧
    (∀ minBps hasObserver random es,
      Within m (ClusterBbr.acksSeen (.new minBps hasObserver random) es) →
      (ClusterBbr.NeverExpires (.new minBps hasObserver random) es ↔
        OnTime (ClusterBbr.acksSeen (.new minBps hasObserver random) es))) := by
  refine ⟨fun minBps random es hwithin => ?_, fun minBps hasObserver random es hwithin => ?_⟩
  · rw [DelayBbr.neverExpires_iff (DelayBbr.keeps_new minBps random)]
    exact (agrees_start m).fresh_iff_inTime hpos hsmall hwithin
  · rw [ClusterBbr.neverExpires_iff (ClusterBbr.keeps_new minBps hasObserver random)]
    exact (agrees_start m).fresh_iff_inTime hpos hsmall hwithin

/-- Three packets, sent five seconds apart. The second round trip takes a microsecond more. -/
def unevenRtt : List DelayBbr.Event :=
  [.sent 0 1 1000, .ack 100000 1, .sent 5000000 2 1000, .ack 5100001 2,
    .sent 10000001 3 1000, .ack 10100001 3]

def unevenRtt' : List ClusterBbr.Event :=
  [.sent 0 1 1000, .ack 100000 1, .sent 5000000 2 1000, .ack 5100001 2,
    .sent 10000001 3 1000, .ack 10100001 3]

theorem min_rtt_never_expires_uneven :
    DelayBbr.NeverExpires (.new 1000000 ⟨fun _ => 0, 0⟩) unevenRtt ∧
      ClusterBbr.NeverExpires (.new 1000000 false ⟨fun _ => 0, 0⟩) unevenRtt' := by
  have hseen : DelayBbr.acksSeen (.new 1000000 ⟨fun _ => 0, 0⟩) unevenRtt =
      [⟨100000, some 100000, false⟩, ⟨5100001, some 100001, true⟩,
        ⟨10100001, some 100000, true⟩] := by decide +kernel
  have hseen' : ClusterBbr.acksSeen (.new 1000000 false ⟨fun _ => 0, 0⟩) unevenRtt' =
      [⟨100000, some 100000, true⟩, ⟨5100001, some 100001, true⟩,
        ⟨10100001, some 100000, true⟩] := by decide +kernel
  obtain ⟨hdelay, hcluster⟩ := min_rtt_never_expires_iff (m := 100000) (by decide) (by decide)
  have honTime : ∀ judged, OnTime [⟨100000, some 100000, judged⟩, ⟨5100001, some 100001, true⟩,
      ⟨10100001, some 100000, true⟩] := by
    simp [OnTime, Along, Dating.InTime, Dating.see, Dating.start, kMinRttExpiry, Delta.fromSeconds]
  refine ⟨(hdelay _ _ _ ?_).mpr ?_, (hcluster _ _ _ _ ?_).mpr ?_⟩
  · rw [hseen]
    simp [Within]
  · rw [hseen]
    exact honTime false
  · rw [hseen']
    simp [Within]
  · rw [hseen']
    exact honTime true

/-- Three packets, sent five seconds apart, with the same round trip time. -/
def constantRtt : List DelayBbr.Event :=
  [.sent 0 1 1000, .ack 100000 1, .sent 5000000 2 1000, .ack 5100000 2,
    .sent 10000001 3 1000, .ack 10100001 3]

def constantRtt' : List ClusterBbr.Event :=
  [.sent 0 1 1000, .ack 100000 1, .sent 5000000 2 1000, .ack 5100000 2,
    .sent 10000001 3 1000, .ack 10100001 3]

/-- The last acknowledgement finds the minimum expired, though the one before it confirmed
it: one sender enters `ST_DECREASE` for it and the other `PROBE_RTT`. -/
theorem min_rtt_expires_at_constant_rtt :
    DelayBbr.acksSeen (.new 1000000 ⟨fun _ => 0, 0⟩) constantRtt =
      [⟨100000, some 100000, false⟩, ⟨5100000, some 100000, true⟩,
        ⟨10100001, some 100000, true⟩] ∧
    ¬DelayBbr.NeverExpires (.new 1000000 ⟨fun _ => 0, 0⟩) constantRtt ∧
    (run DelayBbr.step (.new 1000000 ⟨fun _ => 0, 0⟩) constantRtt).control.modeLog =
      [⟨.start, .decrease, false⟩, ⟨.decrease, .increase, false⟩] ∧
    ClusterBbr.acksSeen (.new 1000000 false ⟨fun _ => 0, 0⟩) constantRtt' =
      [⟨100000, some 100000, true⟩, ⟨5100000, some 100000, true⟩,
        ⟨10100001, some 100000, true⟩] ∧
    ¬ClusterBbr.NeverExpires (.new 1000000 false ⟨fun _ => 0, 0⟩) constantRtt' ∧
    ((tryRun ClusterBbr.step (.new 1000000 false ⟨fun _ => 0, 0⟩) constantRtt').map
      fun s => s.control.modeLog) = some [.probeBw, .probeRtt] := by
  have hlog : ((tryRun ClusterBbr.step (.new 1000000 false ⟨fun _ => 0, 0⟩) constantRtt').map
      fun s => s.control.modeLog) = some [.probeBw, .probeRtt] := by decide +kernel
  refine ⟨by decide +kernel, fun hnever => ?_, by decide +kernel, by decide +kernel,
    fun hnever => ?_, hlog⟩
  · obtain ⟨-, -, -, -, -, hlast, -⟩ := hnever.unexpired
    exact absurd (hlast (by decide +kernel) (by decide +kernel)) (by decide +kernel)
  · obtain ⟨s, hs, hmodes⟩ := Option.map_eq_some_iff.mp hlog
    exact hnever.modeLog s hs (by rw [hmodes]; decide)

end CongestionResponse
