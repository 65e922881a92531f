import Mathlib.Algebra.Order.Group.Int
import CongestionResponse.Lib.VirtualSchedule
import CongestionResponse.DelayBbr.Sender
import CongestionResponse.ClusterBbr.Sender

/-! `MyPacingSender`: sends are spaced at the rate of a congestion controller.

The controller is any object behind the interface `CongestionController`, and it may be
exchanged, as may `max_pacing_rate_`. Which rate a packet is to be sent at is said first, from
the calls alone (`InForce`): the rate the controller answers with after it saw the packet, or
the cap. A send moves `ideal_next_packet_send_time_` on by the time its bytes take at that rate,
so whatever the rates are, the sender is a virtual schedule with a slack of the alarm
granularity (`onTime_sends`). -/
namespace CongestionResponse
open Lib Quic

/-! ### The interface -/

/-- `CongestionController`, as far as the pacing sender calls it. `PaceRate` is not `const`,
so it may leave another state behind. -/
structure CongestionController (σ : Type) where
  onAck : σ → Int → Nat → σ
  onPacketSent : σ → Int → Nat → Nat → σ
  paceRate : σ → QuicBandwidth × σ

def DelayBbr.controller : CongestionController DelayBbr.MyBbrSenderV5 where
  onAck := fun s eventTime packetNumber => s.onAck eventTime packetNumber
  onPacketSent := fun s eventTime packetNumber bytes => s.onPacketSent eventTime packetNumber bytes
  paceRate := fun s => (s.paceRate, s)

/-- The cluster sender stays undefined once an access of it was. -/
def ClusterBbr.controller : CongestionController (Option ClusterBbr.MyBbrSender) where
  onAck := fun s eventTime packetNumber => s.bind fun s => s.onAck eventTime packetNumber
  onPacketSent := fun s eventTime packetNumber bytes =>
    s.bind fun s => s.onPacketSent eventTime packetNumber bytes
  paceRate := fun s => (s.elim .zero ClusterBbr.MyBbrSender.paceRate, s)

namespace Pacing
variable {σ : Type}

/-! ### The sender -/

def alarmGranularity : Int := Delta.fromMilliseconds 1

structure MyPacingSender (σ : Type) where
  idealNextPacketSendTime : Int
  sender : Option σ
  maxPacingRate : QuicBandwidth

namespace MyPacingSender
variable (controller : CongestionController σ) (s : MyPacingSender σ)

def new : MyPacingSender σ := ⟨0, none, .zero⟩

/-- A nonzero `max_pacing_rate_` caps the rate. -/
def capped (pacingRate : QuicBandwidth) : QuicBandwidth :=
  if s.maxPacingRate ≠ .zero ∧ s.maxPacingRate < pacingRate then s.maxPacingRate else pacingRate

/-- How long a packet takes at the rate used for it, which the controller gives after it saw
the packet; and the controller after that. -/
def pace (c : σ) (now : Int) (packetNumber bytes : Nat) : Int × σ :=
  let rate := controller.paceRate (controller.onPacketSent c now packetNumber bytes)
  ((s.capped rate.1).transferTime bytes, rate.2)

def onPacketSent (now : Int) (packetNumber bytes : Nat) : MyPacingSender σ :=
  match s.sender with
  | none => s
  | some c =>
    let paced := s.pace controller c now packetNumber bytes
    {s with
      sender := some paced.2
      idealNextPacketSendTime :=
        max (s.idealNextPacketSendTime + paced.1) (now + paced.1)}

def onCongestionEvent (now : Int) (packetNumber : Nat) : MyPacingSender σ :=
  {s with sender := s.sender.map fun c => controller.onAck c now packetNumber}

def timeUntilSend (now : Int) : Int :=
  if now + alarmGranularity < s.idealNextPacketSendTime then s.idealNextPacketSendTime - now else 0

/-- The alarm is not set exactly if the next send is due within the granularity. -/
theorem timeUntilSend_eq_zero {now : Int} :
    s.timeUntilSend now = 0 ↔ s.idealNextPacketSendTime ≤ now + alarmGranularity := by
  have hgranularity : 0 < alarmGranularity := by decide
  unfold timeUntilSend
  split <;> omega

end MyPacingSender

/-! ### Runs -/

inductive Event (σ : Type) where
  | setSender (sender : Option σ)
  | setMaxPacingRate (maxBandwidth : QuicBandwidth)
  | sent (now : Int) (packetNumber bytes : Nat)
  | congestion (now : Int) (packetNumber : Nat)

section Runs
variable (controller : CongestionController σ)

def step (s : MyPacingSender σ) : Event σ → MyPacingSender σ
  | .setSender sender => {s with sender := sender}
  | .setMaxPacingRate maxBandwidth => {s with maxPacingRate := maxBandwidth}
  | .sent now packetNumber bytes => s.onPacketSent controller now packetNumber bytes
  | .congestion now packetNumber => s.onCongestionEvent controller now packetNumber

/-- A packet is sent only when `TimeUntilSend` has just returned zero. -/
def Admitted (s : MyPacingSender σ) : Event σ → Prop
  | .sent now _ _ => s.timeUntilSend now = 0
  | _ => True

instance (s : MyPacingSender σ) : (e : Event σ) → Decidable (Admitted s e)
  | .setSender _ => isTrue trivial
  | .setMaxPacingRate _ => isTrue trivial
  | .sent now _ _ => inferInstanceAs (Decidable (s.timeUntilSend now = 0))
  | .congestion _ _ => isTrue trivial

end Runs

/-! ### The rates to be used

These are read off the calls, without the pacing sender. -/

/-- The controller set last, with all it was told since, and the cap set last. -/
structure InForce (σ : Type) where
  sender : Option σ
  maxPacingRate : QuicBandwidth

section Rates
variable (controller : CongestionController σ)

/-- A controller is told of every packet and then asked for its rate, and told of every
acknowledgement. -/
def InForce.next (f : InForce σ) : Event σ → InForce σ
  | .setSender sender => {f with sender := sender}
  | .setMaxPacingRate maxBandwidth => {f with maxPacingRate := maxBandwidth}
  | .sent now packetNumber bytes =>
    {f with sender := f.sender.map fun c =>
      (controller.paceRate (controller.onPacketSent c now packetNumber bytes)).2}
  | .congestion now packetNumber =>
    {f with sender := f.sender.map fun c => controller.onAck c now packetNumber}

/-- The rate for a packet: what the controller answers after it saw the packet, and no more than
a nonzero cap. -/
def InForce.rate (f : InForce σ) (c : σ) (now : Int) (packetNumber bytes : Nat) : QuicBandwidth :=
  let pacingRate := (controller.paceRate (controller.onPacketSent c now packetNumber bytes)).1
  if f.maxPacingRate = .zero then pacingRate else min pacingRate f.maxPacingRate

/-- The time of a send and how long its packet takes at its rate; without a controller there is
no rate. -/
def paced (f : InForce σ) : Event σ → List (VirtualSchedule.Send Int)
  | .sent now packetNumber bytes =>
    f.sender.toList.map fun c =>
      ⟨now, (f.rate controller c now packetNumber bytes).transferTime bytes⟩
  | _ => []

/-- The paced sends of a run, in order. -/
def sends (es : List (Event σ)) : List (VirtualSchedule.Send Int) :=
  trace (InForce.next controller) (paced controller) ⟨none, .zero⟩ es

end Rates

/-! ### The sender keeps to them -/

section Conformance
variable {controller : CongestionController σ}

def MyPacingSender.inForce (s : MyPacingSender σ) : InForce σ := ⟨s.sender, s.maxPacingRate⟩

theorem inForce_step (s : MyPacingSender σ) (e : Event σ) :
    (step controller s e).inForce = s.inForce.next controller e := by
  cases e with
  | setSender _ => rfl
  | setMaxPacingRate _ => rfl
  | congestion _ _ => rfl
  | sent now packetNumber bytes =>
    simp only [step, MyPacingSender.onPacketSent, MyPacingSender.inForce, InForce.next]
    cases hsender : s.sender with
    | none => simp [hsender]
    | some c => rfl

theorem capped_eq (s : MyPacingSender σ) (pacingRate : QuicBandwidth) :
    s.capped pacingRate =
      if s.maxPacingRate = .zero then pacingRate else min pacingRate s.maxPacingRate := by
  unfold MyPacingSender.capped
  by_cases hzero : s.maxPacingRate = .zero
  · rw [if_neg (fun h => h.1 hzero), if_pos hzero]
  · by_cases hlt : s.maxPacingRate < pacingRate
    · rw [if_pos ⟨hzero, hlt⟩, if_neg hzero, min_eq_right hlt.le]
    · rw [if_neg (fun h => hlt h.2), if_neg hzero, min_eq_left (not_lt.mp hlt)]

/-- An event moves the due time as the sends it makes do. -/
theorem idealNextPacketSendTime_step (s : MyPacingSender σ) (e : Event σ) :
    (step controller s e).idealNextPacketSendTime =
      run VirtualSchedule.advance s.idealNextPacketSendTime (paced controller s.inForce e) := by
  cases e with
  | setSender _ => rfl
  | setMaxPacingRate _ => rfl
  | congestion _ _ => rfl
  | sent now packetNumber bytes =>
    simp only [step, MyPacingSender.onPacketSent, paced, MyPacingSender.inForce]
    cases s.sender with
    | none => rfl
    | some c =>
      simp only [MyPacingSender.pace, capped_eq, Option.toList_some, List.map_cons, List.map_nil]
      rfl

/-- An admitted event makes a send that is on time, or none. -/
theorem onTime_paced {s : MyPacingSender σ} {e : Event σ} (h : Admitted s e) :
    Along VirtualSchedule.advance (VirtualSchedule.OnTime alarmGranularity)
      s.idealNextPacketSendTime (paced controller s.inForce e) := by
  cases e with
  | setSender _ => trivial
  | setMaxPacingRate _ => trivial
  | congestion _ _ => trivial
  | sent now packetNumber bytes =>
    have hdue := s.timeUntilSend_eq_zero.mp h
    simp only [paced, MyPacingSender.inForce]
    cases s.sender with
    | none => trivial
    | some c => exact ⟨hdue, trivial⟩

/-- The sender is a virtual schedule of its sends: they all come on time. -/
theorem onTime_sends {es : List (Event σ)} (h : Along (step controller) Admitted .new es) :
    Along VirtualSchedule.advance (VirtualSchedule.OnTime alarmGranularity) 0
      (sends controller es) := by
  have hsends : sends controller es =
      trace (step controller) (fun s e => paced controller s.inForce e) .new es :=
    trace_map inForce_step (paced controller) .new es
  have hok : Along (step controller)
      (fun s e => Along VirtualSchedule.advance (VirtualSchedule.OnTime alarmGranularity)
        s.idealNextPacketSendTime (paced controller s.inForce e)) .new es :=
    along_mono (fun _ _ hadmitted => onTime_paced hadmitted) h
  rw [hsends]
  refine (along_trace (R := fun s due => s.idealNextPacketSendTime = due) ?_ ?_ rfl es).mp hok
  · intro s due e hdue
    rw [hdue]
  · intro s due e hdue _
    rw [idealNextPacketSendTime_step, hdue]

end Conformance

/-- **Over every window the sends keep to their rates.** Whatever the controllers and the caps,
from the `i`-th send up to the `j`-th the packets take no longer, each at its own rate, than
the time between the two and the alarm granularity. -/
theorem pacing_rate_kept {controller : CongestionController σ} {es : List (Event σ)}
    (h : Along (step controller) Admitted .new es) {i j : Nat} (hij : i < j)
    (hj : j < (sends controller es).length) :
    ((((sends controller es).take j).drop i).map VirtualSchedule.Send.cost).sum ≤
      (sends controller es)[j].time - (sends controller es)[i].time + alarmGranularity :=
  VirtualSchedule.window_le (onTime_sends h) hij hj

/-- Three packets, the third under a lower cap, and a fourth as early as `TimeUntilSend`
allows. -/
def burst : List (Event DelayBbr.MyBbrSenderV5) :=
  [.setSender (some (.new 1000000 ⟨fun _ => 0, 0⟩)), .sent 1000 1 100, .sent 1000 2 1000,
    .congestion 5000 1, .setMaxPacingRate (.fromBitsPerSecond 500000), .sent 5000 3 1000,
    .sent 20400 4 1000]

theorem pacing_rate_kept_burst : Along (step DelayBbr.controller) Admitted .new burst ∧
    sends DelayBbr.controller burst = [⟨1000, 400⟩, ⟨1000, 4000⟩, ⟨5000, 16000⟩, ⟨20400, 16000⟩] ∧
    ((((sends DelayBbr.controller burst).take 3).drop 0).map VirtualSchedule.Send.cost).sum ≤
      19400 + alarmGranularity := by
  have hadmitted : Along (step DelayBbr.controller) Admitted .new burst := by decide +kernel
  exact ⟨hadmitted, by decide +kernel,
    pacing_rate_kept (i := 0) (j := 3) hadmitted (by decide) (by decide +kernel)⟩

end Pacing
end CongestionResponse
