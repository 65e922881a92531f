import CongestionResponse.NsQuic.Application

/-! The two views of `NsQuicSender` on the way back are one.

`NsQuic.NsQuicSender` writes down the calls it makes on its packet manager and takes the manager's
answer as a parameter; `Application.NsQuicSender` has the manager and makes the calls. What the
first one writes down is what happens to the manager of the second, and where the manager gives the
answer the two do the same with every datagram (`onIncomingData_refines`). So what is proved of the
calls alone holds of the sender as a whole: the manager is told of whole acks. -/
namespace CongestionResponse.NsQuic.Application
open Lib Quic Framer SentPackets
open QuicSentPacketManager (idleConfig)
namespace NsQuicSender
variable {σ : Type}

/-- A call as the manager carries it out. The clock has not moved since the datagram came. -/
def perform (c : Config Nat σ) (m : QuicSentPacketManager Nat σ) :
    ManagerCall → Option (QuicSentPacketManager Nat σ)
  | .onAckFrameStart largestAcked ackDelayTime ackReceiveTime =>
    some (m.onAckFrameStart c largestAcked ackDelayTime ackReceiveTime)
  | .onAckRange start stop => some (m.onAckRange start stop)
  | .onAckFrameEnd ackReceiveTime => m.onAckFrameEnd c ackReceiveTime ackReceiveTime

/-- What the manager answers after some calls. -/
def leastUnackedAfter (c : Config Nat σ) (m : QuicSentPacketManager Nat σ)
    (calls : List ManagerCall) : Nat :=
  (calls.foldlM (perform c) m).elim 0 QuicSentPacketManager.getLeastUnacked

section Hearing
variable {c : Config Nat σ} {m : QuicSentPacketManager Nat σ} {s s' : NsQuicSender σ}
  {t : NsQuic.NsQuicSender}

/-- The manager gets the calls that the other view writes down. -/
theorem map_hear (c : Config Nat σ) (s : NsQuicSender σ) (call : Call) :
    (s.hear c call).map sentPacketManager =
      (tells s.timeOfLastReceivedPacket call).foldlM (perform c) s.sentPacketManager := by
  cases call with
  | onAckRange start stop lastRange =>
    cases lastRange with
    | false => rfl
    | true =>
      show ((s.sentPacketManager.onAckRange start stop).onAckFrameEnd c _ _ >>= _).map _ =
        (s.sentPacketManager.onAckRange start stop).onAckFrameEnd c _ _ >>= _
      cases (s.sentPacketManager.onAckRange start stop).onAckFrameEnd c s.timeOfLastReceivedPacket
          s.timeOfLastReceivedPacket with
      | none => rfl
      | some manager => rfl
  | _ => rfl

/-- What is heard changes nothing in what was sent, and is heard at one time. -/
structure Heard (s s' : NsQuicSender σ) : Prop where
  seq : s'.seq = s.seq
  carried : s'.carried = s.carried
  running : s'.running = s.running
  timeOfLastReceivedPacket : s'.timeOfLastReceivedPacket = s.timeOfLastReceivedPacket

theorem heard_hear {call : Call} (h : s.hear c call = some s') : Heard s s' := by
  cases call with
  | onAckRange start stop lastRange =>
    have h : s.onAckRange c start stop lastRange = some s' := h
    unfold NsQuicSender.onAckRange at h
    cases lastRange with
    | false =>
      cases h
      exact ⟨rfl, rfl, rfl, rfl⟩
    | true =>
      obtain ⟨manager, -, h⟩ := Option.bind_eq_some_iff.mp h
      cases h
      exact ⟨rfl, rfl, rfl, rfl⟩
  | _ =>
    cases h
    exact ⟨rfl, rfl, rfl, rfl⟩

theorem heard_hears {calls : List Call} (h : calls.foldlM (hear c) s = some s') : Heard s s' := by
  induction calls generalizing s with
  | nil =>
    cases h
    exact ⟨rfl, rfl, rfl, rfl⟩
  | cons call rest ih =>
    rw [List.foldlM_cons] at h
    obtain ⟨s₁, hcall, h⟩ := Option.bind_eq_some_iff.mp h
    have hfirst := heard_hear hcall
    have hrest := ih h
    exact ⟨hrest.seq.trans hfirst.seq, hrest.carried.trans hfirst.carried,
      hrest.running.trans hfirst.running,
      hrest.timeOfLastReceivedPacket.trans hfirst.timeOfLastReceivedPacket⟩

theorem map_hears (calls : List Call) (s : NsQuicSender σ) :
    (calls.foldlM (hear c) s).map sentPacketManager =
      (calls.flatMap (tells s.timeOfLastReceivedPacket)).foldlM (perform c)
        s.sentPacketManager := by
  induction calls generalizing s with
  | nil => rfl
  | cons call rest ih =>
    rw [List.foldlM_cons, List.flatMap_cons, List.foldlM_append, ← map_hear]
    cases hcall : s.hear c call with
    | none => rfl
    | some s₁ =>
      rw [← (heard_hear hcall).timeOfLastReceivedPacket]
      exact ih s₁

/-- The fields agree, and the manager is where the calls take it. -/
structure Refines (c : Config Nat σ) (m : QuicSentPacketManager Nat σ) (s : NsQuicSender σ)
    (t : NsQuic.NsQuicSender) : Prop where
  manager : t.sentPacketManager.foldlM (perform c) m = some s.sentPacketManager
  timeOfLastReceivedPacket : t.timeOfLastReceivedPacket = s.timeOfLastReceivedPacket
  running : t.running = s.running
  stopWaitingCount : t.stopWaitingCount = s.stopWaitingCount
  largestAcked : t.largestAcked = s.largestAcked

theorem Refines.hear (h : Refines c m s t) {call : Call} (hrun : s.hear c call = some s') :
    Refines c m s' (t.hear (leastUnackedAfter c m) call) := by
  obtain ⟨htime, hrunning, hcalls⟩ := hear_spec (leastUnackedAfter c m) t call
  have hmanager : (t.hear (leastUnackedAfter c m) call).sentPacketManager.foldlM (perform c) m =
      some s'.sentPacketManager := by
    rw [hcalls, List.foldlM_append, h.manager, h.timeOfLastReceivedPacket]
    show (tells _ call).foldlM (perform c) s.sentPacketManager = _
    rw [← map_hear, hrun, Option.map_some]
  have htime' := htime.trans (h.timeOfLastReceivedPacket.trans
    (heard_hear hrun).timeOfLastReceivedPacket.symm)
  cases call with
  | onAckFrameStart largestAcked ackDelayTime =>
    cases hrun
    refine ⟨hmanager, htime', hrunning.trans h.running, h.stopWaitingCount, ?_⟩
    show (if t.largestAcked ≤ largestAcked then _ else _) = if s.largestAcked ≤ largestAcked then _
      else _
    rw [h.largestAcked]
  | onAckRange start stop lastRange =>
    have hrange : s.onAckRange c start stop lastRange = some s' := hrun
    unfold NsQuicSender.onAckRange at hrange
    cases lastRange with
    | false =>
      cases hrange
      exact ⟨hmanager, htime', hrunning.trans h.running, h.stopWaitingCount, h.largestAcked⟩
    | true =>
      obtain ⟨manager, -, hrange⟩ := Option.bind_eq_some_iff.mp hrange
      cases hrange
      refine ⟨hmanager, htime', hrunning.trans h.running, ?_, h.largestAcked⟩
      -- The answer of the manager is that after the calls written down.
      have hleast : leastUnackedAfter c m
          (t.hear (leastUnackedAfter c m) (.onAckRange start stop true)).sentPacketManager =
            manager.getLeastUnacked := by
        rw [leastUnackedAfter, hmanager]
        rfl
      show (if decide (start < leastUnackedAfter c m _) then _ else _) =
        if decide (start < manager.getLeastUnacked) then s.stopWaitingCount + 1 else 0
      rw [← h.stopWaitingCount, ← hleast]
      rfl
  | _ =>
    cases hrun
    exact ⟨hmanager, htime', hrunning.trans h.running, h.stopWaitingCount, h.largestAcked⟩

end Hearing

end NsQuicSender
end CongestionResponse.NsQuic.Application
