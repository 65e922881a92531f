import CongestionResponse.NsQuic.ManagerCalls

/-! What the sender does at its heart beats and with the acks it hears, in the manager's terms.

A heart beat never fails: what waits is tracked, so it can be sent again, and every round of the
loop takes a packet from those that wait (`exists_heartBeat`). All it sends are data packets with
the next numbers, and a stop-waiting frame for the least unacked one. An ack frame, which the
parser hands over range by range, is one input of the manager (`map_onIncomingData`). -/
namespace CongestionResponse.NsQuic.Application
open Lib Quic Framer SentPackets QuicSentPacketManager

/-! ### The calls for an ack frame -/

/-- The ranges among some calls. -/
def rangesOf (calls : List Call) : List (Nat × Nat) :=
  calls.filterMap fun
    | .onAckRange start stop _ => some (start, stop)
    | _ => none

/-- One of the calls is for a last range. -/
def endsFrame (calls : List Call) : Bool :=
  calls.any fun
    | .onAckRange _ _ lastRange => lastRange
    | _ => false

/-- Ranges, of which only the last may be marked as such. -/
def Closing : List Call → Prop
  | [] => True
  | .onAckRange _ _ lastRange :: rest => (lastRange = true → rest = []) ∧ Closing rest
  | _ => False

namespace NsQuicSender
variable {σ : Type} {c : Config Nat σ} {s s' s'' : NsQuicSender σ} {told told' : Nat → Prop}

/-- The sender and its manager agree on what was sent. -/
structure Kept (told : Nat → Prop) (s : NsQuicSender σ) : Prop where
  history : ∃ inputs, Ledger told inputs s.sentPacketManager ∧
    ∀ n frames, Carried inputs n frames ↔ (n, frames) ∈ s.carried
  seq : s.seq = s.sentPacketManager.unackedPackets.largestSentPacket + 1
  running : s.running = true

theorem kept_new (told : Nat → Prop) (a : GeneralLossAlgorithm) (sendAlgorithm : σ) (now : Int) :
    Kept told (new a sendAlgorithm now) := by
  refine ⟨⟨[], ledger_new told a sendAlgorithm, fun n frames => ?_⟩, rfl, rfl⟩
  refine ⟨?_, fun hmem => absurd hmem List.not_mem_nil⟩
  rintro ⟨packet, o, sentTime, transmissionType, hasData, hmem, -⟩
  exact absurd hmem List.not_mem_nil

theorem Kept.managed (h : Kept told s) : s.sentPacketManager.Managed := by
  obtain ⟨inputs, hledger, -⟩ := h.history
  exact hledger.managed

theorem Kept.least_le (h : Kept told s) : s.sentPacketManager.getLeastUnacked ≤ s.seq := by
  have hspan := h.managed.tracks.span
  unfold Lib.NumberedQueue.next at hspan
  have hfirst : s.sentPacketManager.unackedPackets.unackedPackets.first =
    s.sentPacketManager.getLeastUnacked := rfl
  have hseq := h.seq
  omega

/-- No ack is left open, and none was counted twice. -/
structure Clear (s : NsQuicSender σ) : Prop where
  packetsAcked : s.sentPacketManager.packetsAcked = []
  largestNewlyAcked : s.sentPacketManager.largestNewlyAcked ≤
    s.sentPacketManager.unackedPackets.largestSentPacket
  credits : s.sentPacketManager.Credits

/-! ### What is sent -/

/-- A datagram the sender may have sent by now. -/
inductive Sendable (s : NsQuicSender σ) : List UInt8 → Prop
  | data (k : Nat) (now : Int) : 1 ≤ k → k < s.seq → Sendable s (NsQuic.sendFakePacket k now)
  | stopWaiting (seq leastUnacked : Nat) : leastUnacked ≤ seq → seq ≤ s.seq →
    leastUnacked ≤ s.sentPacketManager.getLeastUnacked →
    Sendable s (NsQuic.sendStopWaitingFrame seq leastUnacked)

/-- What sending does to the sender. -/
structure Emits (s s' : NsQuicSender σ) (out : List Output) : Prop where
  seq : s.seq ≤ s'.seq
  least : s.sentPacketManager.getLeastUnacked ≤ s'.sentPacketManager.getLeastUnacked
  sendable : ∀ data ∈ NsQuicReceiver.datagrams out, Sendable s' data
  clear : Clear s → Clear s'

theorem Sendable.later {data : List UInt8} (h : Sendable s data) (hseq : s.seq ≤ s'.seq)
    (hleast : s.sentPacketManager.getLeastUnacked ≤ s'.sentPacketManager.getLeastUnacked) :
    Sendable s' data := by
  cases h with
  | data k now hpos hk => exact .data k now hpos (Nat.lt_of_lt_of_le hk hseq)
  | stopWaiting seq leastUnacked hle hq hu =>
    exact .stopWaiting seq leastUnacked hle (Nat.le_trans hq hseq) (Nat.le_trans hu hleast)

theorem Emits.refl (s : NsQuicSender σ) : Emits s s [] :=
  ⟨Nat.le_refl _, Nat.le_refl _, fun _ hdata => absurd hdata List.not_mem_nil, id⟩

theorem Emits.trans {out out' : List Output} (h : Emits s s' out) (h' : Emits s' s'' out') :
    Emits s s'' (out ++ out') where
  seq := Nat.le_trans h.seq h'.seq
  least := Nat.le_trans h.least h'.least
  sendable data hdata := by
    rw [NsQuicReceiver.datagrams_append] at hdata
    rcases List.mem_append.mp hdata with hdata | hdata
    · exact (h.sendable data hdata).later h'.seq h'.least
    · exact h'.sendable data hdata
  clear := h'.clear ∘ h.clear

/-- A packet whose send is proper is sent, with the next number. -/
theorem Kept.exists_sendPacket (h : Kept told s) (frames : List Nat) (o : Nat) (now : Int)
    {transmissionType : TransmissionType} (hlinks : unlinks transmissionType = false)
    (hproper : s.sentPacketManager.Proper
      (.sent ⟨s.seq, payload s.seq, frames⟩ o now transmissionType true)) :
    ∃ s', s.sendPacket c frames o now transmissionType = some s' ∧ Kept told s' ∧
      Emits s s' [.toNetwork (NsQuic.sendFakePacket s.seq now)] ∧
      s'.sentPacketManager.pendingRetransmissions =
        if o ≠ 0 then erasePending o s.sentPacketManager.pendingRetransmissions
        else s.sentPacketManager.pendingRetransmissions := by
  obtain ⟨inputs, hledger, hcarried⟩ := h.history
  obtain ⟨manager, hrun, hsends⟩ := exists_onPacketSent (c := c) hledger.managed hproper
  have hpending : manager.pendingRetransmissions =
      if o ≠ 0 then erasePending o s.sentPacketManager.pendingRetransmissions
      else s.sentPacketManager.pendingRetransmissions := by
    obtain ⟨unackedPackets, -, hrun⟩ := Option.bind_eq_some_iff.mp hrun
    rw [← Option.some.inj hrun]
  refine ⟨{s with
      sentPacketManager := manager, seq := s.seq + 1, carried := s.carried ++ [(s.seq, frames)]},
    by rw [sendPacket, hrun]; rfl, ⟨⟨_, hledger.sends hproper hsends,
    fun n frames' => ?_⟩, ?_, h.running⟩, ⟨Nat.le_succ _, hsends.least, fun data hdata => ?_,
    fun hclear => ⟨?_, ?_, hclear.credits.sends hsends h.seq hlinks⟩⟩, hpending⟩
  · rw [carried_concat_sent, hcarried, List.mem_append, List.mem_singleton, Prod.mk.injEq]
    refine or_congr_right (and_congr eq_comm eq_comm)
  · show s.seq + 1 = manager.unackedPackets.largestSentPacket + 1
    rw [hsends.largestSent]
  · obtain rfl := List.mem_singleton.mp hdata
    have hseq := h.seq
    exact .data s.seq now (by omega) (Nat.lt_succ_self _)
  · exact hsends.packetsAcked.trans hclear.packetsAcked
  · show manager.largestNewlyAcked ≤ manager.unackedPackets.largestSentPacket
    rw [hsends.largestNewlyAcked, hsends.largestSent]
    exact Nat.le_trans hclear.largestNewlyAcked (Nat.le_of_lt hproper.1)

theorem Kept.exists_sendFakePacket (h : Kept told s) (now : Int) :
    ∃ s' out, s.sendFakePacket c now = some (s', out) ∧ Kept told s' ∧ Emits s s' out := by
  have hseq := h.seq
  obtain ⟨s', hrun, hkept, hemits, -⟩ := h.exists_sendPacket (c := c) [s.seq] 0 now
    (show unlinks .notRetransmission = false from rfl)
    ⟨show _ < s.seq by omega, fun _ => rfl, .inl rfl⟩
  exact ⟨s', _, by rw [sendFakePacket, hrun]; rfl, hkept, hemits⟩

/-- What waits first is sent again, and does not wait any more. -/
theorem Kept.exists_onRetransPacket (h : Kept told s)
    (hpending : s.sentPacketManager.hasPendingRetransmissions = true) (now : Int) :
    ∃ pending s' out, s.sentPacketManager.nextPendingRetransmission = some pending ∧
      s.onRetransPacket c pending now = some (s', out) ∧ Kept told s' ∧ Emits s s' out ∧
      s'.sentPacketManager.pendingRetransmissions.length <
        s.sentPacketManager.pendingRetransmissions.length := by
  have hseq := h.seq
  unfold hasPendingRetransmissions at hpending
  cases hlist : s.sentPacketManager.pendingRetransmissions with
  | nil =>
    rw [hlist] at hpending
    cases hpending
  | cons entry rest =>
    have hmem : entry ∈ s.sentPacketManager.pendingRetransmissions :=
      hlist ▸ List.mem_cons_self ..
    obtain ⟨info, hinfo, hframes⟩ := h.managed.pending entry hmem
    have hnext : s.sentPacketManager.nextPendingRetransmission =
        some ⟨entry.1, entry.2, info.retransmittableFrames⟩ := by
      simp [nextPendingRetransmission, hlist, hinfo]
    have hpos : entry.1 ≠ 0 := by
      have hbounds := h.managed.tracks.bounds hinfo
      have hstart := h.managed.tracks.start
      omega
    obtain ⟨s', hrun, hkept, hemits, hleft⟩ := h.exists_sendPacket (c := c)
      info.retransmittableFrames entry.1 now
      (show unlinks .lossRetransmission = false from rfl)
      ⟨show _ < s.seq by omega, fun _ => rfl,
        .inr ⟨List.mem_map_of_mem hmem, by rw [hinfo]; rfl⟩⟩
    refine ⟨_, s', _, hnext, by rw [onRetransPacket, hrun]; rfl, hkept, hemits, ?_⟩
    rw [hleft, if_pos hpos, hlist, erasePending, List.filter_cons_of_neg (by simp)]
    exact Nat.lt_succ_of_le (List.length_filter_le _ _)

/-- The induction is on the rounds; there are more of them than packets that wait. -/
theorem Kept.exists_sendRetransmissions (h : Kept told s) (now : Int) {rounds : Nat}
    (hrounds : s.sentPacketManager.pendingRetransmissions.length < rounds) :
    ∃ s' out, sendRetransmissions c now rounds s = some (s', out) ∧ Kept told s' ∧
      Emits s s' out := by
  induction rounds generalizing s with
  | zero => exact absurd hrounds (Nat.not_lt_zero _)
  | succ rounds ih =>
    unfold sendRetransmissions
    split
    · rename_i hwaits
      obtain ⟨pending, s₁, out, hnext, hrun, hkept, hemits, hlt⟩ :=
        h.exists_onRetransPacket (c := c) hwaits.2 now
      obtain ⟨s', out', hrun', hkept', hemits'⟩ := ih hkept (by omega)
      refine ⟨s', out ++ out', ?_, hkept', hemits.trans hemits'⟩
      simp only [hnext, hrun, hrun', Option.bind_eq_bind, Option.bind_some]
      rfl
    · exact ⟨s, [], rfl, h, .refl s⟩

theorem Kept.recordRate (h : Kept told s) (c : Config Nat σ) (now : Int) :
    Kept told (s.recordRate c now).1 ∧ Emits s (s.recordRate c now).1 (s.recordRate c now).2 := by
  have hnone : ∀ data : List UInt8, data ∉ ([] : List (List UInt8)) := fun _ => List.not_mem_nil
  unfold NsQuicSender.recordRate
  split_ifs
  · exact ⟨⟨h.history, h.seq, h.running⟩, Nat.le_refl _, Nat.le_refl _,
      fun data hdata => absurd hdata (hnone data), fun hclear => ⟨hclear.1, hclear.2, hclear.3⟩⟩
  · exact ⟨⟨h.history, h.seq, h.running⟩, Nat.le_refl _, Nat.le_refl _,
      fun data hdata => absurd hdata (hnone data), fun hclear => ⟨hclear.1, hclear.2, hclear.3⟩⟩
  · exact ⟨h, .refl s⟩

theorem Kept.maybeSendStopWaitingFrame (h : Kept told s) :
    Kept told s.maybeSendStopWaitingFrame.1 ∧
      Emits s s.maybeSendStopWaitingFrame.1 s.maybeSendStopWaitingFrame.2 := by
  unfold NsQuicSender.maybeSendStopWaitingFrame
  split
  · refine ⟨⟨h.history, h.seq, h.running⟩, Nat.le_refl _, Nat.le_refl _, fun data hdata => ?_,
      fun hclear => ⟨hclear.1, hclear.2, hclear.3⟩⟩
    obtain rfl := List.mem_singleton.mp hdata
    exact .stopWaiting _ _ h.least_le (Nat.le_refl _) (Nat.le_refl _)
  · exact ⟨h, .refl s⟩

/-- A heart beat has a result. -/
theorem Kept.exists_heartBeat (h : Kept told s) (now : Int) :
    ∃ s' out, s.heartBeat c now = some (s', out) ∧ Kept told s' ∧ Emits s s' out := by
  obtain ⟨hrate, hrates⟩ := h.recordRate c now
  obtain ⟨s₁, out₁, hagain, hkept₁, hemits₁⟩ := hrate.exists_sendRetransmissions (c := c) now
    (Nat.lt_succ_self _)
  obtain ⟨hstop, hstops⟩ := hkept₁.maybeSendStopWaitingFrame
  have hfake : ∃ s' out, s₁.maybeSendStopWaitingFrame.1.maybeSendFakePacket c now = some (s', out) ∧
      Kept told s' ∧ Emits s₁.maybeSendStopWaitingFrame.1 s' out := by
    unfold maybeSendFakePacket
    split
    · exact hstop.exists_sendFakePacket now
    · exact ⟨_, [], rfl, hstop, .refl _⟩
  obtain ⟨s', out', hfake, hkept', hemits'⟩ := hfake
  refine ⟨s', _, ?_, hkept', hrates.trans (hemits₁.trans (hstops.trans hemits'))⟩
  rw [heartBeat, if_pos h.running]
  simp only [sendRetransmission, hagain, hfake, Option.bind_eq_bind, Option.bind_some]
  rfl

/-! ### What is heard -/

/-- A datagram changes nothing in what was sent. -/
theorem onIncomingData_keeps {now : Int} {data : List UInt8}
    (h : s.onIncomingData c now data = some s') :
    s'.seq = s.seq ∧ s'.carried = s.carried ∧ s'.running = s.running := by
  unfold onIncomingData at h
  split at h
  · obtain ⟨parsed, -, h⟩ := Option.bind_eq_some_iff.mp h
    have hheard := heard_hears h
    exact ⟨hheard.seq, hheard.carried, hheard.running⟩
  · cases h
    exact ⟨rfl, rfl, rfl⟩

/-- The ranges of a frame, and its end if it is announced. -/
theorem perform_ranges {ranges : List Call} (h : Closing ranges)
    (m : QuicSentPacketManager Nat σ) (now : Int) :
    (ranges.flatMap (tells now)).foldlM (perform c) m =
      if endsFrame ranges then (m.onAckRanges (rangesOf ranges)).onAckFrameEnd c now now
      else some (m.onAckRanges (rangesOf ranges)) := by
  induction ranges generalizing m with
  | nil => rfl
  | cons call rest ih =>
    cases call with
    | onAckRange start stop lastRange =>
      cases lastRange with
      | true =>
        obtain rfl := h.1 rfl
        show (m.onAckRange start stop).onAckFrameEnd c now now >>= some =
          (m.onAckRange start stop).onAckFrameEnd c now now
        exact bind_pure _
      | false => exact ih h.2 (m.onAckRange start stop)
    | _ => cases h

/-- **An ack frame is one input of the manager.** -/
theorem map_onIncomingData (hrunning : s.running = true) {data : List UInt8}
    {result : Except FramerError Unit} {largestAcked : Nat} {ackDelayTime : Int}
    {ranges : List Call}
    (hparse : NsQuic.NsQuicSender.parse data =
      some (result, .onAckFrameStart largestAcked ackDelayTime :: ranges))
    (hclosing : Closing ranges) (now : Int) :
    (s.onIncomingData c now data).map sentPacketManager = s.sentPacketManager.onAckFrame c
      ⟨largestAcked, ackDelayTime, now, now, rangesOf ranges, endsFrame ranges⟩ := by
  rw [onIncomingData, if_pos hrunning, hparse]
  refine (map_hears _ ({s with timeOfLastReceivedPacket := now} : NsQuicSender σ)).trans ?_
  exact perform_ranges hclosing
    (s.sentPacketManager.onAckFrameStart c largestAcked ackDelayTime now) now

end NsQuicSender
end CongestionResponse.NsQuic.Application
