import CongestionResponse.DelayBbr.Bookkeeping

/-! The delivery rate is never over-estimated.

A sample divides the bytes acknowledged since a packet's snapshot by the time since
the acknowledgement that the snapshot names. Both ends of that interval are in the
past by the time the sample is taken, so the invariant speaks about the history: every
snapshot goes back to an *anchor*, an event of the run at which the sampler restarted its
clock (`Anchored`), and no byte has been acknowledged between the anchor and the
sending of the packet.

A link that delivers at most `C` bytes per second after every anchor therefore bounds
every sample, and with it everything the max filter holds. -/
namespace CongestionResponse.DelayBbr
open Lib Quic

/-! ### Anchors and acknowledged bytes -/

/-- The size of a packet whose acknowledgement is accepted now and which the sampler tracks. -/
def trackedSize (s : MyBbrSenderV5) (p : Nat) : Option Nat :=
  if p ≤ s.ledger.lastAckSeq then none
  else (s.ledger.sampler.packetInfos.find? p).map PacketState.size

def ackedBytes (s : MyBbrSenderV5) : Event → Nat
  | .sent .. => 0
  | .ack _ p => (trackedSize s p).getD 0

/-- The events that restart the sampler's clock: the acknowledgement of a tracked packet,
and the sending of a packet with nothing in flight. -/
def IsAnchor (s : MyBbrSenderV5) : Event → Prop
  | .sent _ p _ => s.ledger.lastSentPacket < p ∧ s.ledger.bytesInFlight = 0
  | .ack _ p => (trackedSize s p).isSome

instance (s : MyBbrSenderV5) : (e : Event) → Decidable (IsAnchor s e)
  | .sent .. => inferInstanceAs (Decidable (_ ∧ _))
  | .ack .. => inferInstanceAs (Decidable (_ = true))

section Run
variable (s₀ : MyBbrSenderV5)

/-- After every anchor, the tracked packets acknowledged up to a later acknowledgement
amount to at most `C` bytes per second. -/
def DeliversAtMost (C : Nat) (es : List Event) : Prop :=
  ∀ a e b t p c, es = a ++ e :: (b ++ .ack t p :: c) → IsAnchor (run step s₀ a) e →
    e.time < t →
    ((total step ackedBytes (run step s₀ (a ++ [e])) (b ++ [.ack t p]) *
      QuicBandwidth.kNumMicrosPerSecond : Nat) : Int) ≤ C * (t - e.time)

theorem deliversAtMost_init {C : Nat} (es : List Event) (x : Event)
    (h : DeliversAtMost s₀ C (es ++ [x])) : DeliversAtMost s₀ C es := by
  intro a e b t p c hes
  exact h a e b t p (c ++ [x]) (by rw [hes]; simp)

/-- The positions of an anchor and of a later event say where to look, so that the rates of
a run can be evaluated. -/
theorem deliversAtMost_of_positions {C : Nat} {es : List Event}
    (h : ∀ i < es.length, ∀ j < es.length, ∀ e ∈ es[i]?, ∀ x ∈ es[i + 1 + j]?,
      IsAnchor (run step s₀ (es.take i)) e → e.time < x.time →
      ((total step ackedBytes (run step s₀ (es.take (i + 1))) ((es.drop (i + 1)).take (j + 1)) *
        QuicBandwidth.kNumMicrosPerSecond : Nat) : Int) ≤ C * (x.time - e.time)) :
    DeliversAtMost s₀ C es := by
  intro a e b t p c hes hanchor hlt
  have hlength : es.length = a.length + 1 + (b.length + 1 + c.length) := by
    rw [hes]
    simp only [List.length_append, List.length_cons]
    omega
  have hbefore : es.take a.length = a := by
    rw [hes, List.take_left]
  have hupto : es.take (a.length + 1) = a ++ [e] := by
    rw [hes, List.append_cons, List.take_left' (by simp)]
  have hafter : es.drop (a.length + 1) = (b ++ [.ack t p]) ++ c := by
    rw [hes, List.append_cons, List.drop_left' (by simp), List.append_cons b]
  have hbetween : (es.drop (a.length + 1)).take (b.length + 1) = b ++ [.ack t p] := by
    rw [hafter, List.take_left' (by simp)]
  have hfirst : es[a.length]? = some e := by
    simp [hes]
  have hlast : es[a.length + 1 + b.length]? = some (.ack t p) := by
    rw [← List.getElem?_drop, hafter]
    simp
  have hrate := h a.length (by omega) b.length (by omega) e hfirst _ hlast
  rw [hbefore, hupto, hbetween] at hrate
  exact hrate hanchor hlt

/-- Some anchor of the run is at `time` and leaves `acked` bytes acknowledged. -/
def Anchored (es : List Event) (time : Int) (acked : Nat) : Prop :=
  ∃ a e b, es = a ++ e :: b ∧ IsAnchor (run step s₀ a) e ∧ e.time = time ∧
    (run step s₀ (a ++ [e])).ledger.sampler.totalBytesAcked = acked

variable {s₀}

theorem Anchored.extend {es : List Event} {time : Int} {acked : Nat}
    (h : Anchored s₀ es time acked) (x : Event) : Anchored s₀ (es ++ [x]) time acked := by
  obtain ⟨a, e, b, hes, hrest⟩ := h
  exact ⟨a, e, b ++ [x], by rw [hes]; simp, hrest⟩

theorem anchored_here {es : List Event} {x : Event} {s : MyBbrSenderV5}
    (hs : run step s₀ es = s) (h : IsAnchor s x) :
    Anchored s₀ (es ++ [x]) x.time (step s x).ledger.sampler.totalBytesAcked :=
  ⟨es, x, [], rfl, by rw [hs]; exact h, rfl, by rw [run_concat, hs]⟩

end Run

theorem totalBytesAcked_step (s : MyBbrSenderV5) (e : Event) :
    (step s e).ledger.sampler.totalBytesAcked =
      s.ledger.sampler.totalBytesAcked + ackedBytes s e := by
  rw [ledger_step]
  cases e with
  | sent t p bytes =>
    simp only [Ledger.step, Ledger.onPacketSent]
    split
    · rfl
    · exact MySampler.countSent_totalBytesAcked ..
  | ack t p =>
    simp only [Ledger.step, Ledger.onAck, ackedBytes, trackedSize]
    split
    · rfl
    · rw [Ledger.totalBytesAcked_acceptAck t (by omega), Ledger.sampled, OrderedMap.weightOn_eq]

theorem totalBytesAcked_run (s : MyBbrSenderV5) (es : List Event) :
    (run step s es).ledger.sampler.totalBytesAcked =
      s.ledger.sampler.totalBytesAcked + total step ackedBytes s es := by
  induction es generalizing s with
  | nil => rfl
  | cons e rest ih => rw [run_cons, ih, totalBytesAcked_step, total, Nat.add_assoc]

/-! ### Every snapshot goes back to an anchor -/

/-- The invariant of the sampler after the history `es`. Before the first packet there is
no anchor yet, and nothing in flight. -/
structure Traced (s₀ : MyBbrSenderV5) (es : List Event) (l : Ledger) : Prop where
  current : Anchored s₀ es l.sampler.lastAckedPacketAckTime l.sampler.totalBytesAcked ∨
    l.sentPacketsMap.entries = [] ∧ l.bytesInFlight = 0
  snapshots : ∀ e ∈ l.sampler.packetInfos.entries,
    Anchored s₀ es e.2.lastAckedPacketAckTime e.2.totalBytesAckedAtTheLastAckedPacket

section Step
variable {s₀ s : MyBbrSenderV5} {es : List Event}

theorem Traced.extend {l : Ledger} (h : Traced s₀ es l) (x : Event) :
    Traced s₀ (es ++ [x]) l :=
  ⟨h.current.imp_left fun hc => hc.extend x, fun e he => (h.snapshots e he).extend x⟩

/-- A sent packet opens a new interval or continues the one that is open; its snapshot
has the state it leaves. -/
theorem traced_sent (hs : run step s₀ es = s) (h : Traced s₀ es s.ledger) (t : Int)
    (p bytes : Nat) :
    Traced s₀ (es ++ [.sent t p bytes]) (step s (.sent t p bytes)).ledger := by
  show Traced s₀ _ (s.ledger.onPacketSent t p bytes)
  unfold Ledger.onPacketSent
  split
  · exact h.extend _
  rename_i hp
  have hcurrent : Anchored s₀ (es ++ [.sent t p bytes])
      (s.ledger.sampler.countSent t bytes s.ledger.bytesInFlight).lastAckedPacketAckTime
      s.ledger.sampler.totalBytesAcked := by
    by_cases hzero : s.ledger.bytesInFlight = 0
    · have hanchor := anchored_here (x := .sent t p bytes) hs ⟨Nat.lt_of_not_le hp, hzero⟩
      rw [totalBytesAcked_step] at hanchor
      simpa [MySampler.countSent, hzero, ackedBytes, Event.time] using hanchor
    · rcases h.current with hc | ⟨_, hzero'⟩
      · simpa [MySampler.countSent, hzero] using hc.extend (.sent t p bytes)
      · exact absurd hzero' hzero
  constructor
  · left
    simpa [MySampler.onPacketSent] using hcurrent
  · intro e he
    simp only [MySampler.onPacketSent, MySampler.countSent_packetInfos] at he
    rcases OrderedMap.mem_insert.mp he with hold | ⟨rfl, _⟩
    · exact (h.snapshots e hold).extend _
    · simpa [MySampler.snapshot] using hcurrent

/-- An acknowledgement of a tracked packet is an anchor; any other leaves the counters. -/
theorem traced_ack (hs : run step s₀ es = s) (h : Traced s₀ es s.ledger) (t : Int) (p : Nat) :
    Traced s₀ (es ++ [.ack t p]) (step s (.ack t p)).ledger := by
  have hledger := ledger_step s (.ack t p)
  simp only [Ledger.step, Ledger.onAck] at hledger
  by_cases hp : p ≤ s.ledger.lastAckSeq
  · rw [if_pos hp] at hledger
    rw [hledger]
    exact h.extend _
  rw [if_neg hp] at hledger
  have hgap := Ledger.find?_onGap (Nat.lt_of_not_le hp)
  constructor
  · cases hfind : s.ledger.sampler.packetInfos.find? p with
    | none =>
      have hsampler : (s.ledger.acceptAck t p).sampler = (s.ledger.onGap p).sampler := by
        rw [hfind] at hgap
        exact congrArg Prod.snd (MySampler.onPacketAcknowledged_of_none _ t p true hgap)
      rw [hledger, hsampler, Ledger.sampler_onGap]
      rcases h.current with hc | ⟨hempty, hzero⟩
      · exact .inl (hc.extend _)
      · right
        show (OrderedMap.popWhile _ _ _ _).2.entries = [] ∧ (OrderedMap.popWhile _ _ _ _).1 = 0
        rw [OrderedMap.popWhile_le_entries, OrderedMap.popWhile_le_acc]
        show s.ledger.sentPacketsMap.entries.filter _ = [] ∧
          (s.ledger.sentPacketsMap.entries.filter _).foldl _ s.ledger.bytesInFlight = 0
        rw [hempty]
        exact ⟨rfl, hzero⟩
    | some x =>
      have hanchor := anchored_here (x := .ack t p) hs
        (show (trackedSize s p).isSome by simp [trackedSize, hp, hfind])
      have htime : (step s (.ack t p)).ledger.sampler.lastAckedPacketAckTime = t := by
        rw [hledger]
        exact congrArg (fun a => a.2.lastAckedPacketAckTime)
          (MySampler.onPacketAcknowledged_of_some _ t p true (hgap.trans hfind))
      left
      rw [htime]
      exact hanchor
  · intro e he
    rw [hledger] at he
    exact (h.snapshots e (Ledger.mem_acceptAck t p he)).extend _

theorem traced_step (hs : run step s₀ es = s) (h : Traced s₀ es s.ledger) (x : Event) :
    Traced s₀ (es ++ [x]) (step s x).ledger := by
  cases x with
  | sent t p bytes => exact traced_sent hs h t p bytes
  | ack t p => exact traced_ack hs h t p

end Step

/-! ### The samples -/

theorem answer_bandwidth (s : MyBbrSenderV5) (t : Int) (p : Nat) :
    (s.answer t p).2.1 =
      ((s.ledger.onGap p).sampler.onPacketAcknowledged t p (s.answer t p).1).1 := by
  simp only [MyBbrSenderV5.answer, MyBbrSenderV5.sample]
  rw [MyBbrSenderV5.updateRoundTripCounter_eq]
  rfl

/-- Between the anchor of a snapshot and now, the sampler has counted what the history
says was acknowledged. -/
theorem acked_since_anchor {s₀ s : MyBbrSenderV5} {es a b : List Event} {e : Event}
    (hs : run step s₀ es = s) (hes : es = a ++ e :: b) (x : Event) :
    (step s x).ledger.sampler.totalBytesAcked =
      (run step s₀ (a ++ [e])).ledger.sampler.totalBytesAcked +
        total step ackedBytes (run step s₀ (a ++ [e])) (b ++ [x]) := by
  have hrun : step s x = run step (run step s₀ (a ++ [e])) (b ++ [x]) := by
    rw [← hs, ← run_concat step, hes, ← run_append]
    simp
  rw [hrun, totalBytesAcked_run]

/-- **A sample is at most what the link delivers.** -/
theorem answer_le {s₀ s : MyBbrSenderV5} {es : List Event} {C : Nat} {t : Int} {p : Nat}
    (hs : run step s₀ es = s) (h : Traced s₀ es s.ledger)
    (hC : DeliversAtMost s₀ C (es ++ [.ack t p])) (hp : s.ledger.lastAckSeq < p) :
    (s.answer t p).2.1.bitsPerSecond ≤ 8 * C := by
  have hgap := Ledger.find?_onGap hp
  rw [answer_bandwidth]
  cases hfind : s.ledger.sampler.packetInfos.find? p with
  | none =>
    rw [MySampler.onPacketAcknowledged_of_none _ _ _ _ (hgap.trans hfind)]
    exact Nat.zero_le _
  | some x =>
    rw [MySampler.onPacketAcknowledged_of_some _ _ _ _ (hgap.trans hfind)]
    obtain ⟨a, e, b, hes, hanchor, htime, hacked⟩ :=
      h.snapshots (p, x) (OrderedMap.find?_eq_some.mp hfind)
    have hsize : ackedBytes s (.ack t p) = x.size := by
      simp [ackedBytes, trackedSize, hfind, Nat.not_le.mpr hp]
    have hsince := acked_since_anchor hs hes (.ack t p)
    rw [totalBytesAcked_step, hsize, hacked] at hsince
    have hcount : (s.ledger.onGap p).sampler.totalBytesAcked = s.ledger.sampler.totalBytesAcked := by
      rw [Ledger.sampler_onGap]
    apply MySampler.rateSample_le
    · rw [hcount, hsince]
      exact Nat.le_add_right _ _
    · intro hlater
      rw [hcount, hsince, Nat.add_sub_cancel_left, ← htime]
      refine hC a e b t p [] ?_ hanchor ?_
      · rw [hes]
        simp
      · rw [htime]
        exact hlater

/-! ### The filter -/

theorem maxBandwidth_updateBandwidth (s : MyBbrSenderV5) (isRoundUpdate : Bool)
    (bw : QuicBandwidth) (round : Nat) :
    (s.updateBandwidth isRoundUpdate bw round).bandwidth.maxBandwidth =
      if isRoundUpdate then s.bandwidth.maxBandwidth.update maxFilter bw round
      else s.bandwidth.maxBandwidth := by
  have hmax : ∀ b : BandwidthRecord, b.updateMaxBw.maxBandwidth = b.maxBandwidth := by
    intro b
    unfold BandwidthRecord.updateMaxBw
    split <;> rfl
  have hfull : ∀ b : BandwidthRecord,
      b.checkIfFullBandwidthReached.maxBandwidth = b.maxBandwidth := by
    intro b
    simp only [BandwidthRecord.checkIfFullBandwidthReached]
    split <;> rfl
  unfold MyBbrSenderV5.updateBandwidth
  split
  · simp only [BandwidthRecord.update]
    split <;> split <;> simp only [hmax, hfull]
  · rfl

theorem maxBandwidth_manageModes (s : MyBbrSenderV5) (t : Int) (p round : Nat)
    (isRoundUpdate : Bool) (bw : QuicBandwidth) :
    (s.manageModes t p round isRoundUpdate bw).bandwidth.maxBandwidth =
      if isRoundUpdate then s.bandwidth.maxBandwidth.update maxFilter bw round
      else s.bandwidth.maxBandwidth := by
  rw [MyBbrSenderV5.manageModes, MyBbrSenderV5.cycleGain_eq,
    MyBbrSenderV5.maybeExitStartupOrDrain_eq]
  simp only [maxBandwidth_updateBandwidth]
  rw [MyBbrSenderV5.maybeEnterOrExitDecrease_eq, MyBbrSenderV5.congestionReason_eq]

/-- All that enters the filter is the sample. -/
theorem mem_estimates_manage {s : MyBbrSenderV5} {t : Int} {p round : Nat} {isRoundUpdate : Bool}
    {bw : QuicBandwidth} {x : Sample QuicBandwidth}
    (h : x ∈ (s.manage t p round isRoundUpdate bw).bandwidth.maxBandwidth.estimates) :
    x ∈ s.bandwidth.maxBandwidth.estimates ∨ x.sample = bw := by
  unfold MyBbrSenderV5.manage at h
  split at h
  · exact .inl h
  simp only [MyBbrSenderV5.calculatePacingRate, maxBandwidth_manageModes] at h
  split at h
  · rcases WindowedFilter.mem_estimates_update _ _ _ _ _ h with h | rfl
    · exact .inl h
    · exact .inr rfl
  · exact .inl h

theorem bandwidth_answer (s : MyBbrSenderV5) (t : Int) (p : Nat) :
    (s.answer t p).2.2.bandwidth = s.bandwidth := by
  simp only [MyBbrSenderV5.answer, MyBbrSenderV5.sample]
  rw [MyBbrSenderV5.updateRoundTripCounter_eq]
  rfl

/-! ### Whole runs -/

/-- The invariant of a run over a link that delivers at most `C` bytes per second. -/
structure Bounded (s₀ : MyBbrSenderV5) (C : Nat) (es : List Event) (s : MyBbrSenderV5) : Prop where
  traced : Traced s₀ es s.ledger
  estimates : ∀ x ∈ s.bandwidth.maxBandwidth.estimates, x.sample.bitsPerSecond ≤ 8 * C

theorem bounded_step {s₀ s : MyBbrSenderV5} {C : Nat} {es : List Event} {x : Event}
    (hs : run step s₀ es = s) (h : Bounded s₀ C es s) (hC : DeliversAtMost s₀ C (es ++ [x])) :
    Bounded s₀ C (es ++ [x]) (step s x) := by
  refine ⟨traced_step hs h.traced x, ?_⟩
  intro y hy
  cases x with
  | sent t p bytes => exact h.estimates y hy
  | ack t p =>
    simp only [step, MyBbrSenderV5.onAck] at hy
    split at hy
    · exact h.estimates y hy
    · rename_i hp
      rcases mem_estimates_manage hy with hold | hnew
      · rw [bandwidth_answer] at hold
        exact h.estimates y hold
      · rw [hnew]
        exact answer_le hs h.traced hC (Nat.lt_of_not_le hp)

theorem bounded_run (minBps : Nat) (random : MyQuicRandom) (C : Nat) (es : List Event)
    (hC : DeliversAtMost (.new minBps random) C es) :
    Bounded (.new minBps random) C es (run step (.new minBps random) es) := by
  refine run_history (A := DeliversAtMost (.new minBps random) C)
    (P := Bounded (.new minBps random) C) (deliversAtMost_init _)
    ⟨⟨.inr ⟨rfl, rfl⟩, ?_⟩, ?_⟩ ?_ es hC
  · intro e he
    cases he
  · intro x hx
    simp only [MyBbrSenderV5.new, WindowedFilter.estimates, WindowedFilter.new, List.mem_cons,
      List.not_mem_nil, or_false, or_self] at hx
    rw [hx]
    exact Nat.zero_le _
  · intro es e hes ih
    exact bounded_step rfl ih hes

/-- **The delivery rate is never over-estimated.** On a link that delivers at most `C`
bytes per second after every anchor, every sample the sampler returns, and with it the
bandwidth estimate in every state, is at most `8 * C` bits per second. -/
theorem delivery_rate_never_overestimated (minBps : Nat) (random : MyQuicRandom) (C : Nat)
    (es : List Event) (hC : DeliversAtMost (.new minBps random) C es) :
    (∀ a t p c, es = a ++ .ack t p :: c →
      (run step (.new minBps random) a).ledger.lastAckSeq < p →
      ((run step (.new minBps random) a).answer t p).2.1.bitsPerSecond ≤ 8 * C) ∧
    (run step (.new minBps random) es).bandwidthEstimate.bitsPerSecond ≤ 8 * C := by
  constructor
  · intro a t p c hes hp
    have hprefix : DeliversAtMost (.new minBps random) C (a ++ [.ack t p]) := by
      intro a' e b t' p' c' ha
      exact hC a' e b t' p' (c' ++ c) (by rw [hes, List.append_cons, ha]; simp)
    exact answer_le rfl
      (bounded_run minBps random C a (deliversAtMost_init _ _ _ hprefix)).traced hprefix hp
  · exact (bounded_run minBps random C es hC).estimates _ (by simp [WindowedFilter.estimates])

/-- Three packets of which the second is lost, and one that is sent when nothing is in
flight any more, on a link of a thousand bytes per second: the sample of the last packet,
and the estimate, meet the bound. -/
theorem delivery_rate_met_after_loss_and_restart :
    let past : List Event := [.sent 1 1 1000, .sent 100001 2 1000, .sent 200001 3 1000,
      .ack 1000001 1, .ack 2000001 3, .sent 5000001 4 1000]
    let es : List Event := past ++ [.ack 6000001 4]
    DeliversAtMost (.new 0 ⟨fun _ => 0, 0⟩) 1000 es ∧
    ((run step (.new 0 ⟨fun _ => 0, 0⟩) past).answer 6000001 4).2.1.bitsPerSecond = 8000 ∧
    ((run step (.new 0 ⟨fun _ => 0, 0⟩) past).answer 6000001 4).2.1.bitsPerSecond ≤ 8 * 1000 ∧
    (run step (.new 0 ⟨fun _ => 0, 0⟩) es).bandwidthEstimate.bitsPerSecond = 8000 ∧
    (run step (.new 0 ⟨fun _ => 0, 0⟩) es).bandwidthEstimate.bitsPerSecond ≤ 8 * 1000 := by
  intro past es
  have hC : DeliversAtMost (.new 0 ⟨fun _ => 0, 0⟩) 1000 es :=
    deliversAtMost_of_positions _ (by decide +kernel)
  obtain ⟨hsamples, hestimate⟩ := delivery_rate_never_overestimated 0 ⟨fun _ => 0, 0⟩ 1000 es hC
  have haccepted : (run step (.new 0 ⟨fun _ => 0, 0⟩) past).ledger.lastAckSeq < 4 := by
    decide +kernel
  exact ⟨hC, by decide +kernel, hsamples past 6000001 4 [] rfl haccepted, by decide +kernel,
    hestimate⟩

end CongestionResponse.DelayBbr
