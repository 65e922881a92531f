import CongestionResponse.NsQuic.Acknowledged
import CongestionResponse.NsQuic.NamedPackets

/-! Sender and receiver, with a network between them that loses, delays, reorders and duplicates.

Every datagram that was ever sent may arrive at any time, any number of times, or never. Whatever
the network does, the congestion controller is only told of packets as acked that have arrived, and
every stream frame has arrived, is in flight or waits to be sent again (`credited_arrived`,
`delivered_or_held`). An ack may name packets that have not arrived: when stop-waiting frames have
removed `largest_acked`, its ranges are displaced. But then they lie below the least unacked packet,
where the sender does not listen.

The packet manager fails on an ack that is cut off in the middle of a gap. As long as every ack has
room for all of its blocks, no run fails (`exists_world`), and what has arrived is let go with the
next ack that arrives (`released`). -/
namespace CongestionResponse.NsQuic
open Lib Quic Framer SentPackets

/-! ### What the receiver records -/

namespace NsQuicReceiver

/-- What the receiver has recorded of what has arrived. -/
structure Records (es : List Event) (r : NsQuicReceiver) : Prop where
  arrived : ∀ k ∈ r.recvPacketManager.ackFrame.packets, k ∈ arrived es
  awaited : ∀ k ∈ NsQuicReceiver.arrived es, awaitedFrom es ≤ k →
    k ∈ r.recvPacketManager.ackFrame.packets
  largest : NsQuicReceiver.arrived es ≠ [] →
    largest (NsQuicReceiver.arrived es) ∈ r.recvPacketManager.ackFrame.packets ∨
      largest (NsQuicReceiver.arrived es) < awaitedFrom es

theorem records_run (es : List Event) : Records es (run step new es) := by
  refine run_history (A := fun _ => True) (P := Records) (fun _ _ _ => trivial)
    ⟨fun k hk => absurd hk (PacketNumberQueue.not_mem_empty k), fun k hk => absurd hk
      List.not_mem_nil, fun hne => absurd rfl hne⟩ (fun es e _ h => ?_) es trivial
  have hinformed := informed_run es
  have hinformed' := informed_run (es ++ [e])
  rw [run_concat] at hinformed'
  obtain ⟨-, hfollows⟩ := step_follows hinformed.running e
  have hmem := hfollows.mem
  rw [hinformed.least] at hmem
  have hleast := awaitedFrom_concat es e
  -- What is not below the new bound is not dropped.
  have hkept : ∀ k, awaitedFrom (es ++ [e]) ≤ k →
      ∀ u, e.leastUnacked = some u → awaitedFrom es < u → u ≤ k := by
    intro k hk u hu _
    rw [hleast, hu] at hk
    exact Nat.le_trans (Nat.le_max_right _ _) hk
  refine ⟨fun k hk => ?_, fun k hk hle => ?_, fun hne => ?_⟩
  · rw [mem_arrived_concat]
    exact ((hmem k).mp hk).1.imp_left (h.arrived k)
  · refine (hmem k).mpr ⟨?_, hkept k hle⟩
    rcases mem_arrived_concat.mp hk with hk | hk
    · refine .inl (h.awaited k hk (Nat.le_trans ?_ hle))
      rw [hleast]
      exact Nat.le_max_left _ _
    · exact .inr hk
  · rcases Nat.lt_or_ge (NsQuicReceiver.largest (NsQuicReceiver.arrived (es ++ [e])))
      (awaitedFrom (es ++ [e])) with hlt | hge
    · exact .inr hlt
    · refine .inl ((hmem _).mpr ⟨?_, hkept _ hge⟩)
      have hlargest : NsQuicReceiver.largest (NsQuicReceiver.arrived (es ++ [e])) =
          max (NsQuicReceiver.largest (NsQuicReceiver.arrived es)) (e.dataNumber.getD 0) :=
        largest_filterMap_concat Event.dataNumber es e
      have hbefore : NsQuicReceiver.arrived es ≠ [] →
          NsQuicReceiver.largest (NsQuicReceiver.arrived (es ++ [e])) =
            NsQuicReceiver.largest (NsQuicReceiver.arrived es) →
          NsQuicReceiver.largest (NsQuicReceiver.arrived (es ++ [e])) ∈
            (run step new es).recvPacketManager.ackFrame.packets := by
        intro hsome hsame
        refine hsame ▸ (h.largest hsome).resolve_right (Nat.not_lt.mpr ?_)
        rw [hsame, hleast] at hge
        exact Nat.le_trans (Nat.le_max_left _ _) hge
      cases hdata : e.dataNumber with
      | none =>
        refine .inl (hbefore ?_ ?_)
        · intro hnil
          refine hne ?_
          unfold NsQuicReceiver.arrived at hnil ⊢
          rw [List.filterMap_append, hnil]
          simp [hdata]
        · rw [hlargest, hdata]
          exact Nat.max_eq_left (Nat.zero_le _)
      | some k =>
        rw [hdata] at hlargest
        by_cases hlt : k < NsQuicReceiver.largest (NsQuicReceiver.arrived es)
        · refine .inl (hbefore ?_ (hlargest.trans (Nat.max_eq_left (Nat.le_of_lt hlt))))
          rintro hnil
          rw [hnil] at hlt
          exact absurd hlt (Nat.not_lt_zero k)
        · right
          rw [hlargest]
          exact congrArg some (Nat.max_eq_right (Nat.not_lt.mp hlt)).symm

/-- An event makes the receiver send no ack, or one of what it has recorded by then. -/
theorem Consistent.acks_frame {r : NsQuicReceiver} (h : Consistent r) {e : Event}
    (he : e.FromSender) : r.acks e = [] ∨
      r.acks e = [ackDatagram r.seq (r.step e).recvPacketManager.ackFrame] ∧
        (r.step e).recvPacketManager.ackFrame.largestAcked ≠ 0 := by
  cases e with
  | incoming ms data =>
    cases hdata : readDatagram data with
    | stream seq sentTs =>
      obtain ⟨r', hr, hstep, hacks⟩ := react_stream ms h.running hdata
      obtain ⟨-, hlargest, -⟩ := hr.consistent h (he.positive hdata) (seq_lt_of_readDatagram hdata)
      rw [hacks, hstep, ← hr.seq]
      unfold NsQuicReceiver.maybeSendAck
      split_ifs
      · exact .inr ⟨rfl, hlargest⟩
      all_goals exact .inl rfl
    | stopWaiting seq leastUnack =>
      rw [acks, react_stopWaiting h.running hdata]
      exact .inl rfl
    | other =>
      rw [acks, react_other hdata]
      exact .inl rfl
  | heartBeat ms =>
    rw [acks, NsQuicReceiver.step, react_heartBeat h.running]
    by_cases hfires : r.Fires ms
    · rw [if_pos hfires]
      exact .inr ⟨rfl, h.alarm hfires.1⟩
    · rw [if_neg hfires]
      exact .inl rfl

end NsQuicReceiver

/-! ### The network -/

namespace Network
open NsQuicReceiver (arrived awaitedFrom ackDatagram)
open QuicSentPacketManager (idleConfig ackedNumbers)
variable {σ : Type}

/-- Both ends, the datagrams each has sent so far, and what the receiver has seen. -/
structure World (σ : Type) where
  sender : Application.NsQuicSender σ
  receiver : NsQuicReceiver
  toReceiver : List (List UInt8)
  /-- Each ack with what the receiver had seen by then. -/
  toSender : List (List UInt8 × List NsQuicReceiver.Event)
  seen : List NsQuicReceiver.Event

inductive Event where
  | senderBeat (ms : Nat)
  | receiverBeat (ms : Nat)
  /-- The datagram that the sender has sent after `i` others arrives. -/
  | atReceiver (ms i : Nat)
  | atSender (ms i : Nat)

def World.new (a : GeneralLossAlgorithm) (sendAlgorithm : σ) (now : Int) : World σ :=
  ⟨.new a sendAlgorithm now, .new, [], [], []⟩

def World.receive (w : World σ) (e : NsQuicReceiver.Event) : World σ :=
  {w with
    receiver := w.receiver.step e
    toSender := w.toSender ++ (w.receiver.acks e).map fun ack => (ack, w.seen ++ [e])
    seen := w.seen ++ [e]}

def World.send (w : World σ) (sender : Application.NsQuicSender σ) (out : List Output) : World σ :=
  {w with
    sender := sender
    toReceiver := w.toReceiver ++ NsQuicReceiver.datagrams out}

def World.arrive (w : World σ) (ms : Nat) : Option (List UInt8) → World σ
  | some data => w.receive (.incoming ms data)
  | none => w

def World.hear (c : Config Nat σ) (w : World σ) (ms : Nat) :
    Option (List UInt8 × List NsQuicReceiver.Event) → Option (World σ)
  | some (data, _) =>
    (w.sender.onIncomingData c (clockNow ms) data).map fun sender => {w with sender := sender}
  | none => some w

def World.step (c : Config Nat σ) (w : World σ) : Event → Option (World σ)
  | .senderBeat ms => (w.sender.heartBeat c (clockNow ms)).map fun beat => w.send beat.1 beat.2
  | .receiverBeat ms => some (w.receive (.heartBeat ms))
  | .atReceiver ms i => some (w.arrive ms w.toReceiver[i]?)
  | .atSender ms i => w.hear c ms w.toSender[i]?

/-! ### What the receiver has seen -/

section Seen
variable {s : Application.NsQuicSender σ} {seen : List NsQuicReceiver.Event}

/-- How the receiver reads a datagram of the sender. -/
theorem readDatagram_of_sendable {data : List UInt8} (h : s.Sendable data)
    (hsmall : s.seq < 2 ^ 48) :
    (∃ k sentTs, readDatagram data = .stream k sentTs ∧ 1 ≤ k ∧ k < s.seq) ∨
    ∃ seq u, readDatagram data = .stopWaiting seq u ∧
      u ≤ s.sentPacketManager.getLeastUnacked := by
  cases h with
  | data k now hpos hk =>
    exact .inl ⟨k, _, readDatagram_sendFakePacket (Nat.lt_trans hk hsmall) now, hpos, hk⟩
  | stopWaiting seq u hle hseq hu =>
    exact .inr ⟨seq, u, readDatagram_sendStopWaitingFrame (Nat.lt_of_le_of_lt hseq hsmall) hle, hu⟩

/-- What the receiver has seen, if it was all sent by the sender. -/
structure FromSender (s : Application.NsQuicSender σ) (seen : List NsQuicReceiver.Event) :
    Prop where
  fromSender : ∀ e ∈ seen, e.FromSender
  numbers : ∀ k ∈ arrived seen, 1 ≤ k ∧ k < s.seq
  awaited : awaitedFrom seen ≤ s.sentPacketManager.getLeastUnacked

theorem fromSender_of_sendable (hseen : ∀ ms data, .incoming ms data ∈ seen → s.Sendable data)
    (hsmall : s.seq < 2 ^ 48) : FromSender s seen := by
  have hread : ∀ e ∈ seen, e.datagram = .other ∨
      (∃ k sentTs, e.datagram = .stream k sentTs ∧ 1 ≤ k ∧ k < s.seq) ∨
      ∃ seq u, e.datagram = .stopWaiting seq u ∧ u ≤ s.sentPacketManager.getLeastUnacked := by
    intro e he
    cases e with
    | incoming ms data => exact .inr (readDatagram_of_sendable (hseen ms data he) hsmall)
    | heartBeat ms => exact .inl rfl
  refine ⟨fun e he => ?_, fun k hk => ?_, ?_⟩
  · cases e with
    | heartBeat ms => trivial
    | incoming ms data =>
      show NsQuicReceiver.FromSender (readDatagram data)
      rcases hread _ he with hother | ⟨k, sentTs, hdata, hpos, -⟩ | ⟨seq, u, hdata, -⟩
      · rw [show readDatagram data = .other from hother]
        trivial
      · rw [show readDatagram data = .stream k sentTs from hdata]
        exact hpos
      · rw [show readDatagram data = .stopWaiting seq u from hdata]
        trivial
  · obtain ⟨e, he, hnumber⟩ := List.mem_filterMap.mp hk
    unfold NsQuicReceiver.Event.dataNumber at hnumber
    rcases hread e he with hother | ⟨k', sentTs, hdata, hpos, hlt⟩ | ⟨seq, u, hdata, -⟩
    · rw [hother] at hnumber
      cases hnumber
    · rw [hdata] at hnumber
      obtain rfl := Option.some.inj hnumber
      exact ⟨hpos, hlt⟩
    · rw [hdata] at hnumber
      cases hnumber
  · refine Nat.not_lt.mp fun hlt => ?_
    obtain ⟨u, hu, hgt⟩ := NsQuicReceiver.lt_largest_iff.mp hlt
    obtain ⟨e, he, hleast⟩ := List.mem_filterMap.mp hu
    unfold NsQuicReceiver.Event.leastUnacked at hleast
    rcases hread e he with hother | ⟨k, sentTs, hdata, -⟩ | ⟨seq, u', hdata, hle⟩
    · rw [hother] at hleast
      cases hleast
    · rw [hdata] at hleast
      cases hleast
    · rw [hdata] at hleast
      obtain rfl := Option.some.inj hleast
      exact absurd hgt (Nat.not_lt.mpr hle)

/-- What the receiver acknowledges after what it has seen. -/
def received (seen : List NsQuicReceiver.Event) : QuicAckFrame :=
  (run NsQuicReceiver.step .new seen).recvPacketManager.ackFrame

/-- What an ack says of what the receiver had seen: the packets that have arrived, apart from those
the sender has not waited for. -/
structure Honest (s : Application.NsQuicSender σ) (seen : List NsQuicReceiver.Event) : Prop where
  numbered : Numbered (received seen)
  sent : (received seen).largestAcked < s.seq
  recorded : ∀ k ∈ (received seen).packets, k ∈ arrived seen
  complete : ∀ k ∈ arrived seen, s.sentPacketManager.getLeastUnacked ≤ k →
    (received seen).largestAcked ∈ (received seen).packets ∧ k ∈ (received seen).packets
  largest : (received seen).largestAcked ∈ (received seen).packets ∨
    (received seen).largestAcked < s.sentPacketManager.getLeastUnacked

theorem honest_of_seen (hseen : ∀ ms data, .incoming ms data ∈ seen → s.Sendable data)
    (hsmall : s.seq < 2 ^ 48) (hnonzero : (received seen).largestAcked ≠ 0) : Honest s seen := by
  obtain ⟨hfrom, harrived, hawaited⟩ := fromSender_of_sendable hseen hsmall
  have hrecords := NsQuicReceiver.records_run seen
  have hlargest : (received seen).largestAcked = NsQuicReceiver.largest (arrived seen) :=
    (NsQuicReceiver.informed_run seen).largestAcked
  have hne : arrived seen ≠ [] := by
    intro hnil
    rw [hlargest, hnil] at hnonzero
    exact hnonzero rfl
  have hmem := hrecords.largest hne
  rw [← hlargest] at hmem
  refine ⟨(NsQuicReceiver.consistent_run hfrom).numbered, ?_, hrecords.arrived, fun k hk hle => ?_,
    hmem.imp_right fun hlt => Nat.lt_of_lt_of_le hlt hawaited⟩
  · rw [hlargest]
    obtain ⟨k, hk⟩ := List.exists_mem_of_ne_nil _ hne
    have hpos : 0 < s.seq := by
      have := harrived k hk
      omega
    exact (NsQuicReceiver.largest_lt_iff hpos).mpr fun k hk => (harrived k hk).2
  · refine ⟨hmem.resolve_right fun hlt => ?_, hrecords.awaited k hk (Nat.le_trans hawaited hle)⟩
    have hpos := (harrived k hk).1
    have hbound := NsQuicReceiver.lt_largest_iff.mpr ⟨k, hk, Nat.sub_one_lt (by omega)⟩
    omega

/-- What an ack names and the sender listens to has arrived. -/
theorem Honest.named (h : Honest s seen) {calls : List Call} {seq : Nat}
    (hnames : Names seq (received seen) calls) {n : Nat}
    (hn : InRanges (Application.rangesOf calls) n)
    (hleast : s.sentPacketManager.getLeastUnacked ≤ n) : n ∈ arrived seen := by
  rcases h.largest with hmem | hlt
  · exact h.recorded n (hnames.sound hmem n hn)
  · -- The ranges are displaced, but they end with `largest_acked`.
    obtain ⟨r, hr, -, hn⟩ := hn
    have hwithin := hnames.within r hr
    omega

/-- An ack that names a packet which has not arrived: the fifth packet is awaited, the fourth is
`largest_acked`, and the first and the third have arrived again. -/
example :
    let seen : List NsQuicReceiver.Event := [.incoming 1 (sendFakePacket 1 0),
      .incoming 2 (sendFakePacket 3 0), .incoming 3 (sendFakePacket 4 0),
      .incoming 4 (sendStopWaitingFrame 6 5), .incoming 5 (sendFakePacket 1 0),
      .incoming 6 (sendFakePacket 3 0)]
    ((NsQuicSender.parse (ackDatagram 1 (received seen))).map fun parsed =>
      Application.rangesOf parsed.2) = some [(4, 5), (2, 3)] ∧ 2 ∉ arrived seen := by
  decide +kernel

end Seen

/-! ### What is under way -/

/-- Whatever is under way was sent by the sender or by the receiver; the number of an ack and what
the receiver had seen when it sent it satisfy `P`. -/
structure Connected (P : Nat → List NsQuicReceiver.Event → Prop) (w : World σ) : Prop where
  kept : w.sender.Kept (· ∈ arrived w.seen)
  sendable : ∀ data ∈ w.toReceiver, w.sender.Sendable data
  receiver : w.receiver = run NsQuicReceiver.step .new w.seen
  seen : ∀ ms data, .incoming ms data ∈ w.seen → w.sender.Sendable data
  acks : ∀ ack ∈ w.toSender, ack.2 <+: w.seen ∧ (received ack.2).largestAcked ≠ 0 ∧
    ∃ seq, P seq ack.2 ∧ ack.1 = ackDatagram seq (received ack.2)

/-- An ack has room for all of its blocks. -/
def HasRoom (seq : Nat) (seen : List NsQuicReceiver.Event) : Prop := Whole seq (received seen)

section Step
variable {c : Config Nat σ} {w w' : World σ} {P : Nat → List NsQuicReceiver.Event → Prop}
  {s s' : Application.NsQuicSender σ} {seen : List NsQuicReceiver.Event}
  {ack : List UInt8 × List NsQuicReceiver.Event}

theorem Connected.honest (h : Connected P w) (hsmall : w.sender.seq < 2 ^ 48)
    (hack : ack ∈ w.toSender) : Honest w.sender ack.2 := by
  obtain ⟨hpast, hnonzero, -⟩ := h.acks ack hack
  exact honest_of_seen (fun ms data hmem => h.seen ms data (hpast.subset hmem)) hsmall hnonzero

theorem arrived_subset {seen seen' : List NsQuicReceiver.Event} (h : seen <+: seen') :
    ∀ k ∈ arrived seen, k ∈ arrived seen' :=
  fun _ hk => (h.filterMap _).subset hk

theorem kept_mono {told told' : Nat → Prop} (h : s.Kept told) (himp : ∀ n, told n → told' n) :
    s.Kept told' := by
  obtain ⟨inputs, hledger, hcarried⟩ := h.history
  exact ⟨⟨inputs, hledger.mono himp, hcarried⟩, h.seq, h.running⟩

/-- The receiver gets a datagram of the sender, or its heart beats. -/
theorem Connected.receive (h : Connected P w) (hsmall : w.sender.seq < 2 ^ 48)
    {e : NsQuicReceiver.Event} (he : ∀ ms data, e = .incoming ms data → w.sender.Sendable data)
    (hP : w.receiver.acks e ≠ [] → P w.receiver.seq (w.seen ++ [e])) :
    Connected P (w.receive e) := by
  have hseen : ∀ ms data, .incoming ms data ∈ w.seen ++ [e] → w.sender.Sendable data := by
    intro ms data hmem
    rcases List.mem_append.mp hmem with hmem | hmem
    · exact h.seen ms data hmem
    · exact he ms data (List.mem_singleton.mp hmem).symm
  have hfrom := (fromSender_of_sendable hseen hsmall).fromSender
  have hstep : w.receiver.step e = run NsQuicReceiver.step .new (w.seen ++ [e]) := by
    rw [run_concat, ← h.receiver]
  have hlater : w.seen <+: w.seen ++ [e] := List.prefix_append _ _
  refine ⟨kept_mono h.kept (arrived_subset hlater), h.sendable, hstep, hseen, fun ack hack => ?_⟩
  rcases List.mem_append.mp hack with hack | hack
  · obtain ⟨hpast, hack⟩ := h.acks ack hack
    exact ⟨hpast.trans hlater, hack⟩
  · obtain ⟨data, hdata, rfl⟩ := List.mem_map.mp hack
    have hconsistent : w.receiver.Consistent := by
      rw [h.receiver]
      exact NsQuicReceiver.consistent_run fun e' he' => hfrom e' (List.mem_append_left _ he')
    rcases hconsistent.acks_frame (hfrom e (List.mem_append_right _ (List.mem_singleton_self e)))
      with hnone | ⟨hacks, hnonzero⟩
    · rw [hnone] at hdata
      cases hdata
    · have hP := hP (List.ne_nil_of_mem hdata)
      rw [hacks, List.mem_singleton] at hdata
      rw [hstep] at hdata hnonzero
      exact ⟨List.prefix_refl _, hnonzero, _, hP, hdata⟩

/-- What is sent at a heart beat is under way from then on. -/
theorem Connected.send (h : Connected P w) (hkept : s.Kept (· ∈ arrived w.seen))
    {out : List Output} (hemits : w.sender.Emits s out) : Connected P (w.send s out) := by
  refine ⟨hkept, fun data hdata => ?_, h.receiver, fun ms data hmem => ?_, h.acks⟩
  · rcases List.mem_append.mp hdata with hdata | hdata
    · exact (h.sendable data hdata).later hemits.seq hemits.least
    · exact hemits.sendable data hdata
  · exact (h.seen ms data hmem).later hemits.seq hemits.least

/-- The sender gets an ack of the receiver. -/
theorem Connected.hear (h : Connected P w) (hsmall : w.sender.seq < 2 ^ 48)
    (hack : ack ∈ w.toSender) {now : Int}
    (hrun : w.sender.onIncomingData c now ack.1 = some s') : Connected P {w with sender := s'} := by
  have hhonest := h.honest hsmall hack
  obtain ⟨hpast, hnonzero, seq, -, hdata⟩ := h.acks ack hack
  obtain ⟨result, calls, hparse, hnames⟩ := hhonest.numbered.names hnonzero seq
  rw [← hdata] at hparse
  have hmap := Application.NsQuicSender.map_onIncomingData (c := c) h.kept.running hparse
    hnames.closing now
  rw [hrun, Option.map_some] at hmap
  obtain ⟨inputs, hledger, hcarried⟩ := h.kept.history
  obtain ⟨hledger', hrecedes⟩ := hledger.acked (c := c) hnames.ranges
    (fun n hn hleast => arrived_subset hpast n (hhonest.named hnames hn hleast)) hmap.symm
  obtain ⟨hsame, hsame', hrunning⟩ := Application.NsQuicSender.onIncomingData_keeps hrun
  have hseq : w.sender.seq ≤ s'.seq := Nat.le_of_eq hsame.symm
  refine ⟨⟨⟨_, hledger', fun n frames => ?_⟩, ?_, hrunning.trans h.kept.running⟩,
    fun data hdata => (h.sendable data hdata).later hseq hrecedes.least, h.receiver,
    fun ms data hmem => (h.seen ms data hmem).later hseq hrecedes.least, h.acks⟩
  · rw [QuicSentPacketManager.carried_concat (fun _ _ _ _ _ heq => by cases heq), hcarried,
      hsame']
  · rw [hsame, hrecedes.largestSent]
    exact h.kept.seq

theorem Connected.step (h : Connected P w) (hsmall : w.sender.seq < 2 ^ 48) {e : Event}
    (hP : w.toSender.length < w'.toSender.length →
      w'.receiver = run NsQuicReceiver.step .new w'.seen → P w.receiver.seq w'.seen)
    (hrun : w.step c e = some w') : Connected P w' := by
  -- What was seen last is seen when the ack is sent.
  have hreceive : ∀ e, w.receive e = w' → w.receiver.acks e ≠ [] →
      P w.receiver.seq (w.seen ++ [e]) := by
    rintro e rfl hacks
    refine hP ?_ ?_
    · have hpos := List.length_pos_iff.mpr hacks
      simp only [World.receive, List.length_append, List.length_map]
      omega
    show w.receiver.step e = run _ _ (w.seen ++ [e])
    rw [run_concat, ← h.receiver]
  cases e with
  | senderBeat ms =>
    obtain ⟨s', out, hbeat, hkept, hemits⟩ := h.kept.exists_heartBeat (c := c) (clockNow ms)
    rw [World.step, hbeat] at hrun
    cases hrun
    exact h.send hkept hemits
  | receiverBeat ms =>
    have hseen := hreceive _ (Option.some.inj hrun)
    cases hrun
    exact h.receive hsmall (fun _ _ heq => by cases heq) hseen
  | atReceiver ms i =>
    rw [World.step] at hrun
    cases hdata : w.toReceiver[i]? with
    | none =>
      rw [hdata] at hrun
      cases hrun
      exact h
    | some data =>
      rw [hdata] at hrun
      have hseen := hreceive _ (Option.some.inj hrun)
      cases hrun
      refine h.receive hsmall (fun ms' data' heq => ?_) hseen
      cases heq
      exact h.sendable data (List.mem_of_getElem? hdata)
  | atSender ms i =>
    rw [World.step] at hrun
    cases hack : w.toSender[i]? with
    | none =>
      rw [hack] at hrun
      cases hrun
      exact h
    | some ack =>
      rw [hack] at hrun
      obtain ⟨s', hheard, rfl⟩ := Option.map_eq_some_iff.mp hrun
      exact h.hear hsmall (List.mem_of_getElem? hack) hheard

/-! ### Acks with room for their blocks -/

/-- Every packet below `q` that the sender still holds had arrived, or it was given up and its data
sent again. -/
def Delivered (s : Application.NsQuicSender σ) (seen : List NsQuicReceiver.Event) (q : Nat) : Prop :=
  ∀ k < q, s.sentPacketManager.getLeastUnacked ≤ k →
    k ∈ arrived seen ∨ s.sentPacketManager.givenUp q k = true

instance (s : Application.NsQuicSender σ) (seen : List NsQuicReceiver.Event) (q : Nat) :
    Decidable (Delivered s seen q) :=
  inferInstanceAs (Decidable (∀ k < q, _ → _ ∨ _))

/-- What an ack does at the sender: the packets that had arrived are let go. -/
structure Releases (s s' : Application.NsQuicSender σ) (seen : List NsQuicReceiver.Event) :
    Prop where
  clear : s'.Clear
  least : ∀ q ≤ s.seq, Delivered s seen q → q ≤ s'.sentPacketManager.getLeastUnacked

/-- An ack that has room for its blocks can be handled. -/
theorem Connected.exists_hear (h : Connected HasRoom w) (hsmall : w.sender.seq < 2 ^ 48)
    (hclear : w.sender.Clear) (hack : ack ∈ w.toSender) (now : Int) :
    ∃ s', w.sender.onIncomingData c now ack.1 = some s' ∧ Releases w.sender s' ack.2 := by
  have hhonest := h.honest hsmall hack
  obtain ⟨hpast, hnonzero, seq, hroom, hdata⟩ := h.acks ack hack
  obtain ⟨result, calls, hparse, hnames⟩ := hhonest.numbered.names hnonzero seq
  rw [← hdata] at hparse
  have hmap := Application.NsQuicSender.map_onIncomingData (c := c) h.kept.running hparse
    hnames.closing now
  obtain ⟨inputs, hledger, -⟩ := h.kept.history
  have hready : QuicSentPacketManager.Ready (· ∈ arrived w.seen) inputs
    w.sender.sentPacketManager := ⟨hledger, hclear.packetsAcked, hclear.largestNewlyAcked⟩
  have hseq := h.kept.seq
  have hsent := hhonest.sent
  have hnamed : ∀ n, InRanges (Application.rangesOf calls) n →
      w.sender.sentPacketManager.getLeastUnacked ≤ n → n ∈ arrived w.seen :=
    fun n hn hleast => arrived_subset hpast n (hhonest.named hnames hn hleast)
  generalize hframe : (⟨_, _, now, now, Application.rangesOf calls,
    Application.endsFrame calls⟩ : AckCalls) = frame at hmap
  have hframeRanges : frame.ranges = Application.rangesOf calls := by rw [← hframe]
  have hranges : Ranges frame.ranges := hframeRanges ▸ hnames.ranges
  have hcomplete : w.sender.sentPacketManager.Complete (.acked frame) := by
    rw [← hframe]
    refine ⟨hnames.ended hroom, fun r hr => ?_⟩
    have := hnames.within r hr
    omega
  obtain ⟨manager, hmanager, hready'⟩ := hready.acked (c := c) hranges (hframeRanges ▸ hnamed)
    hcomplete
  rw [hmanager] at hmap
  obtain ⟨s', hrun, rfl⟩ := Option.map_eq_some_iff.mp hmap
  refine ⟨s', hrun, ⟨hready'.packetsAcked, hready'.largestNewlyAcked,
    hclear.credits.acked hready hranges hcomplete hmanager⟩, fun q hq hall => ?_⟩
  -- A packet that has arrived and that the sender listens to is named.
  have hlisted : ∀ n < q, w.sender.sentPacketManager.getLeastUnacked ≤ n →
      InRanges frame.ranges n ∨ w.sender.sentPacketManager.givenUp q n = true := by
    intro n hlt hle
    refine (hall n hlt hle).imp_left fun harrived => ?_
    obtain ⟨hmem, hn⟩ := hhonest.complete n harrived hle
    exact hframeRanges ▸ hnames.all hroom hmem n hn
  by_cases hended : frame.ended = true
  · rw [QuicSentPacketManager.onAckFrame, if_pos hended] at hmanager
    exact (hclear.credits.ends hready hranges hcomplete.2 hmanager).le_least hledger.managed
      (by omega) hlisted
  · obtain ⟨-, hrecedes⟩ := hledger.acked hranges (hframeRanges ▸ hnamed) hmanager
    refine Nat.le_trans (Nat.not_lt.mp fun hlt => ?_) hrecedes.least
    obtain ⟨n, -, r, hr, -⟩ :=
      QuicSentPacketManager.exists_named hledger.managed hlisted hlt (Nat.le_refl _)
    rw [hcomplete.1.resolve_left hended] at hr
    exact absurd hr List.not_mem_nil

theorem Connected.exists_step (h : Connected HasRoom w) (hsmall : w.sender.seq < 2 ^ 48)
    (hclear : w.sender.Clear) (e : Event) : ∃ w', w.step c e = some w' ∧ w'.sender.Clear := by
  cases e with
  | senderBeat ms =>
    obtain ⟨s', out, hbeat, hkept, hemits⟩ := h.kept.exists_heartBeat (c := c) (clockNow ms)
    exact ⟨w.send s' out, by rw [World.step, hbeat]; rfl, hemits.clear hclear⟩
  | receiverBeat ms => exact ⟨_, rfl, hclear⟩
  | atReceiver ms i =>
    rw [World.step]
    cases w.toReceiver[i]? with
    | none => exact ⟨w, rfl, hclear⟩
    | some data => exact ⟨_, rfl, hclear⟩
  | atSender ms i =>
    rw [World.step]
    cases hack : w.toSender[i]? with
    | none => exact ⟨w, rfl, hclear⟩
    | some ack =>
      obtain ⟨s', hrun, hreleases⟩ := h.exists_hear (c := c) hsmall hclear
        (List.mem_of_getElem? hack) (clockNow ms)
      exact ⟨{w with sender := s'}, by rw [World.hear, hrun]; rfl, hreleases.clear⟩

end Step

/-! ### Runs -/

section Runs
variable (c : Config Nat σ) (a : GeneralLossAlgorithm) (sendAlgorithm : σ) (now : Int)

/-- The world after some events, if the sender has not failed. -/
def after (events : List Event) : Option (World σ) :=
  tryRun (World.step c) (.new a sendAlgorithm now) events

/-- The sender's numbers have 48 bits, all along the run. -/
def Small (events : List Event) : Prop :=
  Throughout (fun past _ => ∀ w ∈ after c a sendAlgorithm now past, w.sender.seq < 2 ^ 48) events

/-- Every ack that the receiver sends has room for all of its blocks. -/
def Roomy (events : List Event) : Prop :=
  Throughout (fun past e => ∀ w ∈ after c a sendAlgorithm now past, ∀ w' ∈ w.step c e,
    w.toSender.length < w'.toSender.length →
      Whole w.receiver.seq w'.receiver.recvPacketManager.ackFrame) events

instance (events : List Event) : Decidable (Small c a sendAlgorithm now events) :=
  inferInstanceAs (Decidable (Throughout _ events))

instance (events : List Event) : Decidable (Roomy c a sendAlgorithm now events) :=
  inferInstanceAs (Decidable (Throughout _ events))

variable {c a sendAlgorithm now} {events : List Event} {w : World σ} {ms i : Nat}
  {P : Nat → List NsQuicReceiver.Event → Prop}

theorem connected_new : Connected P (World.new a sendAlgorithm now) :=
  ⟨Application.NsQuicSender.kept_new _ a sendAlgorithm now,
    fun _ hdata => absurd hdata List.not_mem_nil, rfl, fun _ _ hmem => absurd hmem List.not_mem_nil,
    fun _ hack => absurd hack List.not_mem_nil⟩

theorem connected_run (hsmall : Small c a sendAlgorithm now events)
    (hrun : after c a sendAlgorithm now events = some w) : Connected (fun _ _ => True) w := by
  refine tryRun_reaches (A := Small c a sendAlgorithm now)
    (P := fun _ => Connected fun _ _ => True) ?_ connected_new ?_ hsmall hrun
  · exact fun es e hes => (throughout_concat.mp hes).1
  · intro es e w w' hes hw hstep hconnected
    exact hconnected.step ((throughout_concat.mp hes).2 w hw) (fun _ _ => trivial) hstep

theorem clear_run (hsmall : Small c a sendAlgorithm now events)
    (hroomy : Roomy c a sendAlgorithm now events) :
    ∃ w, after c a sendAlgorithm now events = some w ∧ Connected HasRoom w ∧ w.sender.Clear := by
  refine tryRun_history (A := fun events => Small c a sendAlgorithm now events ∧
      Roomy c a sendAlgorithm now events)
    (P := fun _ w => Connected HasRoom w ∧ w.sender.Clear) ?_
    ⟨connected_new, rfl, Nat.le_refl _, QuicSentPacketManager.credits_new a sendAlgorithm⟩ ?_ events
    ⟨hsmall, hroomy⟩
  · exact fun es e hes => ⟨(throughout_concat.mp hes.1).1, (throughout_concat.mp hes.2).1⟩
  · intro es e w hes hw hinv
    have hsmall := (throughout_concat.mp hes.1).2 w hw
    obtain ⟨w', hstep, hclear⟩ := hinv.1.exists_step (c := c) hsmall hinv.2 e
    refine ⟨w', hstep, hinv.1.step hsmall (fun hsent hreceiver => ?_) hstep, hclear⟩
    have hroom := (throughout_concat.mp hes.2).2 w hw w' hstep hsent
    rw [hreceiver] at hroom
    exact hroom

/-- Four packets are sent; the first is lost on the way, found missing by the last of three acks,
and sent again with a new packet. It arrives twice, and an old ack arrives late. -/
def sampleEvents : List Event :=
  [.senderBeat 1, .senderBeat 2, .senderBeat 3, .senderBeat 4, .atReceiver 10 1, .atReceiver 11 2,
    .atReceiver 12 3, .atSender 20 2, .atSender 21 0, .senderBeat 22, .atReceiver 30 5,
    .atReceiver 31 4, .atReceiver 32 4]

theorem sampleEvents_small : Small idleConfig (.new .nack false false) () 0 sampleEvents :=
  by decide +kernel

theorem sampleEvents_roomy : Roomy idleConfig (.new .nack false false) () 0 sampleEvents :=
  by decide +kernel

theorem sampleEvents_ends :
    (after idleConfig (.new .nack false false) () 0 sampleEvents).isSome = true := by
  decide +kernel

def sampleWorld : World Unit :=
  (after idleConfig (.new .nack false false) () 0 sampleEvents).get sampleEvents_ends

theorem after_sampleEvents :
    after idleConfig (.new .nack false false) () 0 sampleEvents = some sampleWorld :=
  (Option.some_get sampleEvents_ends).symm

/-- **Whatever the network does, the congestion controller is told of a packet as acked only if it
has arrived.** -/
theorem credited_arrived (hsmall : Small c a sendAlgorithm now events)
    (hrun : after c a sendAlgorithm now events = some w) :
    ∀ n ∈ ackedNumbers w.sender.sentPacketManager.congestionEvents,
      n ∈ arrived w.seen := by
  obtain ⟨inputs, hledger, -⟩ := (connected_run hsmall hrun).kept.history
  exact hledger.credited

theorem credited_arrived_sampleEvents : 4 ∈ arrived sampleWorld.seen :=
  credited_arrived sampleEvents_small after_sampleEvents 4 (by decide +kernel)

/-- **Whatever the network does, no stream frame is forgotten**: a packet that carried it has
arrived, or it is in flight or waits to be sent again. -/
theorem delivered_or_held (hsmall : Small c a sendAlgorithm now events)
    (hrun : after c a sendAlgorithm now events = some w) {n d : Nat}
    (hd : (n, [d]) ∈ w.sender.carried) :
    (∃ k, (k, [d]) ∈ w.sender.carried ∧ k ∈ arrived w.seen) ∨
    ∃ k info, w.sender.sentPacketManager.unackedPackets.getTransmissionInfo k = some info ∧
      info.retransmittableFrames = [d] ∧ (info.inFlight = true ∨
        k ∈ w.sender.sentPacketManager.pendingRetransmissions.map Prod.fst) := by
  obtain ⟨inputs, hledger, hcarried⟩ := (connected_run hsmall hrun).kept.history
  have hne : [d] ≠ [] := List.cons_ne_nil _ _
  rcases hledger.retained n [d] ((hcarried n [d]).mpr hd) hne with ⟨k, info, hk, hframes⟩ |
    ⟨k, hk, harrived⟩
  · exact .inr ⟨k, info, hk, hframes, hledger.managed.held k info hk (hframes ▸ hne)⟩
  · exact .inl ⟨k, (hcarried k [d]).mp hk, harrived⟩

/-- The first packet is lost, and its frame is in the fifth. -/
theorem delivered_or_held_sampleEvents :
    (∃ k, (k, [1]) ∈ sampleWorld.sender.carried ∧ k ∈ arrived sampleWorld.seen) ∨
    ∃ k info, sampleWorld.sender.sentPacketManager.unackedPackets.getTransmissionInfo k =
        some info ∧
      info.retransmittableFrames = [1] ∧ (info.inFlight = true ∨
        k ∈ sampleWorld.sender.sentPacketManager.pendingRetransmissions.map Prod.fst) :=
  delivered_or_held sampleEvents_small after_sampleEvents (n := 1) (by decide +kernel)

/-- **No run fails** as long as every ack has room for all of its blocks, and however often acks
arrive, no packet is counted as acked twice. -/
theorem exists_world (hsmall : Small c a sendAlgorithm now events)
    (hroomy : Roomy c a sendAlgorithm now events) :
    ∃ w, after c a sendAlgorithm now events = some w ∧
      (ackedNumbers w.sender.sentPacketManager.congestionEvents).Nodup := by
  obtain ⟨w, hrun, -, hclear⟩ := clear_run hsmall hroomy
  exact ⟨w, hrun, hclear.credits.nodup⟩

theorem exists_world_sampleEvents :
    ∃ w, after idleConfig (.new .nack false false) () 0 sampleEvents = some w ∧
      (ackedNumbers w.sender.sentPacketManager.congestionEvents).Nodup :=
  exists_world sampleEvents_small sampleEvents_roomy

/-- **What has arrived is let go** with any ack that was sent since, as long as every ack has room
for all of its blocks: the least unacked packet is behind it. Once the sender hears an ack of all
it has sent, apart from what it has given up and sent again, nothing is in flight and nothing
waits. -/
theorem released (hsmall : Small c a sendAlgorithm now (events ++ [.atSender ms i]))
    (hroomy : Roomy c a sendAlgorithm now (events ++ [.atSender ms i]))
    (hrun : after c a sendAlgorithm now events = some w)
    {ack : List UInt8 × List NsQuicReceiver.Event} (hack : w.toSender[i]? = some ack) {q : Nat}
    (hall : Delivered w.sender ack.2 q) :
    ∃ w', after c a sendAlgorithm now (events ++ [.atSender ms i]) = some w' ∧
      q ≤ w'.sender.sentPacketManager.getLeastUnacked ∧
      (w'.sender.seq ≤ q → w'.sender.sentPacketManager.unackedPackets.bytesInFlight = 0 ∧
        w'.sender.sentPacketManager.pendingRetransmissions = []) := by
  obtain ⟨hpast, hlast⟩ := throughout_concat.mp hsmall
  obtain ⟨w₁, hrun₁, hconnected, hclear⟩ := clear_run hpast (throughout_concat.mp hroomy).1
  obtain rfl := Option.some.inj (hrun.symm.trans hrun₁)
  have hsmall := hlast w hrun
  have hmem := List.mem_of_getElem? hack
  obtain ⟨s', hrun', hreleases⟩ := hconnected.exists_hear (c := c) hsmall hclear hmem (clockNow ms)
  have hkept := (hconnected.hear hsmall hmem hrun').kept
  refine ⟨{w with sender := s'}, ?_, ?_⟩
  · have hstep : w.step c (.atSender ms i) = some {w with sender := s'} := by
      rw [World.step, hack, World.hear, hrun', Option.map_some]
    rw [after, tryRun_concat]
    exact (congrArg (Option.bind · _) hrun).trans hstep
  have hq : q ≤ w.sender.seq := by
    refine Nat.not_lt.mp fun hlt => ?_
    rcases hall _ hlt hconnected.kept.least_le with harrived | hgiven
    · have harrived := arrived_subset (hconnected.acks _ hmem).1 _ harrived
      have hnumbers := (fromSender_of_sendable hconnected.seen hsmall).numbers
      exact Nat.lt_irrefl _ (hnumbers _ harrived).2
    · obtain ⟨info, hinfo, -⟩ := QuicSentPacketManager.givenUp_iff.mp hgiven
      have hsent := (hconnected.kept.managed.tracks.bounds hinfo).2
      have hseq := hconnected.kept.seq
      omega
  have hleast := hreleases.least q hq hall
  refine ⟨hleast, fun hle => QuicSentPacketManager.idle_of_getLeastUnacked hkept.managed ?_⟩
  have hbound := hkept.least_le
  rw [← hkept.seq]
  exact Nat.le_antisymm hbound (Nat.le_trans hle hleast)

theorem sampleWorld_acks : sampleWorld.toSender[4]?.isSome = true := by decide +kernel

/-- The first packet never arrives; it was given up for the fifth. -/
theorem released_sampleEvents :
    ∃ w', after idleConfig (.new .nack false false) () 0
        (sampleEvents ++ [Event.atSender 40 4]) = some w' ∧
      7 ≤ w'.sender.sentPacketManager.getLeastUnacked ∧
      (w'.sender.seq ≤ 7 → w'.sender.sentPacketManager.unackedPackets.bytesInFlight = 0 ∧
        w'.sender.sentPacketManager.pendingRetransmissions = []) :=
  released (by decide +kernel) (by decide +kernel) after_sampleEvents
    (Option.some_get sampleWorld_acks).symm (by decide +kernel)

end Runs
end Network
end CongestionResponse.NsQuic
