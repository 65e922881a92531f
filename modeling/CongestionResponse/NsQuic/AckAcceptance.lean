import CongestionResponse.Framer.Truncation
import CongestionResponse.NsQuic.Receiver
import CongestionResponse.NsQuic.Sender

/-! Whether the sender can parse the acks of the receiver.

An ack frame that acknowledges something is accepted, also where `largest_acked` itself has
been removed from the set or blocks had to be cut off. An ack frame of an empty set is
rejected, since its `largest_acked` is not zero. Right after a packet was recorded the set is
not empty; but when the alarm goes off, stop-waiting frames may have emptied it. -/
namespace CongestionResponse.Framer
open Lib Quic

/-! ### One ack -/

theorem bytes_le (length : QuicPacketNumberLength) : length.bytes ≤ 8 := by
  cases length <;> decide

/-- A call that reports a range of packets. -/
def Call.IsRange : Call → Prop
  | .onAckRange _ _ _ => True
  | _ => False

theorem isRange_of_mem_blockCalls {call : Call} {firstReceived : Nat} {blocks : List (Nat × Nat)}
    (h : call ∈ blockCalls firstReceived blocks) : call.IsRange := by
  induction blocks generalizing firstReceived with
  | nil => cases h
  | cons b rest ih =>
    rcases List.mem_append.mp h with h | h
    · split at h
      · rw [List.mem_singleton.mp h]
        trivial
      · cases h
    · exact ih h

section Room
variable {frame : QuicAckFrame} {newest : Interval} {rest : List Interval}

/-- In a buffer of some size, a frame is written with one block at least if it has any. -/
theorem Listed.written (h : Listed frame newest rest) {size : Nat} (hsize : 64 ≤ size)
    (hsmall : size < 2 ^ 31) :
    (0 < numAckBlocks frame ⟨size, []⟩ ↔ rest ≠ []) ∧
      ackFrameSize frame (numAckBlocks frame ⟨size, []⟩) ≤ size := by
  have hblock := bytes_le (ackBlockLength frame)
  have hlargest := bytes_le (largestAckedLength frame)
  have htotal : frame.blockTotal ≠ 0 ↔ rest ≠ [] := by rw [← h.hasBlocks_iff, h.hasBlocks]
  have hnumber := h.numAckBlocks_eq ⟨size, []⟩
  by_cases hrest : rest = []
  · have hzero : numAckBlocks frame ⟨size, []⟩ = 0 := by
      rw [hnumber, not_not.mp (mt htotal.mp (not_not.mpr hrest)), Nat.zero_min]
    rw [hzero, ackFrameSize, if_pos rfl, getMinAckFrameSize]
    exact ⟨⟨fun h0 => absurd h0 (Nat.lt_irrefl 0), fun hne => absurd hrest hne⟩, by omega⟩
  · obtain ⟨space, hspace⟩ : ∃ space, (ackBlockLength frame).bytes +
        getMinAckFrameSize (largestAckedLength frame) + 1 + space = size :=
      ⟨size - ((ackBlockLength frame).bytes + getMinAckFrameSize (largestAckedLength frame) + 1), by
        unfold getMinAckFrameSize; omega⟩
    have hmin : getMinAckFrameSize (largestAckedLength frame) ≤ 12 := by
      unfold getMinAckFrameSize
      omega
    have hmax := maxNumAckBlocks_of_lt frame ⟨size, []⟩ space (by omega) (by
      rw [if_pos (h.hasBlocks.mpr hrest), List.length_nil, Nat.zero_add]
      exact hspace)
    have hone : 0 < space / ((ackBlockLength frame).bytes + 1) :=
      Nat.div_pos (by omega) (Nat.succ_pos _)
    have hpos : 0 < numAckBlocks frame ⟨size, []⟩ := by
      have := Nat.pos_of_ne_zero (htotal.mpr hrest)
      omega
    have hfit : numAckBlocks frame ⟨size, []⟩ * ((ackBlockLength frame).bytes + 1) ≤ space :=
      (Nat.mul_le_mul_right _ (by omega)).trans
        (Nat.div_mul_le_self space ((ackBlockLength frame).bytes + 1))
    refine ⟨⟨fun _ => hrest, fun _ => hpos⟩, ?_⟩
    rw [ackFrameSize, if_neg hpos.ne']
    omega

/-- A frame for which there is room is written as a whole. -/
theorem written_of_room {n size : Nat} (hn : numAckBlocks frame ⟨size, []⟩ = n)
    (hle : n ≤ frame.moreBlocks.length) (hroom : ackFrameSize frame n ≤ size) :
    (appendAckFrameAndTypeByte frame ⟨size, []⟩).2.written =
        UInt8.ofNat (frameTypeByte frame) :: ackBodyBytes frame n ∧
      (UInt8.ofNat (frameTypeByte frame) :: ackBodyBytes frame n).length ≤ size := by
  have hbytes := length_ackFrame frame hle
  have hfits : (⟨size, []⟩ : Buffer).Fits (UInt8.ofNat (frameTypeByte frame) ::
      ackBodyBytes frame n) := by
    rw [Buffer.Fits, hbytes, List.length_nil, Nat.zero_add]
    exact hroom
  rw [appendAckFrameAndTypeByte, hn,
    (writes_appendAckFields frame n ⟨size, []⟩ (Nat.zero_le _)).1 hfits]
  exact ⟨rfl, hbytes.trans_le hroom⟩

/-- An ack frame that acknowledges something is accepted, wherever its blocks are cut. -/
theorem Listed.accepted (h : Listed frame newest rest) (hlength : newest.length < 2 ^ 48)
    {size : Nat} (hsize : 64 ≤ size) (hsmall : size < 2 ^ 31) {visitor : Visitor}
    (hv : visitor.Accepts) (header : QuicPacketHeader) :
    ∃ bytes ranges, (appendAckFrameAndTypeByte frame ⟨size, []⟩).2.written = bytes ∧
      bytes.length ≤ size ∧ (∀ call ∈ ranges, call.IsRange) ∧
      processFrameData visitor header ⟨bytes, []⟩ =
        (.ok (), ⟨[], .onAckFrameStart frame.largestAcked (reportedDelay frame) :: ranges⟩) := by
  obtain ⟨hpos, hroom⟩ := h.written hsize hsmall
  obtain ⟨hle, hlimit⟩ := h.numAckBlocks_le ⟨size, []⟩
  obtain ⟨hwritten, hbytes⟩ := written_of_room rfl hle hroom
  refine ⟨_, _, hwritten, hbytes, ?_, processFrameData_frame header (List.cons_ne_nil _ _)
    (reads_processFrame header (announces_frameTypeByte frame)
      (h.reads hv hlength hlimit hle hpos))⟩
  exact List.forall_mem_cons.mpr ⟨trivial, fun call hcall => isRange_of_mem_blockCalls hcall⟩

/-- An ack frame of nothing is rejected, after the visitor has heard of its start. -/
theorem rejected_of_empty (hempty : frame.packets.intervals = []) (hlargest : frame.largestAcked ≠ 0)
    (hbelow : frame.largestAcked < 2 ^ 48) {size : Nat} (hsize : 64 ≤ size) {visitor : Visitor}
    (hv : visitor.Accepts) (header : QuicPacketHeader) :
    ∃ bytes e left, (appendAckFrameAndTypeByte frame ⟨size, []⟩).2.written = bytes ∧
      bytes.length ≤ size ∧
      processFrameData visitor header ⟨bytes, []⟩ =
        (.error e, ⟨left, [.onAckFrameStart frame.largestAcked (reportedDelay frame)]⟩) := by
  have hinfo : getAckFrameInfo frame = ⟨0, 0, 0⟩ := by
    rw [getAckFrameInfo, QuicAckFrame.newestFirst, hempty]
    rfl
  have hcount : numAckBlocks frame ⟨size, []⟩ = 0 := by
    rw [numAckBlocks, hinfo, Nat.zero_min, Nat.zero_min]
  have hroom : ackFrameSize frame 0 ≤ size := by
    have hblock := bytes_le (ackBlockLength frame)
    have hlargest := bytes_le (largestAckedLength frame)
    rw [ackFrameSize, if_pos rfl, getMinAckFrameSize]
    omega
  obtain ⟨hwritten, hbytes⟩ := written_of_room hcount (Nat.zero_le _) hroom
  have htype := announces_frameTypeByte frame
  have hbyte := frameTypeByte_toNat frame
  rw [← hbyte] at htype
  obtain ⟨e, herror⟩ := processAckRanges_zero visitor (ackBlockLength frame) hlargest
    (Nat.zero_mod _) [0] [.onAckFrameStart frame.largestAcked (reportedDelay frame)]
  refine ⟨_, ⟨.invalidAckData, e⟩, [0], hwritten, hbytes, ?_⟩
  rw [processFrameData_ack header htype.special htype.notStream htype.ack, hbyte, ackBodyBytes,
    processAckFrame_header hv hbelow, hinfo]
  have hblocks : decide ((⟨0, 0, 0⟩ : AckFrameInfo).numAckBlocks ≠ 0) = false := rfl
  have hnone : ackBlockCountBytes 0 = [] ∧ blocksBytes (ackBlockLength frame) [] = [] := ⟨rfl, rfl⟩
  rw [hblocks, hnone.1, List.take_zero, hnone.2]
  simp only [List.nil_append, herror]

end Room
end CongestionResponse.Framer

namespace CongestionResponse.NsQuic
open Lib Quic Framer

/-! ### The acks of a receiver -/

/-- An ack frame of numbers from 1 to `largest_acked`, which has 48 bits. -/
structure Numbered (frame : QuicAckFrame) : Prop where
  positive : ∀ k ∈ frame.packets, 1 ≤ k
  within : ∀ k ∈ frame.packets, k ≤ frame.largestAcked
  below : frame.largestAcked < 2 ^ 48

section Parse
variable {frame : QuicAckFrame}

theorem Numbered.listed (h : Numbered frame) (hne : frame.packets.intervals ≠ []) :
    ∃ newest rest, Listed frame newest rest ∧ newest.length < 2 ^ 48 := by
  cases hcases : frame.newestFirst with
  | nil => exact absurd (List.reverse_eq_nil_iff.mp hcases) hne
  | cons newest rest =>
    have hreverse : frame.packets.intervals.reverse = newest :: rest := hcases
    have hmem : newest ∈ frame.packets.intervals := by
      rw [← List.mem_reverse, hreverse]
      exact List.mem_cons_self ..
    have hnewest := newest.nonempty
    have hmax := h.within (newest.max - 1) ⟨newest, hmem, by omega, by omega⟩
    have hmin := h.positive newest.min ⟨newest, hmem, Nat.le_refl _, hnewest⟩
    have hbelow := h.below
    have hlength : newest.max - newest.min < 2 ^ 48 := by omega
    exact ⟨newest, rest, ⟨hcases, frame.descends hcases, by omega, hbelow⟩, hlength⟩

theorem ackDatagram_eq (seq : Nat) (frame : QuicAckFrame) :
    NsQuicReceiver.ackDatagram seq frame = headerBytes seq ++ (appendAckFrameAndTypeByte frame
      ⟨kMaxBufferSize - (1 + (getMinSeqLength seq).bytes), []⟩).2.written := by
  have hheader : (headerBytes seq).length ≤ 1 + (getMinSeqLength seq).bytes := by
    rw [headerBytes, List.length_cons, length_bigEndian, Nat.add_comm]
  rw [NsQuicReceiver.ackDatagram, written_of_writes (writes_writeHeader seq) hheader]

/-- The sender gets to the ack frame of an ack datagram. -/
theorem parse_ackDatagram (seq : Nat) {bytes : List UInt8}
    (hwritten : (appendAckFrameAndTypeByte frame
      ⟨kMaxBufferSize - (1 + (getMinSeqLength seq).bytes), []⟩).2.written = bytes)
    (hbytes : bytes.length ≤ kMaxBufferSize - (1 + (getMinSeqLength seq).bytes)) :
    NsQuicSender.parse (NsQuicReceiver.ackDatagram seq frame) =
      some ((processFrameData NsQuicSender.visitor NsQuicSender.unusedHeader ⟨bytes, []⟩).1,
        (processFrameData NsQuicSender.visitor NsQuicSender.unusedHeader ⟨bytes, []⟩).2.calls) := by
  have hlen := bytes_le (getMinSeqLength seq)
  have hlength : (headerBytes seq ++ bytes).length ≤ kMaxBufferSize := by
    rw [List.length_append, headerBytes, List.length_cons, length_bigEndian]
    unfold kMaxBufferSize at hbytes ⊢
    omega
  rw [NsQuicSender.parse, ackDatagram_eq, hwritten, NsQuicSender.frameBytes_header seq hlength]
  rfl

/-- What the sender hears of an ack, and whether it accepts it. -/
theorem Numbered.parse (h : Numbered frame) (hlargest : frame.largestAcked ≠ 0) (seq : Nat) :
    ∃ result ranges, NsQuicSender.parse (NsQuicReceiver.ackDatagram seq frame) =
        some (result, .onAckFrameStart frame.largestAcked (reportedDelay frame) :: ranges) ∧
      (∀ call ∈ ranges, call.IsRange) ∧
      (result = .ok () ↔ frame.packets.intervals ≠ []) := by
  have hlen := bytes_le (getMinSeqLength seq)
  have hsize : 64 ≤ kMaxBufferSize - (1 + (getMinSeqLength seq).bytes) := by
    unfold kMaxBufferSize
    omega
  by_cases hempty : frame.packets.intervals = []
  · obtain ⟨bytes, e, left, hwritten, hbytes, hparse⟩ := rejected_of_empty hempty hlargest h.below
      hsize NsQuicSender.visitor_accepts NsQuicSender.unusedHeader
    refine ⟨.error e, [], ?_, fun call hcall => absurd hcall List.not_mem_nil, ?_⟩
    · rw [parse_ackDatagram seq hwritten hbytes, hparse]
    · exact ⟨fun hok => (by cases hok), fun hne => absurd hempty hne⟩
  · obtain ⟨newest, rest, hlisted, hlength⟩ := h.listed hempty
    have hsmall : kMaxBufferSize - (1 + (getMinSeqLength seq).bytes) < 2 ^ 31 := by
      unfold kMaxBufferSize
      omega
    obtain ⟨bytes, ranges, hwritten, hbytes, hranges, hparse⟩ := hlisted.accepted hlength hsize
      hsmall NsQuicSender.visitor_accepts NsQuicSender.unusedHeader
    refine ⟨.ok (), ranges, ?_, hranges, ⟨fun _ => hempty, fun _ => rfl⟩⟩
    rw [parse_ackDatagram seq hwritten hbytes, hparse]

theorem Numbered.accepts_iff (h : Numbered frame) (hlargest : frame.largestAcked ≠ 0) (seq : Nat) :
    NsQuicSender.accepts (NsQuicReceiver.ackDatagram seq frame) = true ↔
      frame.packets.intervals ≠ [] := by
  obtain ⟨result, ranges, hparse, -, hiff⟩ := h.parse hlargest seq
  rw [NsQuicSender.accepts, hparse, ← hiff]
  cases result with
  | error e => exact ⟨fun hfalse => (by cases hfalse), fun hok => (by cases hok)⟩
  | ok a => exact ⟨fun _ => rfl, fun _ => rfl⟩

end Parse

namespace NsQuicReceiver

/-! ### Whole runs -/

/-- A data datagram carries a number from 1 on, as `NsQuicSender` gives them. -/
def FromSender : Datagram → Prop
  | .stream seq _ => 1 ≤ seq
  | _ => True

instance : DecidablePred FromSender
  | .stream _ _ => inferInstanceAs (Decidable (_ ≤ _))
  | .stopWaiting _ _ => isTrue trivial
  | .other => isTrue trivial

def Event.FromSender : Event → Prop
  | .incoming _ data => NsQuicReceiver.FromSender (readDatagram data)
  | .heartBeat _ => True

instance : DecidablePred Event.FromSender
  | .incoming _ data => inferInstanceAs (Decidable (NsQuicReceiver.FromSender (readDatagram data)))
  | .heartBeat _ => isTrue trivial

theorem Event.FromSender.positive {ms : Nat} {data : List UInt8} {seq sentTs : Nat}
    (h : (Event.incoming ms data).FromSender) (hdata : readDatagram data = .stream seq sentTs) :
    1 ≤ seq := by
  have hread : NsQuicReceiver.FromSender (readDatagram data) := h
  rw [hdata] at hread
  exact hread

/-- The sender accepts every ack that the event makes the receiver send. -/
def AcksAccepted (r : NsQuicReceiver) (e : Event) : Prop :=
  ∀ ack ∈ r.acks e, NsQuicSender.accepts ack = true

instance (r : NsQuicReceiver) (e : Event) : Decidable (AcksAccepted r e) :=
  inferInstanceAs (Decidable (∀ _ ∈ _, _))

/-- Where the event is a heart beat at which the alarm goes off, there are packets to
acknowledge: stop-waiting frames have not removed them all. -/
def FindsPackets (r : NsQuicReceiver) : Event → Prop
  | .incoming _ _ => True
  | .heartBeat ms => r.Fires ms → r.recvPacketManager.ackFrame.packets.intervals ≠ []

instance (r : NsQuicReceiver) : (e : Event) → Decidable (FindsPackets r e)
  | .incoming _ _ => isTrue trivial
  | .heartBeat _ => inferInstanceAs (Decidable (_ → _))

/-- What holds between the events. -/
structure Consistent (r : NsQuicReceiver) : Prop where
  running : r.running = true
  numbered : NsQuic.Numbered r.recvPacketManager.ackFrame
  alarm : r.ackAlarm.IsSet → r.recvPacketManager.ackFrame.largestAcked ≠ 0

theorem consistent_new : Consistent new :=
  ⟨rfl, ⟨fun k hk => absurd hk (PacketNumberQueue.not_mem_empty k),
    fun k hk => absurd hk (PacketNumberQueue.not_mem_empty k), by decide⟩,
    fun h => absurd h (by decide)⟩

theorem numbered_recordPacketReceived {m : QuicReceivedPacketManager} (h : Numbered m.ackFrame)
    {seq : Nat} (hpos : 1 ≤ seq) (hbelow : seq < 2 ^ 48) (now : Int) :
    Numbered (m.recordPacketReceived seq now).ackFrame := by
  have hlargest := m.largestAcked_recordPacketReceived seq now
  refine ⟨?_, ?_, by rw [hlargest]; exact max_lt h.below hbelow⟩
  · intro k hk
    rcases m.mem_recordPacketReceived.mp hk with rfl | hk
    · exact hpos
    · exact h.positive k hk
  · intro k hk
    rw [hlargest]
    rcases m.mem_recordPacketReceived.mp hk with rfl | hk
    · exact Nat.le_max_right _ _
    · exact (h.within k hk).trans (Nat.le_max_left _ _)

theorem numbered_dontWaitForPacketsBefore {m : QuicReceivedPacketManager} (h : Numbered m.ackFrame)
    (leastUnacked : Nat) : Numbered (m.dontWaitForPacketsBefore leastUnacked).ackFrame := by
  have hlargest := m.largestAcked_dontWaitForPacketsBefore leastUnacked
  refine ⟨?_, ?_, by rw [hlargest]; exact h.below⟩
  · exact fun k hk => h.positive k (m.mem_dontWaitForPacketsBefore.mp hk).1
  · intro k hk
    rw [hlargest]
    exact h.within k (m.mem_dontWaitForPacketsBefore.mp hk).1

section Step
variable {r r' : NsQuicReceiver} {now : Int} {seq : Nat}

theorem Recorded.consistent (h : Consistent r) (hr : Recorded r now seq r') (hpos : 1 ≤ seq)
    (hbelow : seq < 2 ^ 48) :
    Consistent r' ∧ r'.recvPacketManager.ackFrame.largestAcked ≠ 0 ∧
      r'.recvPacketManager.ackFrame.packets.intervals ≠ [] := by
  have hlargest := r.recvPacketManager.largestAcked_recordPacketReceived seq now
  have hmem : seq ∈ (r.recvPacketManager.recordPacketReceived seq now).ackFrame.packets :=
    QuicReceivedPacketManager.mem_recordPacketReceived _ |>.mpr (.inl rfl)
  have hne : r'.recvPacketManager.ackFrame.largestAcked ≠ 0 := by
    rw [hr.manager, hlargest]
    omega
  refine ⟨⟨hr.running.trans h.running, ?_, fun _ => hne⟩, hne, ?_⟩
  · rw [hr.manager]
    exact numbered_recordPacketReceived h.numbered hpos hbelow now
  · rw [hr.manager]
    obtain ⟨i, hi, -⟩ := hmem
    exact List.ne_nil_of_mem hi

theorem Consistent.sendAck (h : Consistent r) (now : Int) : Consistent (r.sendAck now).1 :=
  ⟨h.running, ⟨h.numbered.positive, h.numbered.within, h.numbered.below⟩, h.alarm⟩

theorem Consistent.maybeSendAck (h : Consistent r)
    (hlargest : r.recvPacketManager.ackFrame.largestAcked ≠ 0) (now : Int) :
    Consistent (r.maybeSendAck now).1 := by
  unfold NsQuicReceiver.maybeSendAck
  split_ifs
  · exact h.sendAck now
  · exact h
  · exact ⟨h.running, h.numbered, fun _ => hlargest⟩

theorem Consistent.step (h : Consistent r) {e : Event} (he : e.FromSender) :
    Consistent (r.step e) := by
  cases e with
  | incoming ms data =>
    cases hdata : readDatagram data with
    | stream seq sentTs =>
      obtain ⟨r', hr, hstep, -⟩ := react_stream ms h.running hdata
      obtain ⟨hr', hlargest, -⟩ := hr.consistent h (he.positive hdata)
        (seq_lt_of_readDatagram hdata)
      rw [hstep]
      exact hr'.maybeSendAck hlargest _
    | stopWaiting seq leastUnack =>
      rw [NsQuicReceiver.step, react_stopWaiting h.running hdata]
      refine ⟨h.running, numbered_dontWaitForPacketsBefore h.numbered leastUnack, fun hset => ?_⟩
      rw [QuicReceivedPacketManager.largestAcked_dontWaitForPacketsBefore]
      exact h.alarm hset
    | other =>
      rw [NsQuicReceiver.step, react_other hdata]
      exact h
  | heartBeat ms =>
    rw [NsQuicReceiver.step, react_heartBeat h.running]
    split
    · exact (show Consistent {r with ackAlarm := ⟨0⟩} from
        ⟨h.running, h.numbered, fun hset => absurd hset (Int.lt_irrefl 0)⟩).sendAck _
    · exact h

/-- An event makes the receiver send no ack, or one of the numbers that are recorded now. There
are none only at a heart beat, if nothing is left to acknowledge. -/
theorem Consistent.acks_cases (h : Consistent r) {e : Event} (he : e.FromSender) :
    (r.acks e = [] ∧ FindsPackets r e) ∨
    ∃ frame, r.acks e = [ackDatagram r.seq frame] ∧ NsQuic.Numbered frame ∧
      frame.largestAcked ≠ 0 ∧
      frame.largestAcked = (r.step e).recvPacketManager.ackFrame.largestAcked ∧
      (frame.packets.intervals ≠ [] ↔ FindsPackets r e) := by
  cases e with
  | incoming ms data =>
    cases hdata : readDatagram data with
    | stream seq sentTs =>
      obtain ⟨r', hr, hstep, hacks⟩ := react_stream ms h.running hdata
      obtain ⟨hr', hlargest, hne⟩ := hr.consistent h (he.positive hdata)
        (seq_lt_of_readDatagram hdata)
      rw [hacks, hstep, ← hr.seq]
      unfold NsQuicReceiver.maybeSendAck
      split_ifs
      · refine .inr ⟨r'.ackFrameAt (clockNow ms), rfl, ?_, hlargest, rfl, iff_of_true hne trivial⟩
        exact ⟨hr'.numbered.positive, hr'.numbered.within, hr'.numbered.below⟩
      all_goals exact .inl ⟨rfl, trivial⟩
    | stopWaiting seq leastUnack =>
      rw [acks, react_stopWaiting h.running hdata]
      exact .inl ⟨rfl, trivial⟩
    | other =>
      rw [acks, react_other hdata]
      exact .inl ⟨rfl, trivial⟩
  | heartBeat ms =>
    rw [acks, NsQuicReceiver.step, react_heartBeat h.running]
    by_cases hfires : r.Fires ms
    · rw [if_pos hfires]
      refine .inr ⟨r.ackFrameAt (clockNow ms), rfl, ?_, h.alarm hfires.1, rfl, ?_⟩
      · exact ⟨h.numbered.positive, h.numbered.within, h.numbered.below⟩
      · exact ⟨fun hne _ => hne, fun hfinds => hfinds hfires⟩
    · rw [if_neg hfires]
      exact .inl ⟨rfl, fun hfire => absurd hfire hfires⟩

/-- One event: an ack is rejected only if it is sent at a heart beat with nothing to
acknowledge. -/
theorem Consistent.acksAccepted_iff (h : Consistent r) {e : Event} (he : e.FromSender) :
    AcksAccepted r e ↔ FindsPackets r e := by
  rcases h.acks_cases he with ⟨hnone, hfinds⟩ | ⟨frame, hacks, hnumbered, hlargest, -, hfinds⟩
  · rw [AcksAccepted, hnone]
    exact iff_of_true (fun ack hack => absurd hack List.not_mem_nil) hfinds
  · rw [AcksAccepted, hacks, List.forall_mem_singleton, hnumbered.accepts_iff hlargest, hfinds]

end Step

theorem consistent_run {es : List Event} (hes : ∀ e ∈ es, e.FromSender) :
    Consistent (run step new es) :=
  run_preserves (fun _ _ he h => h.step he) consistent_new (along_of_forall hes)

/-- **Every ack is accepted exactly along the runs in which no alarm goes off over an emptied
set.** -/
theorem acks_accepted_iff (es : List Event) (hes : ∀ e ∈ es, e.FromSender) :
    Along step AcksAccepted new es ↔ Along step FindsPackets new es :=
  along_congr (fun _ _ he h => h.step he) (fun _ _ he h => h.acksAccepted_iff he) consistent_new
    (along_of_forall hes)

/-- A hundred packets, one every millisecond. The last of them sets the alarm. -/
def hundredPackets : List Event :=
  (List.range' 1 100).map fun n => .incoming n (sendFakePacket n (clockNow n))

theorem acks_accepted_hundred_packets :
    (run step new (hundredPackets ++ [.heartBeat 125])).numPacketsReceivedSinceLastAckSent = 0 ∧
    Along step AcksAccepted new (hundredPackets ++ [.heartBeat 125]) :=
  ⟨by decide +kernel, (acks_accepted_iff _ (by decide +kernel)).mpr (by decide +kernel)⟩

/-- A stop-waiting frame for all hundred packets arrives before the alarm of the last. -/
theorem ack_of_emptied_set_rejected :
    let es := hundredPackets ++ [.incoming 110 (sendStopWaitingFrame 101 101), .heartBeat 125]
    (∀ e ∈ es, e.FromSender) ∧ ¬Along step AcksAccepted new es := by
  decide +kernel

end NsQuicReceiver
end CongestionResponse.NsQuic
