import CongestionResponse.Framer.AckGrammar

/-! What the parser makes of an ack frame the encoder wrote.

The two meet in the list of ack blocks: the encoder writes its first `n` blocks, and the
parser reports one range for every block that is not empty (`reads_processAckBlocks`).
The blocks of whole intervals are reported as these intervals (`blockCalls_ackBlocks`). -/
namespace CongestionResponse.Framer
open Lib Quic

/-! ### Blocks of whole intervals -/

/-- The ranges of a list of intervals: the last one carries `last_range`. -/
def rangeCalls : List Interval → List Call
  | [] => []
  | i :: rest => .onAckRange i.min i.max rest.isEmpty :: rangeCalls rest

theorem gap_eq {totalGap : Nat} (h : 0 < totalGap) :
    ∃ k, numEncodedGaps totalGap - 1 = k ∧ k * 255 < totalGap ∧ totalGap ≤ k * 255 + 255 := by
  refine ⟨_, rfl, ?_⟩
  unfold numEncodedGaps
  omega

theorem blockCalls_empty (k firstReceived : Nat) (rest : List (Nat × Nat)) :
    blockCalls firstReceived (List.replicate k (255, 0) ++ rest) =
      blockCalls (firstReceived - k * 255) rest := by
  induction k generalizing firstReceived with
  | zero => rw [Nat.zero_mul]; rfl
  | succ k ih =>
    rw [List.replicate_succ, List.cons_append, blockCalls, if_neg (Nat.lt_irrefl 0),
      List.nil_append, ih, Nat.add_zero, Nat.sub_sub]
    congr 1
    omega

/-- A bridged gap and a length are reported as one range. -/
theorem blockCalls_gapBlocks {totalGap length firstReceived : Nat} (hgap : 0 < totalGap)
    (hlength : 0 < length) (hroom : totalGap + length ≤ firstReceived) (rest : List (Nat × Nat)) :
    blockCalls firstReceived (gapBlocks totalGap length ++ rest) =
      .onAckRange (firstReceived - (totalGap + length)) (firstReceived - totalGap) rest.isEmpty ::
        blockCalls (firstReceived - (totalGap + length)) rest := by
  obtain ⟨k, hk, hlt, -⟩ := gap_eq hgap
  have hstart : firstReceived - k * 255 - (totalGap - k * 255 + length) =
      firstReceived - (totalGap + length) := by omega
  have hstop : firstReceived - (totalGap + length) + length = firstReceived - totalGap := by omega
  rw [gapBlocks, hk, List.append_assoc, blockCalls_empty, List.singleton_append, blockCalls,
    if_pos hlength, hstart, hstop]
  rfl

theorem ackBlocks_isEmpty (previousStart : Nat) (is : List Interval) :
    (ackBlocks previousStart is).isEmpty = is.isEmpty := by
  cases is with
  | nil => rfl
  | cons i rest => simp [ackBlocks, gapBlocks]

theorem Descends.le {previousStart : Nat} {i : Interval} {rest : List Interval}
    (h : Descends previousStart (i :: rest)) :
    previousStart - i.max + i.length ≤ previousStart ∧
      previousStart - (previousStart - i.max + i.length) = i.min := by
  have hlt := h.1
  have hne := i.nonempty
  unfold Interval.length
  omega

/-- The blocks of intervals are reported as these intervals. -/
theorem blockCalls_ackBlocks {previousStart : Nat} {is : List Interval}
    (h : Descends previousStart is) :
    blockCalls previousStart (ackBlocks previousStart is) = rangeCalls is := by
  induction is generalizing previousStart with
  | nil => rfl
  | cons i rest ih =>
    obtain ⟨hroom, hstart⟩ := h.le
    have hstop : previousStart - (previousStart - i.max) = i.max := Nat.sub_sub_self h.1.le
    rw [ackBlocks, blockCalls_gapBlocks (Nat.sub_pos_of_lt h.1) i.length_pos hroom,
      hstart, hstop, ih h.2, ackBlocks_isEmpty, rangeCalls]

theorem blockSpan_append (a b : List (Nat × Nat)) :
    blockSpan (a ++ b) = blockSpan a + blockSpan b := by
  rw [blockSpan, List.map_append, List.sum_append]
  rfl

theorem blockSpan_gapBlocks {totalGap : Nat} (h : 0 < totalGap) (length : Nat) :
    blockSpan (gapBlocks totalGap length) = totalGap + length := by
  obtain ⟨k, hk, hlt, -⟩ := gap_eq h
  have hempty : blockSpan (List.replicate k (255, 0)) = k * 255 := by
    simp [blockSpan]
  rw [gapBlocks, hk, blockSpan_append, hempty]
  simp only [blockSpan, List.map_cons, List.map_nil, List.sum_cons, List.sum_nil]
  omega

theorem blockSpan_ackBlocks {previousStart : Nat} {is : List Interval}
    (h : Descends previousStart is) :
    blockSpan (ackBlocks previousStart is) ≤ previousStart := by
  induction is generalizing previousStart with
  | nil => exact Nat.zero_le _
  | cons i rest ih =>
    obtain ⟨hroom, hstart⟩ := h.le
    have hrest := ih h.2
    rw [ackBlocks, blockSpan_append, blockSpan_gapBlocks (Nat.sub_pos_of_lt h.1)]
    omega

theorem fst_ackBlocks {previousStart : Nat} {is : List Interval} (h : Descends previousStart is) :
    ∀ b ∈ ackBlocks previousStart is, b.1 < 256 := by
  induction is generalizing previousStart with
  | nil => intro b hb; cases hb
  | cons i rest ih =>
    intro b hb
    rcases List.mem_append.mp hb with hb | hb
    · obtain ⟨k, hk, hlt, hle⟩ := gap_eq (Nat.sub_pos_of_lt h.1)
      rcases List.mem_append.mp hb with hb | hb
      · rw [List.eq_of_mem_replicate hb]
        decide
      · rw [List.mem_singleton.mp hb, hk]
        simp only
        omega
    · exact ih h.2 b hb

/-! ### The type byte -/

/-- A type byte that announces an ack frame with these fields. -/
structure Announces (frameType : Nat) (hasAckBlocks : Bool)
    (largestAckedLength ackBlockLength : QuicPacketNumberLength) : Prop where
  byte : frameType < 256
  special : frameType &&& kQuicFrameTypeSpecialMask ≠ 0
  notStream : ¬isStreamFrame frameType
  ack : isAckFrame frameType
  blocks : extractBit frameType kQuicHasMultipleAckBlocksOffsetPre40 = hasAckBlocks
  largest : readAckPacketNumberLength (extractBits frameType kQuicSequenceNumberLengthNumBits
    kLargestAckedOffset) = largestAckedLength
  block : readAckPacketNumberLength (extractBits frameType kQuicSequenceNumberLengthNumBits
    kActBlockLengthOffset) = ackBlockLength

theorem announces_ackTypeByte (hasAckBlocks : Bool) {large small : QuicPacketNumberLength}
    (hlarge : large ≠ .eightByte) (hsmall : small ≠ .eightByte) :
    Announces (ackTypeByte hasAckBlocks large small) hasAckBlocks large small := by
  cases hasAckBlocks <;> cases large <;> cases small <;>
    first
    | exact absurd rfl hlarge
    | exact absurd rfl hsmall
    | exact ⟨by decide, by decide, by decide, by decide, by decide, by decide, by decide⟩

theorem getMinPacketNumberLength_ne (n : Nat) : getMinPacketNumberLength n ≠ .eightByte := by
  unfold getMinPacketNumberLength
  split_ifs <;> exact QuicPacketNumberLength.noConfusion

theorem announces_frameTypeByte (frame : QuicAckFrame) :
    Announces (frameTypeByte frame) (decide ((getAckFrameInfo frame).numAckBlocks ≠ 0))
      (largestAckedLength frame) (ackBlockLength frame) :=
  announces_ackTypeByte _ (getMinPacketNumberLength_ne _) (getMinPacketNumberLength_ne _)

/-! ### Reading a frame -/

/-- What a receiver puts in an ack frame: something is acknowledged, `largest_acked` is the
largest number, and it has 48 bits. -/
structure QuicAckFrame.WellFormed (frame : QuicAckFrame) : Prop where
  nonempty : frame.packets.intervals ≠ []
  largest : ∀ i, frame.packets.intervals.getLast? = some i → frame.largestAcked + 1 = i.max
  below : frame.largestAcked < 2 ^ 48

/-- A well-formed frame, newest interval first. -/
theorem QuicAckFrame.WellFormed.shape {frame : QuicAckFrame} (h : frame.WellFormed) :
    ∃ newest rest, frame.newestFirst = newest :: rest ∧ Descends newest.min rest ∧
      frame.largestAcked + 1 = newest.max := by
  cases hcases : frame.newestFirst with
  | nil => exact absurd (List.reverse_eq_nil_iff.mp hcases) h.nonempty
  | cons newest rest =>
    have hreverse : frame.packets.intervals.reverse = newest :: rest := hcases
    refine ⟨newest, rest, rfl, frame.descends hcases, ?_⟩
    apply h.largest
    rw [List.getLast?_eq_head?_reverse, hreverse, List.head?_cons]

section Frame
variable {visitor : Visitor} {blocks : List (Nat × Nat)}

/-- The ranges of a frame whose first block has `length` packets up to `largestAcked`. -/
theorem reads_processAckRanges (hv : visitor.Accepts) {len : QuicPacketNumberLength}
    {largestAcked length : Nat} (hpos : 0 < length) (hle : length ≤ largestAcked + 1)
    (hfirst : length < 256 ^ len.bytes) (hn : blocks.length < 256)
    (hblocks : Readable len.bytes (largestAcked + 1 - length) blocks) :
    Reads (processAckRanges visitor (decide (0 < blocks.length)) len largestAcked)
      (ackBlockCountBytes blocks.length ++ (bigEndian len.bytes length ++
        (blocksBytes len blocks ++ [0])))
      (.onAckRange (largestAcked + 1 - length) (largestAcked + 1) (!decide (0 < blocks.length)) ::
        blockCalls (largestAcked + 1 - length) blocks) () := by
  have hvalid : AckFields.Valid ⟨length, blocks, 0, []⟩ (decide (0 < blocks.length)) len
      largestAcked := by
    refine ⟨hn, fun hnone => ?_, hfirst, fun hzero => absurd hzero hpos.ne', hle, hblocks,
      show 0 < 256 by decide, rfl⟩
    rw [decide_eq_false_iff_not, Nat.not_lt, Nat.le_zero, List.length_eq_zero_iff] at hnone
    exact hnone
  have hbytes : AckFields.bytes ⟨length, blocks, 0, []⟩ (decide (0 < blocks.length)) len =
      ackBlockCountBytes blocks.length ++ (bigEndian len.bytes length ++
        (blocksBytes len blocks ++ [0])) := by
    simp only [AckFields.bytes, ackBlockCountBytes, decide_eq_true_eq]
    rfl
  rw [← hbytes]
  exact hvalid.reads hv

end Frame

/-- A well-formed frame, taken apart. -/
structure Shaped (frame : QuicAckFrame) (newest : Interval) (rest : List Interval) : Prop where
  newestFirst : frame.newestFirst = newest :: rest
  descends : Descends newest.min rest
  largest : frame.largestAcked + 1 = newest.max
  below : frame.largestAcked < 2 ^ 48

/-- A frame with something to acknowledge, where `largest_acked` need not be acknowledged
itself. -/
structure Listed (frame : QuicAckFrame) (newest : Interval) (rest : List Interval) : Prop where
  newestFirst : frame.newestFirst = newest :: rest
  descends : Descends newest.min rest
  within : newest.max ≤ frame.largestAcked + 1
  below : frame.largestAcked < 2 ^ 48

theorem Shaped.listed {frame : QuicAckFrame} {newest : Interval} {rest : List Interval}
    (h : Shaped frame newest rest) : Listed frame newest rest :=
  ⟨h.newestFirst, h.descends, h.largest.ge, h.below⟩

section Listed
variable {frame : QuicAckFrame} {newest : Interval} {rest : List Interval}

theorem Listed.moreBlocks (h : Listed frame newest rest) :
    frame.moreBlocks = ackBlocks newest.min rest := by
  rw [QuicAckFrame.moreBlocks, h.newestFirst]

theorem Listed.counts (h : Listed frame newest rest) :
    Counts ⟨newest.length, newest.length, 0⟩ frame.moreBlocks (max newest.length (2 ^ 48 - 1))
      (getAckFrameInfo frame) := by
  apply frame.counts h.newestFirst
  intro i hi
  have hlt := h.descends.max_lt i hi
  have hmax := h.within
  have hbelow := h.below
  have hne := newest.nonempty
  unfold Interval.length
  omega

theorem Listed.hasBlocks (h : Listed frame newest rest) :
    (getAckFrameInfo frame).numAckBlocks ≠ 0 ↔ rest ≠ [] := by
  have hnumber := h.counts.number
  have hempty : frame.moreBlocks.length = 0 ↔ rest = [] := by
    rw [h.moreBlocks, List.length_eq_zero_iff, ← List.isEmpty_iff, ackBlocks_isEmpty,
      List.isEmpty_iff]
  rw [← not_iff_not, not_not, not_not, ← hempty]
  simp only at hnumber
  omega

/-- Every block that can be written has a length that its field holds. -/
theorem Listed.fits (h : Listed frame newest rest) (hlength : newest.length < 2 ^ 48) :
    newest.length < 256 ^ (ackBlockLength frame).bytes ∧
      ∀ b ∈ frame.moreBlocks.take 255, b.2 < 256 ^ (ackBlockLength frame).bytes := by
  have hbound : (getAckFrameInfo frame).maxBlockLength < 2 ^ 48 := by
    have hmax := h.counts.bounded (Nat.le_max_left _ _)
    omega
  have hholds := lt_getMinPacketNumberLength hbound
  exact ⟨h.counts.grows.trans_lt hholds, fun b hb => (h.counts.covers b hb).trans_lt hholds⟩

theorem Listed.length_le (h : Listed frame newest rest) :
    newest.length ≤ frame.largestAcked + 1 ∧
      newest.min ≤ frame.largestAcked + 1 - newest.length := by
  have hwithin := h.within
  have hne := newest.nonempty
  unfold Interval.length
  omega

theorem Listed.readable (h : Listed frame newest rest) (hlength : newest.length < 2 ^ 48) {n : Nat}
    (hn : n ≤ 255) :
    Readable (ackBlockLength frame).bytes (frame.largestAcked + 1 - newest.length)
      (frame.moreBlocks.take n) := by
  refine ⟨?_, ?_⟩
  · intro b hb
    refine ⟨?_, (h.fits hlength).2 b (List.take_subset_take_left _ hn hb)⟩
    rw [h.moreBlocks] at hb
    exact fst_ackBlocks h.descends b (List.mem_of_mem_take hb)
  · have hspan := blockSpan_ackBlocks h.descends
    have hmin := h.length_le.2
    rw [← h.moreBlocks, ← List.take_append_drop n frame.moreBlocks, blockSpan_append] at hspan
    omega

/-- The delay that the parser reports. -/
def reportedDelay (frame : QuicAckFrame) : Int :=
  ackDelay (fromUFloat16 (toUFloat16 (ackDelayTimeUs frame) % 256 ^ 2))

/-- The parser gets through the fields before the ranges. -/
theorem processAckFrame_header {visitor : Visitor} (hv : visitor.Accepts)
    (hbelow : frame.largestAcked < 2 ^ 48) (bytes : List UInt8) (calls : List Call) :
    processAckFrame visitor (frameTypeByte frame)
      ⟨bigEndian (largestAckedLength frame).bytes frame.largestAcked ++
        (bigEndian 2 (toUFloat16 (ackDelayTimeUs frame)) ++ bytes), calls⟩ =
    processAckRanges visitor (decide ((getAckFrameInfo frame).numAckBlocks ≠ 0))
      (ackBlockLength frame) frame.largestAcked
      ⟨bytes, calls ++ [.onAckFrameStart frame.largestAcked (reportedDelay frame)]⟩ := by
  have htype := announces_frameTypeByte frame
  have hlargest := reads_uint (κ := Call) (lt_getMinPacketNumberLength hbelow)
    "Unable to read largest acked."
  have hreport := reads_reportAck hv (.onAckFrameStart frame.largestAcked (reportedDelay frame))
    bytes calls
  rw [List.nil_append] at hreport
  unfold processAckFrame
  rw [htype.blocks, htype.block, htype.largest, largestAckedLength, Parse.bind_ok (hlargest _ _),
    Parse.bind_ok (reads_ufloat16 _ _ _ _)]
  simp only [List.append_nil]
  exact Parse.bind_ok hreport

/-- A frame with `n` blocks, of a frame that has blocks exactly if `n` is positive. The ranges
hang from `largest_acked`, whether it is acknowledged or not. -/
theorem Listed.reads {visitor : Visitor} (hv : visitor.Accepts) (h : Listed frame newest rest)
    (hlength : newest.length < 2 ^ 48) {n : Nat} (hn : n ≤ 255)
    (hle : n ≤ frame.moreBlocks.length) (hpos : 0 < n ↔ rest ≠ []) :
    Reads (processAckFrame visitor (frameTypeByte frame)) (ackBodyBytes frame n)
      (.onAckFrameStart frame.largestAcked (reportedDelay frame) ::
        .onAckRange (frame.largestAcked + 1 - newest.length) (frame.largestAcked + 1)
          (decide (rest = [])) ::
        blockCalls (frame.largestAcked + 1 - newest.length) (frame.moreBlocks.take n)) () := by
  have htake : (frame.moreBlocks.take n).length = n := by
    rw [List.length_take]
    omega
  have hhas : decide ((getAckFrameInfo frame).numAckBlocks ≠ 0) = decide (0 < n) :=
    decide_eq_decide.mpr (h.hasBlocks.trans hpos.symm)
  have hlast : (!decide (0 < n)) = decide (rest = []) := by
    rw [← decide_not]
    exact decide_eq_decide.mpr (by rw [hpos, not_not])
  have hlt : (frame.moreBlocks.take n).length < 256 := by omega
  have hranges := reads_processAckRanges hv newest.length_pos h.length_le.1 (h.fits hlength).1 hlt
    (h.readable hlength hn)
  rw [htake, hlast, ← hhas] at hranges
  intro after calls
  have hfirst : (getAckFrameInfo frame).firstBlockLength = newest.length := h.counts.first
  rw [ackBodyBytes, hfirst, List.append_assoc, List.append_assoc,
    processAckFrame_header hv h.below, hranges, List.append_assoc]
  rfl

end Listed

theorem Shaped.reads {frame : QuicAckFrame} {newest : Interval} {rest : List Interval}
    {visitor : Visitor} (hv : visitor.Accepts) (h : Shaped frame newest rest)
    (hlength : newest.length < 2 ^ 48) {n : Nat} (hn : n ≤ 255)
    (hle : n ≤ frame.moreBlocks.length) (hpos : 0 < n ↔ rest ≠ []) :
    Reads (processAckFrame visitor (frameTypeByte frame)) (ackBodyBytes frame n)
      (.onAckFrameStart frame.largestAcked (reportedDelay frame) ::
        .onAckRange newest.min newest.max (decide (rest = [])) ::
        blockCalls newest.min (frame.moreBlocks.take n)) () := by
  have hstart : newest.max - newest.length = newest.min := Nat.sub_sub_self newest.nonempty.le
  have hreads := h.listed.reads hv hlength hn hle hpos
  rwa [h.largest, hstart] at hreads

/-! ### A packet that is one ack frame -/

section Packet
variable {visitor : Visitor} {frameType : Nat} {body : List UInt8} {calls : List Call}

theorem reads_processFrame (header : QuicPacketHeader) {hasAckBlocks : Bool}
    {large small : QuicPacketNumberLength} (htype : Announces frameType hasAckBlocks large small)
    (h : Reads (processAckFrame visitor frameType) body calls ()) :
    Reads (processFrame visitor header) (UInt8.ofNat frameType :: body) calls true := by
  unfold processFrame
  refine Reads.bind (b := [UInt8.ofNat frameType]) (k := [])
    ((reads_uint htype.byte _).mapError _) ?_
  rw [if_pos htype.special, processSpecialFrame, if_neg htype.notStream, if_pos htype.ack]
  exact (h.mapError _).map fun _ => true

/-- The first frame of a packet is an ack frame: the parser reads it, and goes on with the
rest if it is well-formed. -/
theorem processFrameData_ack (header : QuicPacketHeader) {t : UInt8}
    (hspecial : t.toNat &&& kQuicFrameTypeSpecialMask ≠ 0) (hstream : ¬isStreamFrame t.toNat)
    (hack : isAckFrame t.toNat) (body : List UInt8) :
    processFrameData visitor header ⟨t :: body, []⟩ =
      match processAckFrame visitor t.toNat ⟨body, []⟩ with
      | (.ok _, c) => processFrames visitor header body.length c
      | (.error e, c) => (.error ⟨.invalidAckData, e⟩, c) := by
  have hremaining : (Parse.remaining : Parse FramerError Call Nat) ⟨t :: body, []⟩ =
    (.ok (body.length + 1), ⟨t :: body, []⟩) := rfl
  have hrefuse : (Parse.refuse (body.length + 1 = 0) ⟨.missingPayload, "Packet has no frames."⟩ :
      Parse FramerError Call Unit) ⟨t :: body, []⟩ = (.ok (), ⟨t :: body, []⟩) := rfl
  have htype : raising .invalidFrameData (readUInt8 "Unable to read frame type.") ⟨t :: body, []⟩ =
      (.ok t.toNat, ⟨body, []⟩) := by
    have hbyte : t.toNat < 256 ^ 1 := t.toNat_lt
    have hread := (reads_uint (κ := Call) hbyte "Unable to read frame type.").mapError
      (fun detail => (⟨.invalidFrameData, detail⟩ : FramerError)) body []
    rw [show bigEndian 1 t.toNat = [t] by simp [bigEndian]] at hread
    exact hread
  rw [processFrameData, Parse.bind_ok hremaining, Parse.bind_ok hrefuse, processFrames,
    Parse.bind_ok hremaining, if_neg (Nat.succ_ne_zero _)]
  have hframe : processFrame visitor header ⟨t :: body, []⟩ =
      (raising .invalidAckData (processAckFrame visitor t.toNat) >>= fun _ => pure true)
        ⟨body, []⟩ := by
    rw [processFrame, Parse.bind_ok htype, if_pos hspecial, processSpecialFrame, if_neg hstream,
      if_pos hack]
  rcases hparse : processAckFrame visitor t.toNat ⟨body, []⟩ with ⟨e | a, c⟩
  · have hraise : raising .invalidAckData (processAckFrame visitor t.toNat) ⟨body, []⟩ =
        (.error ⟨.invalidAckData, e⟩, c) := by
      rw [raising, Parse.mapError, hparse]
    rw [Parse.bind_error (hframe.trans (Parse.bind_error hraise))]
  · have hraise : raising .invalidAckData (processAckFrame visitor t.toNat) ⟨body, []⟩ =
        (.ok a, c) := by
      rw [raising, Parse.mapError, hparse]
    rw [Parse.bind_ok (hframe.trans (Parse.bind_ok hraise))]
    rfl

theorem processFrames_done (header : QuicPacketHeader) (rounds : Nat) (c : Cursor Call)
    (h : c.rest = []) : processFrames visitor header rounds c = (.ok (), c) := by
  cases rounds with
  | zero => rfl
  | succ rounds =>
    have hremaining : (Parse.remaining : Parse FramerError Call Nat) c = (.ok 0, c) := by
      rw [Parse.remaining, h]
      rfl
    rw [processFrames, Parse.bind_ok hremaining, if_pos rfl]
    rfl

theorem processFrameData_frame (header : QuicPacketHeader) {bytes : List UInt8} (hne : bytes ≠ [])
    (h : Reads (processFrame visitor header) bytes calls true) :
    processFrameData visitor header ⟨bytes, []⟩ = (.ok (), ⟨[], calls⟩) := by
  have hlength : bytes.length ≠ 0 := fun h0 => hne (List.length_eq_zero_iff.mp h0)
  obtain ⟨rounds, hrounds⟩ := Nat.exists_eq_succ_of_ne_zero hlength
  have hremaining : (Parse.remaining : Parse FramerError Call Nat) ⟨bytes, []⟩ =
    (.ok bytes.length, ⟨bytes, []⟩) := rfl
  have hframe := h [] []
  rw [List.append_nil, List.nil_append] at hframe
  have hrefuse : (Parse.refuse (bytes.length = 0) ⟨.missingPayload, "Packet has no frames."⟩ :
      Parse FramerError Call Unit) ⟨bytes, []⟩ = (.ok (), ⟨bytes, []⟩) := by
    rw [Parse.refuse, if_neg hlength]
    rfl
  rw [processFrameData, Parse.bind_ok hremaining, Parse.bind_ok hrefuse, hrounds, processFrames,
    Parse.bind_ok hremaining, if_neg hlength, Parse.bind_ok hframe, if_pos rfl]
  exact processFrames_done header rounds _ rfl

end Packet

/-! ### Room for all blocks -/

/-- The number of ack blocks that all intervals of a frame take. -/
def QuicAckFrame.blockTotal (frame : QuicAckFrame) : Nat :=
  match frame.newestFirst with
  | [] => 0
  | newest :: rest => blockCount newest.min rest

/-- The size of a frame with `blocks` ack blocks after the first. -/
def ackFrameSize (frame : QuicAckFrame) (blocks : Nat) : Nat :=
  getMinAckFrameSize (largestAckedLength frame) + (if blocks = 0 then 0 else 1) +
    (ackBlockLength frame).bytes + blocks * ((ackBlockLength frame).bytes + 1)

theorem length_blocksBytes (len : QuicPacketNumberLength) (blocks : List (Nat × Nat)) :
    (blocksBytes len blocks).length = blocks.length * (len.bytes + 1) := by
  induction blocks with
  | nil => rw [List.length_nil, Nat.zero_mul]; rfl
  | cons b rest ih =>
    have hcons : blocksBytes len (b :: rest) =
      UInt8.ofNat b.1 :: bigEndian len.bytes b.2 ++ blocksBytes len rest := rfl
    rw [hcons, List.length_append, ih, List.length_cons, length_bigEndian, List.length_cons,
      Nat.succ_mul]
    omega

theorem length_ackFrame (frame : QuicAckFrame) {n : Nat} (hn : n ≤ frame.moreBlocks.length) :
    (UInt8.ofNat (frameTypeByte frame) :: ackBodyBytes frame n).length = ackFrameSize frame n := by
  have hcount : (ackBlockCountBytes n).length = if n = 0 then 0 else 1 := by
    unfold ackBlockCountBytes
    split_ifs <;> first | rfl | omega
  simp only [ackBodyBytes, List.length_cons, List.length_append, length_bigEndian, hcount,
    length_blocksBytes, List.length_take, Nat.min_eq_left hn, ackFrameSize, getMinAckFrameSize,
    List.length_nil]
  omega

section Listed
variable {frame : QuicAckFrame} {newest : Interval} {rest : List Interval}

theorem Listed.blockTotal (h : Listed frame newest rest) :
    frame.blockTotal = frame.moreBlocks.length := by
  rw [QuicAckFrame.blockTotal, h.newestFirst, h.moreBlocks, length_ackBlocks h.descends]

/-- The number of blocks written: all, as far as the count byte and the space allow. -/
theorem Listed.numAckBlocks_eq (h : Listed frame newest rest) (w : Buffer) :
    numAckBlocks frame w = min frame.blockTotal (min 255 (maxNumAckBlocks frame w)) := by
  have hnumber := h.counts.number
  rw [h.blockTotal]
  unfold numAckBlocks
  simp only at hnumber
  omega

/-- Where the space is an `int32_t`, as many blocks fit as the division says. -/
theorem maxNumAckBlocks_of_lt (frame : QuicAckFrame) (w : Buffer) (space : Nat)
    (hspace : space < 2 ^ 31) (hw : w.written.length + (ackBlockLength frame).bytes +
      getMinAckFrameSize (largestAckedLength frame) +
      (if (getAckFrameInfo frame).numAckBlocks ≠ 0 then 1 else 0) + space = w.capacity) :
    maxNumAckBlocks frame w = space / ((ackBlockLength frame).bytes + 1) := by
  have havailable : availableTimestampAndAckBlockBytes frame w = space := by
    unfold availableTimestampAndAckBlockBytes
    rw [← hw]
    push_cast
    rw [show ∀ a b c d e : Int, a + b + c + d + e - a - b - c - d = e by intros; omega]
    exact Int.bmod_eq_of_le (by omega) (by omega)
  rw [maxNumAckBlocks, havailable]
  have hdiv : (space : Int).tdiv ((ackBlockLength frame).bytes + 1) =
      ((space / ((ackBlockLength frame).bytes + 1) : Nat) : Int) := by
    rw [Int.ofNat_tdiv]
    rfl
  rw [hdiv, toU64, if_pos (Int.natCast_nonneg _), Int.toNat_natCast]

theorem Listed.hasBlocks_iff (h : Listed frame newest rest) :
    (getAckFrameInfo frame).numAckBlocks ≠ 0 ↔ frame.blockTotal ≠ 0 := by
  rw [h.hasBlocks, h.blockTotal, h.moreBlocks, ne_eq, ne_eq, List.length_eq_zero_iff,
    ← List.isEmpty_iff, ← List.isEmpty_iff, ackBlocks_isEmpty]

/-- With room for all blocks, all are written. -/
theorem Listed.numAckBlocks_all (h : Listed frame newest rest) (hblocks : frame.blockTotal ≤ 255)
    {w : Buffer} (hcapacity : w.written.length + ackFrameSize frame frame.blockTotal ≤ w.capacity)
    (hsmall : w.capacity - w.written.length < 2 ^ 31) :
    numAckBlocks frame w = frame.blockTotal := by
  have hif : (if (getAckFrameInfo frame).numAckBlocks ≠ 0 then 1 else 0) =
      if frame.blockTotal = 0 then 0 else 1 := by
    by_cases hzero : frame.blockTotal = 0
    · rw [if_pos hzero, if_neg fun hne => h.hasBlocks_iff.mp hne hzero]
    · rw [if_neg hzero, if_pos (h.hasBlocks_iff.mpr hzero)]
  obtain ⟨spare, hspare⟩ := Nat.exists_eq_add_of_le hcapacity
  have hmax := maxNumAckBlocks_of_lt frame w
    (frame.blockTotal * ((ackBlockLength frame).bytes + 1) + spare)
    (by unfold ackFrameSize at hspare; omega)
    (by rw [hif]; unfold ackFrameSize at hspare; omega)
  have hle : frame.blockTotal ≤ maxNumAckBlocks frame w := by
    rw [hmax, Nat.le_div_iff_mul_le (Nat.succ_pos _)]
    exact Nat.le_add_right _ _
  rw [h.numAckBlocks_eq]
  omega

end Listed

/-! ### Decoding undoes encoding -/

/-- The encoder succeeds, and the parser reports from its bytes exactly the frame's
intervals, newest first, the last one as the last. -/
def RoundTrips (visitor : Visitor) (header : QuicPacketHeader) (frame : QuicAckFrame)
    (w : Buffer) : Prop :=
  ∃ bytes delay, appendAckFrameAndTypeByte frame w = (some (), w.push bytes) ∧
    processFrameData visitor header ⟨bytes, []⟩ =
      (.ok (), ⟨[], .onAckFrameStart frame.largestAcked delay :: rangeCalls frame.newestFirst⟩)

/-- **Decoding undoes encoding** for every ack frame of at most 255 blocks, in a buffer
that has room for them and less than 2^31 bytes left. -/
theorem ack_frame_round_trip {frame : QuicAckFrame} (hframe : frame.WellFormed)
    (hmin : ∀ i ∈ frame.packets.intervals, 1 ≤ i.min) (hblocks : frame.blockTotal ≤ 255)
    {w : Buffer} (hcapacity : w.written.length + ackFrameSize frame frame.blockTotal ≤ w.capacity)
    (hsmall : w.capacity - w.written.length < 2 ^ 31) {visitor : Visitor} (hv : visitor.Accepts)
    (header : QuicPacketHeader) : RoundTrips visitor header frame w := by
  obtain ⟨newest, rest, hshape, hdescends, hlargest⟩ := hframe.shape
  have h : Shaped frame newest rest := ⟨hshape, hdescends, hlargest, hframe.below⟩
  have hnewest : newest.length < 2 ^ 48 := by
    have hpos := hmin newest (List.mem_reverse.mp (by
      show newest ∈ frame.newestFirst
      rw [hshape]
      exact List.mem_cons_self ..))
    have hbelow := hframe.below
    unfold Interval.length
    omega
  have hle : frame.blockTotal ≤ frame.moreBlocks.length := h.listed.blockTotal.le
  have hpos : 0 < frame.blockTotal ↔ rest ≠ [] := by
    rw [Nat.pos_iff_ne_zero, ← h.listed.hasBlocks_iff, h.listed.hasBlocks]
  have hreads := h.reads hv hnewest hblocks hle hpos
  have hcalls :
      blockCalls newest.min (frame.moreBlocks.take frame.blockTotal) = rangeCalls rest := by
    rw [h.listed.blockTotal, List.take_length, h.listed.moreBlocks, blockCalls_ackBlocks hdescends]
  have hfits :
      w.Fits (UInt8.ofNat (frameTypeByte frame) :: ackBodyBytes frame frame.blockTotal) := by
    rw [Buffer.Fits, length_ackFrame frame hle]
    exact hcapacity
  refine ⟨UInt8.ofNat (frameTypeByte frame) :: ackBodyBytes frame frame.blockTotal,
    reportedDelay frame, ?_, ?_⟩
  · rw [appendAckFrameAndTypeByte, h.listed.numAckBlocks_all hblocks hcapacity hsmall]
    refine ((writes_appendAckFields frame frame.blockTotal) w ?_).1 hfits
    exact (Nat.le_add_right _ _).trans hcapacity
  · have hparse := processFrameData_frame header (List.cons_ne_nil _ _)
      (reads_processFrame header (announces_frameTypeByte frame) hreads)
    rw [hparse, hcalls, hshape, rangeCalls]
    cases rest <;> rfl

def acceptAll : Visitor := fun _ _ => true

/-- Packets 1 to 10 without 5 and 8. -/
def twoMissing : QuicAckFrame :=
  ⟨10, 0, ⟨[⟨1, 5, by decide⟩, ⟨6, 8, by decide⟩, ⟨9, 11, by decide⟩], by decide⟩⟩

theorem ack_frame_round_trip_two_missing :
    twoMissing.blockTotal = 2 ∧ RoundTrips acceptAll ⟨1, .oneByte⟩ twoMissing ⟨1500, []⟩ := by
  have hframe : twoMissing.WellFormed :=
    ⟨by decide, fun i hi => by cases hi; rfl, by decide⟩
  exact ⟨by decide, ack_frame_round_trip hframe (by decide) (by decide) (by decide) (by decide)
    (fun _ _ => rfl) _⟩

/-- Packets 1 and 3. -/
def oneMissing : QuicAckFrame := ⟨3, 0, ⟨[⟨1, 2, by decide⟩, ⟨3, 4, by decide⟩], by decide⟩⟩

/-- With 2^32 + 7 bytes left, the space for ack blocks is taken to be zero. The one block
is left out, its count too, and the type byte still announces it. -/
theorem ack_frame_lost_in_large_buffer :
    oneMissing.WellFormed ∧ (∀ i ∈ oneMissing.packets.intervals, 1 ≤ i.min) ∧
      oneMissing.blockTotal ≤ 255 ∧ ackFrameSize oneMissing oneMissing.blockTotal ≤ 2 ^ 32 + 7 ∧
      ¬RoundTrips acceptAll ⟨1, .oneByte⟩ oneMissing ⟨2 ^ 32 + 7, []⟩ := by
  refine ⟨⟨by decide, fun i hi => by cases hi; rfl, by decide⟩, by decide, by decide, by decide, ?_⟩
  rintro ⟨bytes, delay, happend, hparse⟩
  have hwritten : (appendAckFrameAndTypeByte oneMissing ⟨2 ^ 32 + 7, []⟩).2.written =
      [0x60, 3, 0, 0, 1, 0] := by decide
  rw [happend] at hwritten
  have hbytes : bytes = [0x60, 3, 0, 0, 1, 0] := hwritten
  have hrejected : (processFrameData acceptAll ⟨1, .oneByte⟩
      ⟨[0x60, 3, 0, 0, 1, 0], []⟩).1.toOption = none := by decide
  rw [hbytes] at hparse
  rw [hparse] at hrejected
  cases hrejected
end CongestionResponse.Framer
