import CongestionResponse.Framer.AckWriter

/-! `MyQuicFramer` of `libquic/net`: the ack encoder with timestamps.

The encoder is that of `quic/model` with two things more. It may append the receive times of
packets, for which it checks the space with a formula of its own; and its assertions are on: a
`DCHECK` that fails ends the process. The loop that counts the blocks stops at 255, the loop
that writes them at the number that fits, and an assertion compares the two
(`counting_and_writing_agree`). The formula for the timestamps is one byte short
(`timestamps_all_or_none_iff`). -/
namespace CongestionResponse.Libquic
open Lib Quic Framer CheckedWrite

/-! ### Frames and framers -/

inductive QuicTransportVersion where
  | unsupported | version35 | version39 | version43 | version44 | version45 | version46 | version99
deriving DecidableEq

/-- An ack frame with the times at which packets arrived. -/
structure QuicAckFrame extends Framer.QuicAckFrame where
  receivedPacketTimes : List (Nat × Int)

structure MyQuicFramer where
  processTimestamps : Bool
  transportVersion : QuicTransportVersion
  creationTime : Int

/-! ### Ack blocks -/

def getMinAckFrameSize (version : QuicTransportVersion)
    (largestObservedLength : QuicPacketNumberLength) : Nat :=
  if version = .version99 then 1 + 4 else 1 + largestObservedLength.bytes + 2 + 1

section Fields
variable (framer : MyQuicFramer) (frame : Framer.QuicAckFrame)

/-- The bytes left for timestamps and blocks, in an `int32_t`. -/
def availableTimestampAndAckBlockBytes (w : Buffer) : Int :=
  Int.bmod ((w.capacity : Int) - w.written.length - (ackBlockLength frame).bytes -
    getMinAckFrameSize framer.transportVersion (largestAckedLength frame) -
    (if (getAckFrameInfo frame).numAckBlocks ≠ 0 then 1 else 0)) (2 ^ 32)

/-- A negative quotient becomes a large `size_t`. -/
def maxNumAckBlocks (w : Buffer) : Nat :=
  toU64 ((availableTimestampAndAckBlockBytes framer frame w).tdiv ((ackBlockLength frame).bytes + 1))

def numAckBlocks (w : Buffer) : Nat :=
  min (min (getAckFrameInfo frame).numAckBlocks (maxNumAckBlocks framer frame w)) 255

/-- `SetBits` asserts that each value fits its bits. -/
def appendTypeByte : CheckedWrite Unit := do
  check ((if (getAckFrameInfo frame).numAckBlocks ≠ 0 then 1 else 0) ≤ getMaskFromNumBits 1)
  check (getPacketNumberFlags (largestAckedLength frame) ≤
    getMaskFromNumBits kQuicSequenceNumberLengthNumBits)
  check (getPacketNumberFlags (ackBlockLength frame) ≤
    getMaskFromNumBits kQuicSequenceNumberLengthNumBits)
  writeUInt8 (UInt8.ofNat (frameTypeByte frame))

def appendAckDelay : CheckedWrite Unit := do
  check (frame.ackDelayTime = Delta.infinite ∨ 0 ≤ frame.ackDelayTime)
  writeUFloat16 (ackDelayTimeUs frame)

/-- The loop that writes up to `n` blocks after the first: the number of blocks written. -/
def writeAckBlocks (n : Nat) : Write Nat :=
  match frame.newestFirst with
  | [] => pure 0
  | newest :: rest => appendAckBlocks (ackBlockLength frame) n newest.min 0 rest

def appendMoreAckBlocks (n : Nat) : CheckedWrite Unit :=
  if 0 < n then do
    let numAckBlocksWritten ← writeAckBlocks frame n
    check (n = numAckBlocksWritten)
  else pure ()

/-- The fields before the timestamps, with `n` ack blocks after the first. -/
def appendAckFields (n : Nat) : CheckedWrite Unit := do
  appendTypeByte frame
  appendPacketNumber (largestAckedLength frame) frame.largestAcked
  appendAckDelay frame
  appendAckBlockCount n
  appendPacketNumber (ackBlockLength frame) (getAckFrameInfo frame).firstBlockLength
  appendMoreAckBlocks frame n

end Fields

/-! ### Timestamps -/

section Timestamps
variable (framer : MyQuicFramer) (frame : QuicAckFrame)

def kQuicNumTimestampsLength : Nat := 1
def kQuicFirstTimestampLength : Nat := 4
def kQuicTimestampLength : Nat := 2
def kQuicTimestampPacketNumberGapLength : Nat := 1

def getAckFrameTimeStampSize : Nat :=
  if frame.receivedPacketTimes = [] then 0
  else kQuicNumTimestampsLength + kQuicFirstTimestampLength +
    (kQuicTimestampLength + kQuicTimestampPacketNumberGapLength) *
      (frame.receivedPacketTimes.length - 1)

def deltaFromLargestObserved (packetNumber : Nat) : Nat := subU64 frame.largestAcked packetNumber

/-- The loop over the timestamps after the first. -/
def appendMoreTimestamps : Int → List (Nat × Int) → Write Unit
  | _, [] => pure ()
  | prevTime, (packetNumber, time) :: rest =>
    if 255 < deltaFromLargestObserved frame packetNumber then .fail
    else do
      writeUInt8 (UInt8.ofNat (deltaFromLargestObserved frame packetNumber))
      writeUFloat16 (toU64 (time - prevTime))
      appendMoreTimestamps time rest

/-- The source tests again what it has just asserted. -/
def appendTimestampsToAckFrame : CheckedWrite Unit := do
  check (frame.receivedPacketTimes.length ≤ 255)
  writeUInt8 (UInt8.ofNat frame.receivedPacketTimes.length)
  match frame.receivedPacketTimes with
  | [] => pure ()
  | (packetNumber, time) :: rest => do
    check (deltaFromLargestObserved frame packetNumber ≤ 255)
    writeUInt8 (UInt8.ofNat (deltaFromLargestObserved frame packetNumber))
    writeUInt32 (toU64 (time - framer.creationTime) % 2 ^ 32)
    appendMoreTimestamps frame time rest

/-- The timestamps, where the space is said to suffice, and else the number zero. -/
def appendTimestamps : CheckedWrite Unit := withBuffer fun w =>
  if framer.processTimestamps ∧ getAckFrameTimeStampSize frame ≤ w.remaining then
    appendTimestampsToAckFrame framer frame
  else writeUInt8 0

def appendAckFrameAndTypeByte : CheckedWrite Unit := withBuffer fun w => do
  appendAckFields frame.toQuicAckFrame (numAckBlocks framer frame.toQuicAckFrame w)
  appendTimestamps framer frame

end Timestamps

/-! ### The fields before the timestamps -/

theorem flags_le (length : QuicPacketNumberLength) :
    getPacketNumberFlags length ≤ getMaskFromNumBits kQuicSequenceNumberLengthNumBits := by
  cases length <;> decide

section Fields
variable (framer : MyQuicFramer) (frame : Framer.QuicAckFrame)

/-- The bytes before the timestamps, with `n` ack blocks after the first. -/
def fieldsBytes (n : Nat) : List UInt8 :=
  [UInt8.ofNat (frameTypeByte frame)] ++
    (bigEndian (largestAckedLength frame).bytes frame.largestAcked ++
      (bigEndian 2 (toUFloat16 (ackDelayTimeUs frame)) ++ (ackBlockCountBytes n ++
        (bigEndian (ackBlockLength frame).bytes (getAckFrameInfo frame).firstBlockLength ++
          blocksBytes (ackBlockLength frame) (frame.moreBlocks.take n)))))

theorem appends_typeByte :
    Appends (appendTypeByte frame) [UInt8.ofNat (frameTypeByte frame)] () := by
  have hbit : (if (getAckFrameInfo frame).numAckBlocks ≠ 0 then 1 else 0) ≤
      getMaskFromNumBits 1 := by
    split <;> decide
  apply Appends.after_check hbit
  apply Appends.after_check (flags_le _)
  apply Appends.after_check (flags_le _)
  exact .lift (.bytes _)

/-- The number of blocks to write, which the counting loop bounds, is a number of blocks that
there are. -/
theorem numAckBlocks_le (w : Buffer) :
    numAckBlocks framer frame w ≤ frame.moreBlocks.length := by
  have hcount := frame.count_le
  unfold numAckBlocks
  omega

variable {frame}

theorem appends_ackDelay (h : frame.ackDelayTime = Delta.infinite ∨ 0 ≤ frame.ackDelayTime) :
    Appends (appendAckDelay frame) (bigEndian 2 (toUFloat16 (ackDelayTimeUs frame))) () :=
  .after_check h (.lift (.bytes _))

variable {n : Nat}

theorem writes_writeAckBlocks (hn : n ≤ frame.moreBlocks.length) :
    Writes (writeAckBlocks frame n)
      (blocksBytes (ackBlockLength frame) (frame.moreBlocks.take n)) n := by
  unfold QuicAckFrame.moreBlocks writeAckBlocks at *
  cases hcases : frame.newestFirst with
  | nil =>
    rw [hcases] at hn
    rw [Nat.le_zero.mp hn]
    exact .pure 0
  | cons newest rest =>
    rw [hcases] at hn
    have h := writes_appendAckBlocks (ackBlockLength frame) n rest newest.min 0
    rwa [Nat.sub_zero, Nat.min_eq_right hn, Nat.zero_add] at h

/-- The assertion after the loop holds. -/
theorem appends_moreAckBlocks (hn : n ≤ frame.moreBlocks.length) :
    Appends (appendMoreAckBlocks frame n)
      (blocksBytes (ackBlockLength frame) (frame.moreBlocks.take n)) () := by
  unfold appendMoreAckBlocks
  split
  · have h := (Appends.lift (writes_writeAckBlocks hn)).bind
      (f := fun written => check (n = written)) (.check rfl)
    rwa [List.append_nil] at h
  · rename_i hzero
    rw [Nat.eq_zero_of_not_pos hzero, List.take_zero]
    exact .pure ()

theorem appends_ackFields (hdelay : frame.ackDelayTime = Delta.infinite ∨ 0 ≤ frame.ackDelayTime)
    (hn : n ≤ frame.moreBlocks.length) :
    Appends (appendAckFields frame n) (fieldsBytes frame n) () := by
  apply Appends.bind (appends_typeByte frame)
  apply Appends.bind (.lift (.bytes _))
  apply Appends.bind (appends_ackDelay hdelay)
  apply Appends.bind (.lift (writes_appendAckBlockCount n))
  apply Appends.bind (.lift (.bytes _))
  exact appends_moreAckBlocks hn

/-- What has got through the fields has a delay that the encoder accepts. -/
theorem delay_of_returns {w v : Buffer}
    (h : (appendAckFields frame n).run w = (some (some ()), v)) :
    frame.ackDelayTime = Delta.infinite ∨ 0 ≤ frame.ackDelayTime := by
  have hreturns : ((appendAckFields frame n).run w).1 = some (some ()) := by rw [h]
  obtain ⟨_, _, -, hlargest⟩ := of_bind_returns hreturns
  obtain ⟨_, _, -, hdelay⟩ := of_bind_returns hlargest
  obtain ⟨_, _, hrun, -⟩ := of_bind_returns hdelay
  have hrun : ((appendAckDelay frame).run _).1 = some (some _) := congrArg Prod.fst hrun
  obtain ⟨_, u, hcheck, -⟩ := of_bind_returns hrun
  exact of_check_returns ⟨u, hcheck⟩

end Fields

/-! ### The counting loop and the writing loop -/

/-- The two loops agree: the writing loop, wherever in the buffer it starts, ends with the
number of blocks it was to write or with a failed write, no assertion up to the one behind it
fails, and every length is written in a field that holds it. -/
structure LoopsAgree (framer : MyQuicFramer) (frame : Framer.QuicAckFrame) (w : Buffer) :
    Prop where
  atMost : numAckBlocks framer frame w ≤ 255
  notAborted :
    ((appendAckFields frame (numAckBlocks framer frame w)).run w).1 ≠ some none
  firstFits : (getAckFrameInfo frame).firstBlockLength < 256 ^ (ackBlockLength frame).bytes
  agree : ∀ u v numAckBlocksWritten, u.Fits [] →
    writeAckBlocks frame (numAckBlocks framer frame w) u = (some numAckBlocksWritten, v) →
    numAckBlocksWritten = numAckBlocks framer frame w ∧
      ∃ blocks, blocks.length = numAckBlocksWritten ∧
        v = u.push (blocksBytes (ackBlockLength frame) blocks) ∧
        ∀ b ∈ blocks, b.2 < 256 ^ (ackBlockLength frame).bytes

/-- The block length field holds the first block and the next 255. -/
theorem lengths_fit {frame : Framer.QuicAckFrame}
    (hlength : ∀ i ∈ frame.packets.intervals, i.length < 2 ^ 48) :
    (getAckFrameInfo frame).firstBlockLength < 256 ^ (ackBlockLength frame).bytes ∧
      ∀ b ∈ frame.moreBlocks.take 255, b.2 < 256 ^ (ackBlockLength frame).bytes := by
  cases hcases : frame.newestFirst with
  | nil =>
    rw [getAckFrameInfo, QuicAckFrame.moreBlocks, hcases]
    exact ⟨Nat.pow_pos (by decide), fun b hb => absurd hb List.not_mem_nil⟩
  | cons newest rest =>
    have hmem : ∀ i ∈ newest :: rest, i.length < 2 ^ 48 := by
      intro i hi
      apply hlength i
      rw [← hcases] at hi
      exact List.mem_reverse.mp hi
    have hrest : ∀ i ∈ rest, i.length ≤ 2 ^ 48 - 1 := fun i hi =>
      Nat.le_sub_one_of_lt (hmem i (List.mem_cons_of_mem _ hi))
    have hnewest := hmem newest (List.mem_cons_self ..)
    have hcounts := frame.counts hcases hrest
    have hholds : (getAckFrameInfo frame).maxBlockLength < 256 ^ (ackBlockLength frame).bytes := by
      have hmax := hcounts.bounded (Nat.le_sub_one_of_lt hnewest)
      exact lt_getMinPacketNumberLength (by omega)
    rw [hcounts.first]
    exact ⟨hcounts.grows.trans_lt hholds, fun b hb => (hcounts.covers b hb).trans_lt hholds⟩

/-- **The counting loop and the writing loop agree** for every frame of numbers below 2^48,
unless one interval has all of them, from 0 on. -/
theorem counting_and_writing_agree (framer : MyQuicFramer) {frame : Framer.QuicAckFrame}
    (hbelow : ∀ i ∈ frame.packets.intervals, i.max ≤ 2 ^ 48)
    (hmissing : ∀ i ∈ frame.packets.intervals, 0 < i.min ∨ i.max < 2 ^ 48)
    (hdelay : frame.ackDelayTime = Delta.infinite ∨ 0 ≤ frame.ackDelayTime)
    {w : Buffer} (hw : w.Fits []) : LoopsAgree framer frame w := by
  have hlength : ∀ i ∈ frame.packets.intervals, i.length < 2 ^ 48 := by
    intro i hi
    have hmax := hbelow i hi
    have hmin := hmissing i hi
    show i.max - i.min < 2 ^ 48
    omega
  obtain ⟨hfirst, hmore⟩ := lengths_fit hlength
  have hle := numAckBlocks_le framer frame w
  have hlimit : numAckBlocks framer frame w ≤ 255 := Nat.min_le_right _ _
  refine ⟨hlimit, (appends_ackFields hdelay hle).not_aborted hw, hfirst, ?_⟩
  intro u v written hu hrun
  obtain ⟨hfits, hfull⟩ := writes_writeAckBlocks hle u hu
  by_cases hroom : u.Fits (blocksBytes (ackBlockLength frame)
      (frame.moreBlocks.take (numAckBlocks framer frame w)))
  · rw [hfits hroom] at hrun
    cases hrun
    refine ⟨rfl, frame.moreBlocks.take (numAckBlocks framer frame w), ?_, rfl, ?_⟩
    · rw [List.length_take, Nat.min_eq_left hle]
    · intro b hb
      exact hmore b (List.take_subset_take_left _ hlimit hb)
  · have hnone := hfull hroom
    rw [hrun] at hnone
    cases hnone

def version43 : MyQuicFramer := ⟨false, .version43, 0⟩

/-- Packets 1 to 300 and 900: a gap of three blocks. -/
def longGap : Framer.QuicAckFrame :=
  ⟨900, 0, ⟨[⟨1, 301, by decide⟩, ⟨900, 901, by decide⟩], by decide⟩⟩

theorem counting_and_writing_agree_long_gap :
    numAckBlocks version43 longGap ⟨1500, []⟩ = 3 ∧ LoopsAgree version43 longGap ⟨1500, []⟩ :=
  ⟨by decide, counting_and_writing_agree version43 (by decide) (by decide) (by decide) (by decide)⟩

/-- All numbers below 2^48, from 0 on. -/
def everyNumber : Framer.QuicAckFrame := ⟨2 ^ 48 - 1, 0, ⟨[⟨0, 2 ^ 48, by decide⟩], by decide⟩⟩

/-- An interval of 2^48 numbers is one too many for the six bytes of its length, which are
written as zero. -/
theorem length_of_every_number_lost :
    everyNumber.packets.intervals ≠ [] ∧ (∀ i ∈ everyNumber.packets.intervals, i.max ≤ 2 ^ 48) ∧
      0 ≤ everyNumber.ackDelayTime ∧
      ((appendAckFields everyNumber 0).run ⟨1500, []⟩).2.written.drop 9 = [0, 0, 0, 0, 0, 0] ∧
      ¬LoopsAgree version43 everyNumber ⟨1500, []⟩ := by
  refine ⟨by decide, by decide, by decide, by decide, fun h => ?_⟩
  exact absurd h.firstFits (by decide)

/-! ### All timestamps or none -/

section Timestamps
variable (framer : MyQuicFramer) (frame : QuicAckFrame)

def moreTimestampsBytes : Int → List (Nat × Int) → List UInt8
  | _, [] => []
  | prevTime, (packetNumber, time) :: rest =>
    [UInt8.ofNat (deltaFromLargestObserved frame packetNumber)] ++
      (bigEndian 2 (toUFloat16 (toU64 (time - prevTime))) ++ moreTimestampsBytes time rest)

/-- The count and all timestamps. -/
def timestampsBytes : List UInt8 :=
  [UInt8.ofNat frame.receivedPacketTimes.length] ++
    match frame.receivedPacketTimes with
    | [] => []
    | (packetNumber, time) :: rest =>
      [UInt8.ofNat (deltaFromLargestObserved frame packetNumber)] ++
        (bigEndian 4 (toU64 (time - framer.creationTime) % 2 ^ 32) ++
          moreTimestampsBytes frame time rest)

theorem length_moreTimestampsBytes (prevTime : Int) (times : List (Nat × Int)) :
    (moreTimestampsBytes frame prevTime times).length = 3 * times.length := by
  induction times generalizing prevTime with
  | nil => rfl
  | cons t rest ih =>
    rw [moreTimestampsBytes, List.length_append, List.length_append, length_bigEndian, ih,
      List.length_singleton, List.length_cons]
    omega

/-- Three bytes a timestamp, with three more for the count and the longer first time. -/
theorem length_timestampsBytes (h : frame.receivedPacketTimes ≠ []) :
    (timestampsBytes framer frame).length = 3 * frame.receivedPacketTimes.length + 3 := by
  obtain ⟨⟨packetNumber, time⟩, rest, htimes⟩ := List.exists_cons_of_ne_nil h
  simp only [timestampsBytes, htimes, List.length_append, length_bigEndian,
    length_moreTimestampsBytes, List.length_cons, List.length_nil]
  omega

/-- The formula leaves out the packet number of the first timestamp. -/
theorem getAckFrameTimeStampSize_eq (h : frame.receivedPacketTimes ≠ []) :
    getAckFrameTimeStampSize frame = 3 * frame.receivedPacketTimes.length + 2 := by
  have hpos := List.length_pos_iff.mpr h
  rw [getAckFrameTimeStampSize, if_neg h]
  simp only [kQuicNumTimestampsLength, kQuicFirstTimestampLength, kQuicTimestampLength,
    kQuicTimestampPacketNumberGapLength]
  omega

/-- Each packet is at most 255 below the largest. -/
def Near : Prop := ∀ t ∈ frame.receivedPacketTimes, t.1 ≤ frame.largestAcked ∧
  frame.largestAcked ≤ t.1 + 255

variable {frame}

theorem Near.delta_le (h : Near frame) {t : Nat × Int} (ht : t ∈ frame.receivedPacketTimes) :
    deltaFromLargestObserved frame t.1 ≤ 255 := by
  obtain ⟨hle, hnear⟩ := h t ht
  rw [deltaFromLargestObserved, subU64, if_pos hle]
  omega

theorem writes_appendMoreTimestamps {times : List (Nat × Int)}
    (h : ∀ t ∈ times, deltaFromLargestObserved frame t.1 ≤ 255) (prevTime : Int) :
    Writes (appendMoreTimestamps frame prevTime times) (moreTimestampsBytes frame prevTime times)
      () := by
  induction times generalizing prevTime with
  | nil => exact .pure ()
  | cons t rest ih =>
    obtain ⟨hdelta, hrest⟩ := List.forall_mem_cons.mp h
    rw [appendMoreTimestamps, if_neg (Nat.not_lt.mpr hdelta), moreTimestampsBytes]
    apply Writes.bind (.bytes _)
    exact Writes.bind (.bytes _) (ih hrest t.2)

/-- Where the packets are near the largest, the encoder writes the count and all timestamps. -/
theorem appends_timestampsToAckFrame (hcount : frame.receivedPacketTimes.length ≤ 255)
    (hnear : Near frame) :
    Appends (appendTimestampsToAckFrame framer frame) (timestampsBytes framer frame) () := by
  apply Appends.after_check hcount
  apply Appends.bind (.lift (.bytes _))
  have hdelta : ∀ t ∈ frame.receivedPacketTimes, deltaFromLargestObserved frame t.1 ≤ 255 :=
    fun t ht => hnear.delta_le ht
  generalize frame.receivedPacketTimes = times at hdelta
  cases times with
  | nil => exact .pure ()
  | cons t rest =>
    obtain ⟨hfirst, hrest⟩ := List.forall_mem_cons.mp hdelta
    apply Appends.after_check hfirst
    apply Appends.bind (.lift (.bytes _))
    apply Appends.bind (.lift (.bytes _))
    exact .lift (writes_appendMoreTimestamps hrest t.2)

/-- Without timestamps the count is zero, whether they are processed or not. -/
theorem appends_noTimestamps (h : frame.receivedPacketTimes = []) :
    Appends (appendTimestamps framer frame) [0] () := by
  have hnear : Near frame := by
    intro t ht
    rw [h] at ht
    exact absurd ht List.not_mem_nil
  have hcount : frame.receivedPacketTimes.length ≤ 255 := by
    rw [h]
    exact Nat.zero_le _
  have hbytes : timestampsBytes framer frame = [0] := by
    rw [timestampsBytes, h]
    rfl
  have hnone := appends_timestampsToAckFrame framer hcount hnear
  rw [hbytes] at hnone
  intro w hw
  rw [appendTimestamps, run_withBuffer]
  split
  · exact hnone w hw
  · exact Appends.lift (.bytes [0]) w hw

end Timestamps

/-- The same frame without timestamps. -/
def QuicAckFrame.withoutTimestamps (frame : QuicAckFrame) : QuicAckFrame :=
  {frame with receivedPacketTimes := []}

/-- The encoder returns true and leaves the writer as `v`. -/
def Returns (framer : MyQuicFramer) (frame : QuicAckFrame) (w v : Buffer) : Prop :=
  (appendAckFrameAndTypeByte framer frame).run w = (some (some ()), v)

section Returns
variable {framer : MyQuicFramer} {frame : QuicAckFrame} {w v : Buffer}

/-- The bytes before the timestamps that a writer gets. -/
def headBytes (framer : MyQuicFramer) (frame : QuicAckFrame) (w : Buffer) : List UInt8 :=
  fieldsBytes frame.toQuicAckFrame (numAckBlocks framer frame.toQuicAckFrame w)

/-- A frame that was written had a delay the encoder accepts and room for its fields. -/
theorem Returns.fields (h : Returns framer frame w v) (hw : w.Fits []) :
    (frame.ackDelayTime = Delta.infinite ∨ 0 ≤ frame.ackDelayTime) ∧
      w.Fits (headBytes framer frame w) := by
  have hreturns := congrArg Prod.fst h
  rw [appendAckFrameAndTypeByte, run_withBuffer] at hreturns
  obtain ⟨_, u, hrun, -⟩ := of_bind_returns hreturns
  have hdelay := delay_of_returns hrun
  refine ⟨hdelay, ?_⟩
  by_contra hfull
  have hnone := (appends_ackFields hdelay (numAckBlocks_le framer _ w) w hw).2 hfull
  rw [hrun] at hnone
  cases hnone

/-- Behind the fields, the timestamps are written. -/
theorem run_of_fields (hdelay : frame.ackDelayTime = Delta.infinite ∨ 0 ≤ frame.ackDelayTime)
    (hw : w.Fits []) (hfits : w.Fits (headBytes framer frame w)) :
    (appendAckFrameAndTypeByte framer frame).run w =
      (appendTimestamps framer frame).run (w.push (headBytes framer frame w)) := by
  have hfields := (appends_ackFields hdelay (numAckBlocks_le framer _ w) w hw).1 hfits
  rw [appendAckFrameAndTypeByte, run_withBuffer, bind_returned hfields]
  rfl

/-- A frame without timestamps that was written ends with the count zero. -/
theorem Returns.zero_count (h : Returns framer frame w v) (hw : w.Fits [])
    (hnone : frame.receivedPacketTimes = []) :
    (w.push (headBytes framer frame w)).Fits [0] ∧
      v = (w.push (headBytes framer frame w)).push [0] := by
  obtain ⟨hdelay, hfits⟩ := h.fields hw
  have hreturns := (run_of_fields hdelay hw hfits).symm.trans h
  obtain ⟨hroom, hfull⟩ := appends_noTimestamps framer hnone
    (w.push (headBytes framer frame w)) (Buffer.fits_nil hfits)
  by_cases hzero : (w.push (headBytes framer frame w)).Fits [0]
  · rw [hroom hzero] at hreturns
    exact ⟨hzero, (Prod.ext_iff.mp hreturns).2.symm⟩
  · have hfails := hfull hzero
    rw [hreturns] at hfails
    cases hfails

/-- Where the frame without timestamps was written, the frame itself is written as far, and
what follows depends on the space there. -/
theorem Returns.behind_fields (h : Returns framer frame.withoutTimestamps w v)
    (hw : w.Fits []) :
    ∃ head, (w.push head).Fits [0] ∧ v = (w.push head).push [0] ∧
      (appendAckFrameAndTypeByte framer frame).run w =
        (appendTimestamps framer frame).run (w.push head) := by
  obtain ⟨hdelay, hfits⟩ := h.fields hw
  obtain ⟨hzero, hv⟩ := h.zero_count hw rfl
  exact ⟨headBytes framer frame w, hzero, hv, run_of_fields hdelay hw hfits⟩

/-- The three cases of the space behind the fields, for `k` timestamps: too little for them,
enough, and what the formula takes for enough. -/
theorem run_appendTimestamps_cases {u : Buffer} (hprocess : framer.processTimestamps = true)
    (hcount : frame.receivedPacketTimes.length ≤ 255) (hnear : Near frame)
    (hsome : frame.receivedPacketTimes ≠ []) (hu : u.Fits [0]) :
    (u.remaining < 3 * frame.receivedPacketTimes.length + 2 →
      (appendTimestamps framer frame).run u = (some (some ()), u.push [0])) ∧
    (3 * frame.receivedPacketTimes.length + 3 ≤ u.remaining →
      (appendTimestamps framer frame).run u =
        (some (some ()), u.push (timestampsBytes framer frame))) ∧
    (u.remaining = 3 * frame.receivedPacketTimes.length + 2 →
      ((appendTimestamps framer frame).run u).1 = none) := by
  have hnil : u.Fits [] := (Nat.le_add_right _ _).trans hu
  obtain ⟨hroom, hfull⟩ := appends_timestampsToAckFrame framer hcount hnear u hnil
  have hfits := Buffer.fits_iff hnil (timestampsBytes framer frame)
  rw [length_timestampsBytes framer frame hsome] at hfits
  rw [appendTimestamps, run_withBuffer, getAckFrameTimeStampSize_eq frame hsome]
  refine ⟨fun hlittle => ?_, fun henough => ?_, fun hshort => ?_⟩
  · rw [if_neg fun h => absurd h.2 (Nat.not_le.mpr hlittle)]
    exact (Appends.lift (.bytes [0]) u hnil).1 hu
  · rw [if_pos ⟨hprocess, by omega⟩]
    exact hroom (hfits.mpr henough)
  · rw [if_pos ⟨hprocess, hshort.ge⟩]
    exact hfull fun h => by
      have := hfits.mp h
      omega

/-- The frame is written as without timestamps, up to the count, and then with the count and
all timestamps or with a single zero. -/
def AllOrNone (framer : MyQuicFramer) (frame : QuicAckFrame) (w : Buffer) : Prop :=
  ∃ head, Returns framer frame.withoutTimestamps w (w.push (head ++ [0])) ∧
    (Returns framer frame w (w.push (head ++ timestampsBytes framer frame)) ∨
      Returns framer frame w (w.push (head ++ [0])))

theorem not_allOrNone (h : ((appendAckFrameAndTypeByte framer frame).run w).1 = none) :
    ¬AllOrNone framer frame w := by
  rintro ⟨_, -, hreturns | hreturns⟩
  · rw [hreturns] at h
    cases h
  · rw [hreturns] at h
    cases h

/-- **All timestamps or none**, exactly if the writer, after the frame without its `k`
timestamps, would not have just `3 * k + 1` bytes left. With that many the formula for their
size lets them be written, and they take one byte more. -/
theorem timestamps_all_or_none_iff (hprocess : framer.processTimestamps = true)
    (hcount : frame.receivedPacketTimes.length ≤ 255) (hnear : Near frame) (hw : w.Fits [])
    (hsuffices : Returns framer frame.withoutTimestamps w v) :
    AllOrNone framer frame w ↔
      frame.receivedPacketTimes = [] ∨
        v.remaining ≠ 3 * frame.receivedPacketTimes.length + 1 := by
  obtain ⟨head, hzero, hv, hrun⟩ := hsuffices.behind_fields hw
  have hbase : Returns framer frame.withoutTimestamps w (w.push (head ++ [0])) := by
    rw [Buffer.push_append, ← hv]
    exact hsuffices
  by_cases hnone : frame.receivedPacketTimes = []
  · have hsame : frame.withoutTimestamps = frame := by
      rw [QuicAckFrame.withoutTimestamps, ← hnone]
    refine ⟨fun _ => .inl hnone, fun _ => ⟨head, hbase, .inr ?_⟩⟩
    rwa [hsame] at hbase
  have hremaining := Buffer.remaining_push hzero
  rw [← hv, List.length_singleton] at hremaining
  obtain ⟨hlittle, henough, hshort⟩ :=
    run_appendTimestamps_cases hprocess hcount hnear hnone hzero
  constructor
  · intro hall
    refine .inr fun hexact => ?_
    have hfails := hshort (by omega)
    rw [← hrun] at hfails
    exact not_allOrNone hfails hall
  · rintro (hempty | hexact)
    · exact absurd hempty hnone
    · refine ⟨head, hbase, ?_⟩
      rcases Nat.lt_or_ge v.remaining (3 * frame.receivedPacketTimes.length + 1) with hlt | hge
      · refine .inr (hrun.trans ?_)
        rw [Buffer.push_append]
        exact hlittle (by omega)
      · refine .inl (hrun.trans ?_)
        rw [Buffer.push_append]
        exact henough (by omega)

end Returns

def withTimestamps : MyQuicFramer := ⟨true, .version43, 0⟩

/-- Packet 7, which arrived at time 0. -/
def oneArrival : QuicAckFrame := ⟨⟨7, 0, ⟨[⟨7, 8, by decide⟩], by decide⟩⟩, [(7, 0)]⟩

theorem timestamps_all_or_none_eleven_bytes : AllOrNone withTimestamps oneArrival ⟨11, []⟩ := by
  have hsuffices : Returns withTimestamps oneArrival.withoutTimestamps ⟨11, []⟩
    ⟨11, [0x40, 7, 0, 0, 1, 0]⟩ := rfl
  have hnear : Near oneArrival := by
    unfold Near
    decide
  exact (timestamps_all_or_none_iff rfl (by decide) hnear (by decide) hsuffices).mpr
    (.inr (by decide))

/-- Six bytes are enough for the frame without its timestamp. With ten, the formula says that
five are enough for the timestamp, which takes six, and the ack fails. -/
theorem ack_fails_for_timestamp :
    withTimestamps.processTimestamps = true ∧ oneArrival.packets.intervals ≠ [] ∧
      oneArrival.receivedPacketTimes.length ≤ 255 ∧
      oneArrival.receivedPacketTimes.Pairwise (fun s t => s.2 ≤ t.2) ∧ Near oneArrival ∧
      Returns withTimestamps oneArrival.withoutTimestamps ⟨10, []⟩ ⟨10, [0x40, 7, 0, 0, 1, 0]⟩ ∧
      ((appendAckFrameAndTypeByte withTimestamps oneArrival).run ⟨10, []⟩).1 = none ∧
      ¬AllOrNone withTimestamps oneArrival ⟨10, []⟩ := by
  have hfails : ((appendAckFrameAndTypeByte withTimestamps oneArrival).run ⟨10, []⟩).1 = none := by
    decide
  have hnear : Near oneArrival := by
    unfold Near
    decide
  exact ⟨rfl, by decide, by decide, by decide, hnear, rfl, hfails, not_allOrNone hfails⟩

end CongestionResponse.Libquic
