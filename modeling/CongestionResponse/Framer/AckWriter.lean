import CongestionResponse.Framer.Frames

/-! `MyQuicFramer::AppendAckFrameAndTypeByte`: the encoder of ack frames.

An ack frame is written newest interval first. After the newest, every interval is an
*ack block*: the gap above it and its length. A gap of more than 255 packets is a chain of
empty blocks before it. `ackBlocks` lists the blocks of all intervals;
`writes_appendAckBlocks` says that the loop of the source writes the first `n` of them,
and `getAckFrameInfo_spec` what the counting loop knows of them. -/
namespace CongestionResponse.Framer
open Lib Quic

/-! ### Counting the blocks -/

structure AckFrameInfo where
  maxBlockLength : Nat
  firstBlockLength : Nat
  numAckBlocks : Nat

/-- The blocks it takes to bridge a gap. -/
def numEncodedGaps (totalGap : Nat) : Nat := (totalGap + 255 - 1) / 255

/-- The loop of `GetAckFrameInfo`, over the intervals from newest to oldest. -/
def countAckBlocks : Nat → AckFrameInfo → List Interval → AckFrameInfo
  | _, info, [] => info
  | previousStart, info, interval :: rest =>
    if info.numAckBlocks < 255 then
      countAckBlocks interval.min
        {info with
          numAckBlocks := info.numAckBlocks + numEncodedGaps (previousStart - interval.max)
          maxBlockLength := max info.maxBlockLength interval.length} rest
    else info

/-- The intervals of a frame, newest first. -/
def QuicAckFrame.newestFirst (frame : QuicAckFrame) : List Interval :=
  frame.packets.intervals.reverse

def getAckFrameInfo (frame : QuicAckFrame) : AckFrameInfo :=
  match frame.newestFirst with
  | [] => ⟨0, 0, 0⟩
  | newest :: rest => countAckBlocks newest.min ⟨newest.length, newest.length, 0⟩ rest

/-! ### Writing -/

def appendPacketNumber (length : QuicPacketNumberLength) (packetNumber : Nat) : Write Unit :=
  writeBytesToUInt64 length.bytes packetNumber

def appendAckBlock (gap : Nat) (lengthLength : QuicPacketNumberLength) (length : Nat) :
    Write Unit := do
  writeUInt8 (UInt8.ofNat gap)
  appendPacketNumber lengthLength length

/-- The loop that bridges a gap with `todo` empty blocks, up to `n` blocks in all: the
number of blocks written. -/
def appendEmptyAckBlocks (ackBlockLength : QuicPacketNumberLength) (n : Nat) :
    Nat → Nat → Write Nat
  | 0, written => pure written
  | todo + 1, written =>
    if written < n then do
      appendAckBlock 255 ackBlockLength 0
      appendEmptyAckBlocks ackBlockLength n todo (written + 1)
    else pure written

/-- The loop over the intervals, from newest to oldest. -/
def appendAckBlocks (ackBlockLength : QuicPacketNumberLength) (n : Nat) :
    Nat → Nat → List Interval → Write Nat
  | _, written, [] => pure written
  | previousStart, written, interval :: rest =>
    if written < n then do
      let totalGap := previousStart - interval.max
      let written ← appendEmptyAckBlocks ackBlockLength n (numEncodedGaps totalGap - 1) written
      if n ≤ written then pure written
      else do
        appendAckBlock (totalGap - (numEncodedGaps totalGap - 1) * 255) ackBlockLength
          interval.length
        appendAckBlocks ackBlockLength n interval.min (written + 1) rest
    else pure written

section Frame
variable (frame : QuicAckFrame)

def largestAckedLength : QuicPacketNumberLength := getMinPacketNumberLength frame.largestAcked

def ackBlockLength : QuicPacketNumberLength :=
  getMinPacketNumberLength (getAckFrameInfo frame).maxBlockLength

/-- Type byte, largest acked, its delta time and the number of timestamps. -/
def getMinAckFrameSize (largestObservedLength : QuicPacketNumberLength) : Nat :=
  1 + largestObservedLength.bytes + 2 + 1

/-- The bytes left for blocks, in an `int32_t`. -/
def availableTimestampAndAckBlockBytes (w : Buffer) : Int :=
  Int.bmod ((w.capacity : Int) - w.written.length - (ackBlockLength frame).bytes -
    getMinAckFrameSize (largestAckedLength frame) -
    (if (getAckFrameInfo frame).numAckBlocks ≠ 0 then 1 else 0)) (2 ^ 32)

/-- A negative quotient becomes a large `size_t`. -/
def maxNumAckBlocks (w : Buffer) : Nat :=
  toU64 ((availableTimestampAndAckBlockBytes frame w).tdiv ((ackBlockLength frame).bytes + 1))

def numAckBlocks (w : Buffer) : Nat :=
  min (min (getAckFrameInfo frame).numAckBlocks (maxNumAckBlocks frame w)) 255

def ackTypeByte (hasMultipleBlocks : Bool)
    (largestAckedLength ackBlockLength : QuicPacketNumberLength) : Nat :=
  let typeByte := setBit 0 hasMultipleBlocks kQuicHasMultipleAckBlocksOffsetPre40
  let typeByte := setBits typeByte (getPacketNumberFlags largestAckedLength) kLargestAckedOffset
  let typeByte := setBits typeByte (getPacketNumberFlags ackBlockLength) kActBlockLengthOffset
  typeByte ||| kQuicFrameTypeAckMaskPre40

def ackDelayTimeUs : Nat :=
  if frame.ackDelayTime = Delta.infinite then kUFloat16MaxValue else toU64 frame.ackDelayTime

/-- The count, which is left out where there is no block. -/
def appendAckBlockCount (n : Nat) : Write Unit :=
  if 0 < n then writeUInt8 (UInt8.ofNat n) else pure ()

def appendMoreAckBlocks (n : Nat) : Write Unit :=
  if 0 < n then
    match frame.newestFirst with
    | [] => pure ()
    | newest :: rest => do
      let _ ← appendAckBlocks (ackBlockLength frame) n newest.min 0 rest
      pure ()
  else pure ()

/-- The fields of the frame, with `n` ack blocks after the first. -/
def appendAckFields (n : Nat) : Write Unit := do
  writeUInt8 (UInt8.ofNat (ackTypeByte (decide ((getAckFrameInfo frame).numAckBlocks ≠ 0))
    (largestAckedLength frame) (ackBlockLength frame)))
  appendPacketNumber (largestAckedLength frame) frame.largestAcked
  writeUFloat16 (ackDelayTimeUs frame)
  appendAckBlockCount n
  appendPacketNumber (ackBlockLength frame) (getAckFrameInfo frame).firstBlockLength
  appendMoreAckBlocks frame n
  writeUInt8 0

def appendAckFrameAndTypeByte : Write Unit := fun w =>
  appendAckFields frame (numAckBlocks frame w) w

end Frame

/-! ### The blocks of a frame -/

/-- The blocks of one interval: its gap, bridged, and its length. -/
def gapBlocks (totalGap length : Nat) : List (Nat × Nat) :=
  List.replicate (numEncodedGaps totalGap - 1) (255, 0) ++
    [(totalGap - (numEncodedGaps totalGap - 1) * 255, length)]

/-- The blocks of a list of intervals below `previousStart`. -/
def ackBlocks : Nat → List Interval → List (Nat × Nat)
  | _, [] => []
  | previousStart, i :: rest => gapBlocks (previousStart - i.max) i.length ++ ackBlocks i.min rest

def blocksBytes (length : QuicPacketNumberLength) (blocks : List (Nat × Nat)) : List UInt8 :=
  blocks.flatMap fun b => UInt8.ofNat b.1 :: bigEndian length.bytes b.2

/-- The intervals go down from `previousStart`, with a gap above each. -/
def Descends : Nat → List Interval → Prop
  | _, [] => True
  | previousStart, i :: rest => i.max < previousStart ∧ Descends i.min rest

theorem numEncodedGaps_pos {totalGap : Nat} (h : 0 < totalGap) : 0 < numEncodedGaps totalGap := by
  unfold numEncodedGaps
  omega

theorem length_gapBlocks {totalGap : Nat} (h : 0 < totalGap) (length : Nat) :
    (gapBlocks totalGap length).length = numEncodedGaps totalGap := by
  have hpos := numEncodedGaps_pos h
  simp only [gapBlocks, List.length_append, List.length_replicate, List.length_singleton]
  omega

/-- The number of blocks: every gap is counted in steps of 255, rounded up. -/
def blockCount : Nat → List Interval → Nat
  | _, [] => 0
  | previousStart, i :: rest => numEncodedGaps (previousStart - i.max) + blockCount i.min rest

theorem length_ackBlocks {previousStart : Nat} {is : List Interval}
    (h : Descends previousStart is) :
    (ackBlocks previousStart is).length = blockCount previousStart is := by
  induction is generalizing previousStart with
  | nil => rfl
  | cons i rest ih =>
    rw [ackBlocks, blockCount, List.length_append, ih h.2, length_gapBlocks (Nat.sub_pos_of_lt h.1)]

theorem writes_appendAckBlock (gap length : Nat) (lengthLength : QuicPacketNumberLength) :
    Writes (appendAckBlock gap lengthLength length)
      (UInt8.ofNat gap :: bigEndian lengthLength.bytes length) () :=
  (Writes.bytes [UInt8.ofNat gap]).bind (.bytes (bigEndian lengthLength.bytes length))

theorem blocksBytes_append (len : QuicPacketNumberLength) (a b : List (Nat × Nat)) :
    blocksBytes len (a ++ b) = blocksBytes len a ++ blocksBytes len b := by
  rw [blocksBytes, List.flatMap_append]
  rfl

theorem writes_appendEmptyAckBlocks (len : QuicPacketNumberLength) (n todo written : Nat) :
    Writes (appendEmptyAckBlocks len n todo written)
      (blocksBytes len ((List.replicate todo (255, 0)).take (n - written)))
      (written + min todo (n - written)) := by
  induction todo generalizing written with
  | zero =>
    rw [Nat.zero_min, List.replicate_zero, List.take_nil]
    exact .pure written
  | succ todo ih =>
    unfold appendEmptyAckBlocks
    split
    · rename_i hlt
      obtain ⟨k, hk⟩ : ∃ k, n - written = k + 1 := ⟨n - written - 1, by omega⟩
      have hrest := ih (written + 1)
      have hk' : n - (written + 1) = k := by omega
      rw [hk'] at hrest
      rw [hk, List.replicate_succ, List.take_succ_cons]
      have hcount : written + min (todo + 1) (k + 1) = written + 1 + min todo k := by omega
      rw [hcount]
      exact (writes_appendAckBlock 255 0 len).bind hrest
    · rename_i hge
      have hzero : n - written = 0 := by omega
      rw [hzero, List.take_zero, Nat.min_zero]
      exact .pure written

/-- The loop over the intervals writes the first blocks of the list, up to `n` in all. -/
theorem writes_appendAckBlocks (len : QuicPacketNumberLength) (n : Nat) (is : List Interval)
    (previousStart written : Nat) :
    Writes (appendAckBlocks len n previousStart written is)
      (blocksBytes len ((ackBlocks previousStart is).take (n - written)))
      (written + min (ackBlocks previousStart is).length (n - written)) := by
  induction is generalizing previousStart written with
  | nil =>
    rw [ackBlocks, List.take_nil, List.length_nil, Nat.zero_min]
    exact .pure written
  | cons i rest ih =>
    unfold appendAckBlocks
    split
    · rename_i hlt
      rw [ackBlocks, gapBlocks, List.append_assoc, List.take_append, blocksBytes_append]
      refine (writes_appendEmptyAckBlocks len n _ written).bind ?_
      generalize numEncodedGaps (previousStart - i.max) - 1 = k
      rw [List.length_replicate]
      split
      · -- The chain of empty blocks was cut: nothing is left to write.
        rename_i hfull
        have hzero : n - written - k = 0 := by omega
        have hcount : min (List.replicate k ((255 : Nat), 0) ++ ([(previousStart - i.max - k * 255,
            i.length)] ++ ackBlocks i.min rest)).length (n - written) = min k (n - written) := by
          simp only [List.length_append, List.length_replicate, List.length_singleton]
          omega
        rw [hzero, List.take_zero, hcount]
        exact .pure _
      · rename_i hroom
        have hk : written + min k (n - written) = written + k := by omega
        obtain ⟨m, hm⟩ : ∃ m, n - written - k = m + 1 := ⟨n - written - k - 1, by omega⟩
        have hm' : n - (written + k + 1) = m := by omega
        have hcount : written + min (List.replicate k ((255 : Nat), 0) ++
            ([(previousStart - i.max - k * 255, i.length)] ++ ackBlocks i.min rest)).length
            (n - written) = written + k + 1 + min (ackBlocks i.min rest).length m := by
          simp only [List.length_append, List.length_replicate, List.length_singleton]
          omega
        have hrest := ih i.min (written + k + 1)
        rw [hm'] at hrest
        rw [hcount, hk, hm, List.singleton_append, List.take_succ_cons]
        exact (writes_appendAckBlock _ _ len).bind hrest
    · rename_i hge
      have hzero : n - written = 0 := by omega
      rw [hzero, List.take_zero, Nat.min_zero]
      exact .pure written

/-! ### The bytes of a frame -/

/-- The blocks of a frame after the first. -/
def QuicAckFrame.moreBlocks (frame : QuicAckFrame) : List (Nat × Nat) :=
  match frame.newestFirst with
  | [] => []
  | newest :: rest => ackBlocks newest.min rest

def ackBlockCountBytes (n : Nat) : List UInt8 := if 0 < n then [UInt8.ofNat n] else []

/-- The bytes after the type byte, with `n` ack blocks after the first. -/
def ackBodyBytes (frame : QuicAckFrame) (n : Nat) : List UInt8 :=
  bigEndian (largestAckedLength frame).bytes frame.largestAcked ++
    (bigEndian 2 (toUFloat16 (ackDelayTimeUs frame)) ++ (ackBlockCountBytes n ++
      (bigEndian (ackBlockLength frame).bytes (getAckFrameInfo frame).firstBlockLength ++
        (blocksBytes (ackBlockLength frame) (frame.moreBlocks.take n) ++ [0]))))

def frameTypeByte (frame : QuicAckFrame) : Nat :=
  ackTypeByte (decide ((getAckFrameInfo frame).numAckBlocks ≠ 0)) (largestAckedLength frame)
    (ackBlockLength frame)

theorem writes_appendAckBlockCount (n : Nat) :
    Writes (appendAckBlockCount n) (ackBlockCountBytes n) () := by
  unfold appendAckBlockCount ackBlockCountBytes
  split
  · exact .bytes _
  · exact .pure ()

theorem writes_appendMoreAckBlocks (frame : QuicAckFrame) (n : Nat) :
    Writes (appendMoreAckBlocks frame n)
      (blocksBytes (ackBlockLength frame) (frame.moreBlocks.take n)) () := by
  unfold appendMoreAckBlocks QuicAckFrame.moreBlocks
  split
  · cases frame.newestFirst with
    | nil =>
      rw [List.take_nil]
      exact .pure ()
    | cons newest rest =>
      exact (writes_appendAckBlocks (ackBlockLength frame) n rest newest.min 0).map fun _ => ()
  · rename_i hzero
    rw [Nat.eq_zero_of_not_pos hzero, List.take_zero]
    exact .pure ()

/-- The encoder writes the type byte and the body, field by field. -/
theorem writes_appendAckFields (frame : QuicAckFrame) (n : Nat) :
    Writes (appendAckFields frame n) (UInt8.ofNat (frameTypeByte frame) :: ackBodyBytes frame n)
      () := by
  refine Writes.bind (b := [UInt8.ofNat (frameTypeByte frame)]) (.bytes _) ?_
  refine Writes.bind (.bytes _) ?_
  refine Writes.bind (.bytes _) ?_
  refine Writes.bind (writes_appendAckBlockCount n) ?_
  refine Writes.bind (.bytes _) ?_
  exact Writes.bind (writes_appendMoreAckBlocks frame n) (.bytes [0])

/-! ### What the counting loop knows -/

theorem snd_gapBlocks {totalGap length : Nat} {b : Nat × Nat} (hb : b ∈ gapBlocks totalGap length) :
    b.2 ≤ length := by
  rcases List.mem_append.mp hb with hb | hb
  · rw [List.eq_of_mem_replicate hb]
    exact Nat.zero_le _
  · rw [List.mem_singleton.mp hb]

/-- What the counting loop, started with `info`, returns for the intervals `is`: the number
of blocks up to the limit, and a bound on the lengths of the blocks up to the limit. -/
structure Counts (info : AckFrameInfo) (blocks : List (Nat × Nat)) (bound : Nat)
    (r : AckFrameInfo) : Prop where
  number : min r.numAckBlocks 255 = min (info.numAckBlocks + blocks.length) 255
  first : r.firstBlockLength = info.firstBlockLength
  grows : info.maxBlockLength ≤ r.maxBlockLength
  covers : ∀ b ∈ blocks.take (255 - info.numAckBlocks), b.2 ≤ r.maxBlockLength
  bounded : info.maxBlockLength ≤ bound → r.maxBlockLength ≤ bound

theorem countAckBlocks_spec (is : List Interval) (previousStart bound : Nat) (info : AckFrameInfo)
    (h : Descends previousStart is) (hbound : ∀ i ∈ is, i.length ≤ bound) :
    Counts info (ackBlocks previousStart is) bound (countAckBlocks previousStart info is) := by
  induction is generalizing previousStart info with
  | nil =>
    exact ⟨rfl, rfl, Nat.le_refl _, fun b hb => by simp [ackBlocks] at hb, id⟩
  | cons i rest ih =>
    unfold countAckBlocks
    have hgap : 0 < previousStart - i.max := Nat.sub_pos_of_lt h.1
    split
    · have hrest := ih i.min {info with
          numAckBlocks := info.numAckBlocks + numEncodedGaps (previousStart - i.max)
          maxBlockLength := max info.maxBlockLength i.length} h.2
          fun j hj => hbound j (List.mem_cons_of_mem _ hj)
      refine ⟨?_, hrest.first, (Nat.le_max_left _ _).trans hrest.grows, ?_, ?_⟩
      · rw [hrest.number, ackBlocks, List.length_append, length_gapBlocks hgap, Nat.add_assoc]
      · intro b hb
        rw [ackBlocks, List.take_append, length_gapBlocks hgap] at hb
        rcases List.mem_append.mp hb with hb | hb
        · exact (snd_gapBlocks (List.mem_of_mem_take hb)).trans
            ((Nat.le_max_right _ _).trans hrest.grows)
        · apply hrest.covers
          rwa [Nat.sub_sub] at hb
      · intro hinfo
        exact hrest.bounded (Nat.max_le.mpr ⟨hinfo, hbound i (List.mem_cons_self ..)⟩)
    · rename_i hfull
      have hzero : 255 - info.numAckBlocks = 0 := by omega
      refine ⟨by omega, rfl, Nat.le_refl _, ?_, id⟩
      intro b hb
      rw [hzero, List.take_zero] at hb
      cases hb

/-! ### The intervals of a frame -/

theorem descends_of_pairwise {newest : Interval} {rest : List Interval}
    (h : (newest :: rest).Pairwise fun i j => j.max < i.min) : Descends newest.min rest := by
  induction rest generalizing newest with
  | nil => trivial
  | cons i rest ih =>
    obtain ⟨hnewest, hrest⟩ := List.pairwise_cons.mp h
    exact ⟨hnewest i (List.mem_cons_self ..), ih hrest⟩

theorem Descends.max_lt {previousStart : Nat} {is : List Interval} (h : Descends previousStart is) :
    ∀ i ∈ is, i.max < previousStart := by
  induction is generalizing previousStart with
  | nil => intro i hi; cases hi
  | cons j rest ih =>
    intro i hi
    rcases List.mem_cons.mp hi with rfl | hi
    · exact h.1
    · exact (ih h.2 i hi).trans (j.nonempty.trans h.1)

section Frame
variable (frame : QuicAckFrame) {newest : Interval} {rest : List Interval}

/-- The intervals of a frame go down from its newest. -/
theorem QuicAckFrame.descends (h : frame.newestFirst = newest :: rest) :
    Descends newest.min rest := by
  have hreverse : frame.packets.intervals.reverse = newest :: rest := h
  apply descends_of_pairwise
  rw [← hreverse, List.pairwise_reverse]
  exact frame.packets.separated

theorem QuicAckFrame.counts (h : frame.newestFirst = newest :: rest) {bound : Nat}
    (hbound : ∀ i ∈ rest, i.length ≤ bound) :
    Counts ⟨newest.length, newest.length, 0⟩ frame.moreBlocks bound (getAckFrameInfo frame) := by
  rw [QuicAckFrame.moreBlocks, getAckFrameInfo, h]
  exact countAckBlocks_spec rest newest.min bound _ (frame.descends h) hbound

/-- As far as a count byte goes, no more blocks are counted than there are. -/
theorem QuicAckFrame.count_le :
    min (getAckFrameInfo frame).numAckBlocks 255 ≤ frame.moreBlocks.length := by
  cases hcases : frame.newestFirst with
  | nil =>
    rw [getAckFrameInfo, hcases, Nat.zero_min]
    exact Nat.zero_le _
  | cons newest rest =>
    have hbound : ∀ i ∈ rest, i.length ≤ newest.min := by
      intro i hi
      exact (Nat.sub_le _ _).trans ((frame.descends hcases).max_lt i hi).le
    rw [(frame.counts hcases hbound).number, Nat.zero_add]
    exact Nat.min_le_left _ _

end Frame

end CongestionResponse.Framer
