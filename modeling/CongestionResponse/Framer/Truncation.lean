import CongestionResponse.Framer.AckRoundTrip

/-! What the parser makes of a truncated ack frame.

The encoder cuts the list of ack blocks where the count byte or the space ends, wherever
that is. Where the last block written is that of a whole interval, the parser reports the
intervals up to there. Where it is an empty block of a bridged gap, no range is reported as
the last; and where no block is left at all, the count is missing and the parser fails. -/
namespace CongestionResponse.Framer
open Lib Quic

/-! ### The bytes the parser needs -/

section Consumes
variable (visitor : Visitor)

theorem consumes_uint {κ : Type} (n : Nat) (error : String) :
    Consumes n (readBytesToUInt64 n error : Parse String κ Nat) :=
  (Consumes.take n error).bind fun _ => .pure _

theorem consumes_ufloat16 {κ : Type} (error : String) :
    Consumes 2 (readUFloat16 error : Parse String κ Nat) :=
  (consumes_uint 2 error).bind fun _ => .pure _

theorem consumes_reportAck (call : Call) : Consumes 0 (reportAck visitor call) :=
  (Consumes.call visitor call).bind fun _ => .refuse _ _

theorem consumes_reportRange (start length : Nat) (lastRange : Bool) :
    Consumes 0 (reportRange visitor start length lastRange) := by
  unfold reportRange
  split
  · exact consumes_reportAck visitor _
  · exact .pure ()

theorem consumes_processAckBlock (len : QuicPacketNumberLength) (lastRange : Bool)
    (firstReceived : Nat) :
    Consumes (1 + len.bytes) (processAckBlock visitor len lastRange firstReceived) := by
  refine (consumes_uint 1 _).bind fun gap => ?_
  exact (consumes_uint len.bytes _).bind fun length => (Consumes.refuse _ _).bind fun _ =>
    (consumes_reportRange visitor _ _ _).bind fun _ => .pure _

theorem consumes_processAckBlocks (len : QuicPacketNumberLength) (left firstReceived : Nat) :
    Consumes (left * (1 + len.bytes)) (processAckBlocks visitor len left firstReceived) := by
  induction left generalizing firstReceived with
  | zero => exact (Nat.zero_mul _).symm ▸ .pure ()
  | succ left ih =>
    rw [Nat.succ_mul, Nat.add_comm]
    exact (consumes_processAckBlock visitor len _ firstReceived).bind fun start => ih start

theorem consumes_processMoreTimestamps (left : Nat) : Consumes 0 (processMoreTimestamps left) := by
  induction left with
  | zero => exact .pure ()
  | succ left ih =>
    exact ((consumes_uint 1 _).bind fun _ => (consumes_ufloat16 _).bind fun _ => ih).weaken
      (Nat.zero_le _)

theorem consumes_processTimestampsInAckFrame (n : Nat) :
    Consumes 0 (processTimestampsInAckFrame n) := by
  cases n with
  | zero => exact .pure ()
  | succ left =>
    exact ((consumes_uint 1 _).bind fun _ => (consumes_uint 4 _).bind fun _ =>
      consumes_processMoreTimestamps left).weaken (Nat.zero_le _)

/-- An ack frame that announces blocks takes at least the count, the first block and the
number of timestamps. -/
theorem consumes_processAckRanges (len : QuicPacketNumberLength) (largestAcked : Nat) :
    Consumes (1 + (len.bytes + 1)) (processAckRanges visitor true len largestAcked) := by
  refine (consumes_uint 1 "Unable to read num of ack blocks.").bind fun numAckBlocks => ?_
  refine (consumes_uint len.bytes _).bind fun firstBlockLength => ?_
  have hend : ∀ start, Consumes 1 (do
      processAckBlocks visitor len numAckBlocks start
      let numReceivedPackets ← readUInt8 "Unable to read num received packets."
      processTimestampsInAckFrame numReceivedPackets) := by
    intro start
    show Consumes (0 + (1 + 0)) _
    exact ((consumes_processAckBlocks visitor len numAckBlocks start).weaken (Nat.zero_le _)).bind
      fun _ => (consumes_uint 1 _).bind fun n => consumes_processTimestampsInAckFrame n
  show Consumes (0 + (0 + (0 + 1))) _
  exact (Consumes.refuse _ _).bind fun _ => (Consumes.refuse _ _).bind fun _ =>
    (consumes_reportAck visitor _).bind fun _ => hend _

theorem consumes_processAckFrame {frameType : Nat} {large small : QuicPacketNumberLength}
    (h : Announces frameType true large small) :
    Consumes (large.bytes + (2 + (1 + (small.bytes + 1)))) (processAckFrame visitor frameType) := by
  unfold processAckFrame
  rw [h.blocks, h.block, h.largest]
  refine (consumes_uint large.bytes _).bind fun largestAcked => ?_
  refine (consumes_ufloat16 _).bind fun ackDelayTimeUs => ?_
  have hranges := (consumes_reportAck visitor
    (.onAckFrameStart largestAcked (ackDelay ackDelayTimeUs))).bind fun _ =>
      consumes_processAckRanges visitor small largestAcked
  rwa [Nat.zero_add] at hranges

end Consumes

/-! ### Where the cut falls -/

/-- The blocks of the first intervals are the first blocks. -/
theorem ackBlocks_take {previousStart : Nat} {is : List Interval} (h : Descends previousStart is)
    (j : Nat) : (ackBlocks previousStart is).take (blockCount previousStart (is.take j)) =
      ackBlocks previousStart (is.take j) := by
  induction is generalizing previousStart j with
  | nil => rw [List.take_nil]; rfl
  | cons i rest ih =>
    cases j with
    | zero => rw [List.take_zero]; exact List.take_zero
    | succ j =>
      rw [List.take_succ_cons, ackBlocks, blockCount, ackBlocks, List.take_append,
        length_gapBlocks (Nat.sub_pos_of_lt h.1), Nat.add_sub_cancel_left, ih h.2]
      congr 1
      apply List.take_of_length_le
      rw [length_gapBlocks (Nat.sub_pos_of_lt h.1)]
      exact Nat.le_add_right _ _

theorem Descends.take {previousStart : Nat} {is : List Interval} (h : Descends previousStart is)
    (j : Nat) : Descends previousStart (is.take j) := by
  induction is generalizing previousStart j with
  | nil => rw [List.take_nil]; trivial
  | cons i rest ih =>
    cases j with
    | zero => trivial
    | succ j => exact ⟨h.1, ih h.2 j⟩

/-- A block that is not empty ends an interval, so a cut after it falls between intervals. -/
theorem cut_at_interval {previousStart : Nat} {is : List Interval} (h : Descends previousStart is)
    {n : Nat} (hn : n ≤ (ackBlocks previousStart is).length) {b : Nat × Nat}
    (hlast : ((ackBlocks previousStart is).take n).getLast? = some b) (hb : 0 < b.2) :
    ∃ j, 0 < j ∧ n = blockCount previousStart (is.take j) := by
  induction is generalizing previousStart n with
  | nil => simp [ackBlocks] at hlast
  | cons i rest ih =>
    have hgap : 0 < previousStart - i.max := Nat.sub_pos_of_lt h.1
    have hlength := length_gapBlocks hgap i.length
    rw [ackBlocks, List.take_append, hlength] at hlast
    rw [ackBlocks, List.length_append, hlength] at hn
    rcases Nat.lt_trichotomy n (numEncodedGaps (previousStart - i.max)) with hlt | heq | hgt
    · -- Inside the chain: the last block is an empty one.
      have hchain : (gapBlocks (previousStart - i.max) i.length).take n =
          List.replicate n (255, 0) := by
        rw [gapBlocks, List.take_append_of_le_length (by rw [List.length_replicate]; omega),
          List.take_replicate, Nat.min_eq_left (by omega)]
      rw [hchain, Nat.sub_eq_zero_of_le hlt.le, List.take_zero, List.append_nil] at hlast
      have hempty := List.eq_of_mem_replicate (List.mem_of_getLast? hlast)
      rw [hempty] at hb
      exact absurd hb (Nat.lt_irrefl 0)
    · exact ⟨1, Nat.one_pos, by rw [heq]; rfl⟩
    · obtain ⟨m, rfl⟩ := Nat.exists_eq_add_of_lt hgt
      have hsub : numEncodedGaps (previousStart - i.max) + m + 1 -
          numEncodedGaps (previousStart - i.max) = m + 1 := by omega
      have hne : (ackBlocks i.min rest).take (m + 1) ≠ [] := by
        intro hnil
        have := congrArg List.length hnil
        rw [List.length_take, List.length_nil] at this
        omega
      rw [hsub, List.getLast?_append, List.getLast?_eq_some_getLast hne, Option.some_or,
        ← List.getLast?_eq_some_getLast hne] at hlast
      obtain ⟨j, hj, hcount⟩ := ih h.2 (by omega) hlast
      refine ⟨j + 1, Nat.succ_pos j, ?_⟩
      rw [List.take_succ_cons, blockCount, ← hcount, Nat.add_assoc]

/-- Only a block that is not empty and comes last is reported as the last range. -/
theorem last_range_block {blocks : List (Nat × Nat)} {firstReceived start stop : Nat}
    (h : Call.onAckRange start stop true ∈ blockCalls firstReceived blocks) :
    ∃ b, blocks.getLast? = some b ∧ 0 < b.2 := by
  induction blocks generalizing firstReceived with
  | nil => cases h
  | cons b rest ih =>
    rcases List.mem_append.mp h with h | h
    · split at h
      · rename_i hpos
        have heq := List.mem_singleton.mp h
        have hempty : rest = [] := List.isEmpty_iff.mp (Call.onAckRange.inj heq).2.2.symm
        rw [hempty]
        exact ⟨b, rfl, hpos⟩
      · cases h
    · obtain ⟨b', hlast, hpos⟩ := ih h
      refine ⟨b', ?_, hpos⟩
      rw [List.getLast?_cons, hlast]
      rfl

theorem rangeCalls_last {is : List Interval} (h : is ≠ []) :
    ∃ start stop, Call.onAckRange start stop true ∈ rangeCalls is := by
  induction is with
  | nil => exact absurd rfl h
  | cons i rest ih =>
    cases rest with
    | nil => exact ⟨i.min, i.max, List.mem_singleton_self _⟩
    | cons j rest =>
      obtain ⟨start, stop, hmem⟩ := ih (List.cons_ne_nil _ _)
      exact ⟨start, stop, List.mem_cons_of_mem _ hmem⟩

/-! ### Complete acks -/

/-- The parser accepts what was written, and reports some of the frame's intervals, newest
first, the last one as the last. -/
def CompleteAck (visitor : Visitor) (frame : QuicAckFrame) (w : Buffer) : Prop :=
  ∃ typeByte body ranges delay,
    (appendAckFrameAndTypeByte frame w).2 = w.push (typeByte :: body) ∧
    ranges ≠ [] ∧ ranges <+: frame.newestFirst ∧
    processAckFrame visitor typeByte.toNat ⟨body, []⟩ =
      (.ok (), ⟨[], .onAckFrameStart frame.largestAcked delay :: rangeCalls ranges⟩)

/-- How many ack blocks fit in the space that the other fields leave, an `int32_t`. -/
def blocksThatFit (frame : QuicAckFrame) (remaining : Nat) : Nat :=
  toU64 ((Int.bmod (remaining - (getMinAckFrameSize (largestAckedLength frame) + 1 +
    (ackBlockLength frame).bytes : Nat)) (2 ^ 32)).tdiv ((ackBlockLength frame).bytes + 1))

/-- The number of ack blocks of the `j` intervals after the newest. -/
def QuicAckFrame.blocksOfNewest (frame : QuicAckFrame) (j : Nat) : Nat :=
  match frame.newestFirst with
  | [] => 0
  | newest :: rest => blockCount newest.min (rest.take j)

/-- The count byte and the space end the list of ack blocks between two intervals, and no
interval is too long for its field. -/
def CutsBetweenIntervals (frame : QuicAckFrame) (remaining : Nat) : Prop :=
  (∀ i ∈ frame.packets.intervals, i.length < 2 ^ 48) ∧
    (frame.packets.intervals.length = 1 ∨ ∃ j, 0 < j ∧
      min frame.blockTotal (min 255 (blocksThatFit frame remaining)) = frame.blocksOfNewest j)

section Shaped
variable {frame : QuicAckFrame} {newest : Interval} {rest : List Interval} {w : Buffer}

/-- What a successful call wrote. -/
theorem written_of_append (h : (appendAckFrameAndTypeByte frame w).1 = some ()) :
    w.Fits [] ∧ (appendAckFrameAndTypeByte frame w).2 = w.push (UInt8.ofNat (frameTypeByte frame) ::
      ackBodyBytes frame (numAckBlocks frame w)) := by
  have hw : w.Fits [] := (Nat.le_add_right _ _).trans (Write.fits_of_some h)
  refine ⟨hw, ?_⟩
  obtain ⟨hfits, hfull⟩ := writes_appendAckFields frame (numAckBlocks frame w) w hw
  by_cases hroom : w.Fits (UInt8.ofNat (frameTypeByte frame) ::
      ackBodyBytes frame (numAckBlocks frame w))
  · rw [appendAckFrameAndTypeByte, hfits hroom]
  · rw [appendAckFrameAndTypeByte, hfull hroom] at h
    cases h

theorem Shaped.numAckBlocks_fit (h : Shaped frame newest rest) (hw : w.Fits []) :
    numAckBlocks frame w =
      min frame.blockTotal (min 255 (blocksThatFit frame (w.capacity - w.written.length))) := by
  rw [h.listed.numAckBlocks_eq]
  by_cases hzero : frame.blockTotal = 0
  · rw [hzero, Nat.zero_min, Nat.zero_min]
  · have hle : w.written.length ≤ w.capacity := hw
    have hspace : (w.capacity : Int) - w.written.length - (ackBlockLength frame).bytes -
        getMinAckFrameSize (largestAckedLength frame) - 1 =
        (w.capacity - w.written.length : Nat) - (getMinAckFrameSize (largestAckedLength frame) + 1 +
          (ackBlockLength frame).bytes : Nat) := by
      push_cast [Nat.cast_sub hle]
      omega
    rw [maxNumAckBlocks, availableTimestampAndAckBlockBytes,
      if_pos (h.listed.hasBlocks_iff.mpr hzero), hspace, blocksThatFit]

theorem Listed.numAckBlocks_le (h : Listed frame newest rest) (w : Buffer) :
    numAckBlocks frame w ≤ frame.moreBlocks.length ∧ numAckBlocks frame w ≤ 255 := by
  refine ⟨?_, Nat.min_le_right _ _⟩
  rw [h.numAckBlocks_eq, h.blockTotal]
  exact Nat.min_le_left _ _

theorem frameTypeByte_toNat (frame : QuicAckFrame) :
    (UInt8.ofNat (frameTypeByte frame)).toNat = frameTypeByte frame :=
  UInt8.toNat_ofNat_of_lt (announces_frameTypeByte frame).byte

theorem Shaped.lengths (h : Shaped frame newest rest) :
    (∀ i ∈ frame.packets.intervals, i.length < 2 ^ 48) ↔ newest.length < 2 ^ 48 := by
  have hmem : ∀ i, i ∈ frame.packets.intervals ↔ i ∈ newest :: rest := by
    intro i
    rw [← h.newestFirst, QuicAckFrame.newestFirst, List.mem_reverse]
  refine ⟨fun hall => hall newest ((hmem newest).mpr (List.mem_cons_self ..)), ?_⟩
  intro hnewest i hi
  rcases List.mem_cons.mp ((hmem i).mp hi) with rfl | hi
  · exact hnewest
  · have hlt := h.descends.max_lt i hi
    have hlargest := h.largest
    have hbelow := h.below
    have hne := newest.nonempty
    unfold Interval.length
    omega

/-- With `n` blocks, the `j` intervals after the newest, the ack is complete. -/
theorem Shaped.complete {visitor : Visitor} (hv : visitor.Accepts) (h : Shaped frame newest rest)
    (hlength : newest.length < 2 ^ 48) (hwritten : (appendAckFrameAndTypeByte frame w).1 = some ())
    {j : Nat} (hj : 0 < j) (hn : numAckBlocks frame w = blockCount newest.min (rest.take j)) :
    CompleteAck visitor frame w := by
  obtain ⟨hle, hlimit⟩ := h.listed.numAckBlocks_le w
  have hpos : 0 < numAckBlocks frame w ↔ rest ≠ [] := by
    rw [hn, ← length_ackBlocks (h.descends.take j), List.length_pos_iff, ne_eq, ne_eq,
      ← List.isEmpty_iff, ackBlocks_isEmpty, List.isEmpty_iff, List.take_eq_nil_iff]
    simp [hj.ne']
  have hreads := h.reads hv hlength hlimit hle hpos [] []
  rw [List.append_nil, List.nil_append, hn, h.listed.moreBlocks, ackBlocks_take h.descends,
    blockCalls_ackBlocks (h.descends.take j), ← hn] at hreads
  refine ⟨_, _, newest :: rest.take j, reportedDelay frame, (written_of_append hwritten).2,
    List.cons_ne_nil _ _, ?_, ?_⟩
  · rw [h.newestFirst]
    exact List.cons_prefix_cons.mpr ⟨rfl, List.take_prefix j rest⟩
  · rw [frameTypeByte_toNat, hreads, rangeCalls]
    have hflag : decide (rest = []) = (rest.take j).isEmpty := by
      cases rest with
      | nil => simp
      | cons i rest =>
        obtain ⟨k, rfl⟩ := Nat.exists_eq_succ_of_ne_zero hj.ne'
        rfl
    rw [hflag]

/-- A frame that announces blocks and has none is rejected: a byte is missing. -/
theorem Shaped.no_blocks (visitor : Visitor) (h : Shaped frame newest rest) (hrest : rest ≠ [])
    (hn : numAckBlocks frame w = 0) (a : Unit) (c : Cursor Call) :
    processAckFrame visitor (frameTypeByte frame)
      ⟨ackBodyBytes frame (numAckBlocks frame w), []⟩ ≠ (.ok a, c) := by
  intro hok
  have htype := announces_frameTypeByte frame
  rw [decide_eq_true (h.listed.hasBlocks.mpr hrest)] at htype
  have hbytes := consumes_processAckFrame visitor htype _ a c hok
  have hlength := length_ackFrame frame (Nat.zero_le _)
  rw [hn] at hbytes
  rw [ackFrameSize, if_pos rfl, getMinAckFrameSize, List.length_cons] at hlength
  simp only at hbytes
  omega

/-- A first block of length zero is rejected where packets are acknowledged. -/
theorem processAckRanges_zero (visitor : Visitor) (len : QuicPacketNumberLength) {largestAcked : Nat}
    (hlargest : largestAcked ≠ 0) {value : Nat} (hvalue : value % 256 ^ len.bytes = 0)
    (bytes : List UInt8) (calls : List Call) :
    ∃ e, processAckRanges visitor false len largestAcked
      ⟨bigEndian len.bytes value ++ bytes, calls⟩ = (.error e, ⟨bytes, calls⟩) := by
  have hfirst : readBytesToUInt64 len.bytes "Unable to read first ack block length."
      ⟨bigEndian len.bytes value ++ bytes, calls⟩ = (.ok 0, ⟨bytes, calls⟩) := by
    have hread := reads_uint_mod (κ := Call) len.bytes value
      "Unable to read first ack block length." bytes calls
    rwa [hvalue, List.append_nil] at hread
  have hcount : readNumAckBlocks false ⟨bigEndian len.bytes value ++ bytes, calls⟩ =
    (.ok 0, ⟨bigEndian len.bytes value ++ bytes, calls⟩) := rfl
  unfold processAckRanges
  rw [Parse.bind_ok hcount, Parse.bind_ok hfirst, Parse.refuse, if_pos ⟨rfl, .inl hlargest⟩]
  exact ⟨_, rfl⟩

/-- An interval of 2^48 packets does not fit its field, which then reads zero. -/
theorem Shaped.too_long {visitor : Visitor} (hv : visitor.Accepts) (h : Shaped frame newest rest)
    (hlength : ¬newest.length < 2 ^ 48) (a : Unit) (c : Cursor Call) :
    processAckFrame visitor (frameTypeByte frame)
      ⟨ackBodyBytes frame (numAckBlocks frame w), []⟩ ≠ (.ok a, c) := by
  have hlargest := h.largest
  have hbelow := h.below
  have hle : newest.length ≤ newest.max := Nat.sub_le _ _
  have heq : newest.length = 2 ^ 48 := by omega
  have hrest : rest = [] := by
    cases hcases : rest with
    | nil => rfl
    | cons i is =>
      have hdescends := h.descends
      rw [hcases] at hdescends
      have hlt := hdescends.1
      unfold Interval.length at heq
      omega
  have hblock : ackBlockLength frame = .sixByte := by
    have hgrows : newest.length ≤ (getAckFrameInfo frame).maxBlockLength := h.listed.counts.grows
    unfold ackBlockLength getMinPacketNumberLength
    split_ifs <;> first | rfl | omega
  have hfirst : (getAckFrameInfo frame).firstBlockLength = newest.length := h.listed.counts.first
  have hcount : numAckBlocks frame w = 0 := by
    rw [h.listed.numAckBlocks_eq, h.listed.blockTotal, h.listed.moreBlocks, hrest]
    exact Nat.zero_min _
  rw [hcount, ackBodyBytes, processAckFrame_header hv h.below,
    decide_eq_false (fun hne => h.listed.hasBlocks.mp hne hrest), hblock, hfirst]
  obtain ⟨e, herror⟩ := processAckRanges_zero visitor .sixByte (show frame.largestAcked ≠ 0 by omega)
    (show newest.length % 256 ^ 6 = 0 by rw [heq]; decide)
    (blocksBytes .sixByte (frame.moreBlocks.take 0) ++ [0])
    [.onAckFrameStart frame.largestAcked (reportedDelay frame)]
  have hnone : ackBlockCountBytes 0 = [] := rfl
  rw [hnone, List.nil_append, List.nil_append, herror]
  exact fun hok => by cases hok

/-- A complete ack ends with a range, hence with a block that is not empty. -/
theorem Shaped.cut_of_complete {visitor : Visitor} (hv : visitor.Accepts)
    (h : Shaped frame newest rest) (hwritten : (appendAckFrameAndTypeByte frame w).1 = some ())
    (hcomplete : CompleteAck visitor frame w) :
    newest.length < 2 ^ 48 ∧ (rest = [] ∨ ∃ j, 0 < j ∧
      numAckBlocks frame w = blockCount newest.min (rest.take j)) := by
  obtain ⟨typeByte, body, ranges, delay, hpush, hne, -, hparse⟩ := hcomplete
  rw [(written_of_append hwritten).2] at hpush
  obtain ⟨rfl, rfl⟩ := List.cons.inj (List.append_cancel_left (congrArg Buffer.written hpush))
  rw [frameTypeByte_toNat] at hparse
  have hlength : newest.length < 2 ^ 48 :=
    Classical.byContradiction fun hlong => h.too_long hv hlong _ _ hparse
  refine ⟨hlength, ?_⟩
  by_cases hrest : rest = []
  · exact .inl hrest
  · right
    have hpos : 0 < numAckBlocks frame w :=
      Nat.pos_of_ne_zero fun hzero => h.no_blocks visitor hrest hzero _ _ hparse
    obtain ⟨hle, hlimit⟩ := h.listed.numAckBlocks_le w
    have hreads := h.reads hv hlength hlimit hle (iff_of_true hpos hrest) [] []
    rw [List.append_nil, List.nil_append, hparse] at hreads
    have hcalls := congrArg (fun r => r.2.calls) hreads
    obtain ⟨-, hcalls⟩ := List.cons.inj hcalls
    obtain ⟨start, stop, hlast⟩ := rangeCalls_last hne
    rw [hcalls, decide_eq_false hrest] at hlast
    rcases List.mem_cons.mp hlast with hlast | hlast
    · cases hlast
    · obtain ⟨b, hb, hbpos⟩ := last_range_block hlast
      rw [h.listed.moreBlocks] at hb hle
      exact cut_at_interval h.descends hle hb hbpos

end Shaped

/-- **A truncated ack is complete exactly where the cut falls between intervals.** -/
theorem truncated_ack_complete_iff {frame : QuicAckFrame} (hframe : frame.WellFormed) {w : Buffer}
    (hwritten : (appendAckFrameAndTypeByte frame w).1 = some ()) {visitor : Visitor}
    (hv : visitor.Accepts) :
    CompleteAck visitor frame w ↔
      CutsBetweenIntervals frame (w.capacity - w.written.length) := by
  obtain ⟨newest, rest, hshape, hdescends, hlargest⟩ := hframe.shape
  have h : Shaped frame newest rest := ⟨hshape, hdescends, hlargest, hframe.below⟩
  have hcount := h.numAckBlocks_fit (written_of_append hwritten).1
  have hlong : (∀ i ∈ frame.packets.intervals, i.length < 2 ^ 48) ↔ newest.length < 2 ^ 48 :=
    h.lengths
  have hone : frame.packets.intervals.length = 1 ↔ rest = [] := by
    rw [← List.length_reverse]
    show frame.newestFirst.length = 1 ↔ rest = []
    rw [hshape, List.length_cons, Nat.add_eq_right, List.length_eq_zero_iff]
  have hnewest : ∀ j, frame.blocksOfNewest j = blockCount newest.min (rest.take j) := by
    intro j
    rw [QuicAckFrame.blocksOfNewest, hshape]
  unfold CutsBetweenIntervals
  rw [hlong, hone, ← hcount]
  simp only [hnewest]
  refine ⟨h.cut_of_complete hv hwritten, fun hcuts => ?_⟩
  obtain ⟨hlength, hrest | ⟨j, hj, hcut⟩⟩ := hcuts
  · refine h.complete hv hlength hwritten Nat.one_pos ?_
    rw [h.listed.numAckBlocks_eq, h.listed.blockTotal, h.listed.moreBlocks, hrest]
    exact Nat.zero_min _
  · exact h.complete hv hlength hwritten hj hcut

/-- Nine bytes hold one of the two blocks: the oldest interval is left out. -/
theorem truncated_ack_complete_nine_bytes : CompleteAck acceptAll twoMissing ⟨9, []⟩ :=
  (truncated_ack_complete_iff ⟨by decide, fun i hi => by cases hi; rfl, by decide⟩ (by decide)
    fun _ _ => rfl).mpr ⟨by decide, .inr ⟨1, by decide, by decide⟩⟩

/-- What the parser tells its visitor of a packet that begins with an ack frame. -/
def reported : List UInt8 → List Call
  | [] => []
  | typeByte :: body => (processAckFrame acceptAll typeByte.toNat ⟨body, []⟩).2.calls

/-- Packets 1 and 70000. -/
def farApart : QuicAckFrame :=
  ⟨70000, 0, ⟨[⟨1, 2, Nat.one_lt_two⟩, ⟨70000, 70001, by decide⟩], by decide⟩⟩

/-- The gap of 69998 packets takes 275 blocks. In a buffer of 1500 bytes, 255 are written,
all of them empty, and no range is reported as the last. -/
theorem far_apart_ack_incomplete :
    farApart.WellFormed ∧ (appendAckFrameAndTypeByte farApart ⟨1500, []⟩).1 = some () ∧
      reported (appendAckFrameAndTypeByte farApart ⟨1500, []⟩).2.written =
        [.onAckFrameStart 70000 0, .onAckRange 70000 70001 false] ∧
      ¬CompleteAck acceptAll farApart ⟨1500, []⟩ := by
  have hreported : reported (appendAckFrameAndTypeByte farApart ⟨1500, []⟩).2.written =
      [.onAckFrameStart 70000 0, .onAckRange 70000 70001 false] := by decide +kernel
  refine ⟨⟨by decide, fun i hi => by cases hi; rfl, by decide⟩, by decide +kernel, hreported, ?_⟩
  rintro ⟨typeByte, body, ranges, delay, hpush, hne, -, hparse⟩
  have hbytes : (Buffer.push ⟨1500, []⟩ (typeByte :: body)).written = typeByte :: body := rfl
  rw [hpush, hbytes, reported, hparse] at hreported
  obtain ⟨-, hranges⟩ := List.cons.inj hreported
  obtain ⟨start, stop, hlast⟩ := rangeCalls_last hne
  rw [hranges] at hlast
  cases List.mem_singleton.mp hlast

end CongestionResponse.Framer
