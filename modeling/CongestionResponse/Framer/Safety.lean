import CongestionResponse.Framer.AckGrammar

/-! The parser on arbitrary bytes, with an arbitrary visitor.

Every round of the loop over the frames takes a byte, so the loop ends (`loops_processFrames`).
The ranges that are reported for an ack frame go down from its `largest_acked`, also where the
frame turns out to be malformed behind them (`AckCalls`). And no addition or subtraction on the
way to them leaves the 64 bits of the source: a parser that refuses to wrap is the same parser
(`processAckFrameChecked_eq`). -/
namespace CongestionResponse.Framer
open Lib Quic

/-! ### The calls of a packet -/

/-- A call that belongs to an ack frame. -/
def Call.OfAck : Call → Prop
  | .onAckFrameStart _ _ => True
  | .onAckRange _ _ _ => True
  | _ => False

/-- The calls for a packet: an ack frame is reported by its start and its ranges. -/
inductive AckCalls : List Call → Prop
  | nil : AckCalls []
  | other {call : Call} {rest : List Call} : ¬call.OfAck → AckCalls rest → AckCalls (call :: rest)
  | ack {largestAcked : Nat} {ranges rest : List Call} (ackDelayTime : Int) :
    RangesOf largestAcked ranges → AckCalls rest →
    AckCalls (.onAckFrameStart largestAcked ackDelayTime :: (ranges ++ rest))

theorem AckCalls.append {a b : List Call} (ha : AckCalls a) (hb : AckCalls b) :
    AckCalls (a ++ b) := by
  induction ha with
  | nil => exact hb
  | other hcall _ ih => exact .other hcall ih
  | ack delay hranges _ ih =>
    rw [List.cons_append, List.append_assoc]
    exact .ack delay hranges ih

theorem AckCalls.single {largestAcked : Nat} {ranges : List Call} (ackDelayTime : Int)
    (h : RangesOf largestAcked ranges) :
    AckCalls (.onAckFrameStart largestAcked ackDelayTime :: ranges) := by
  have hack := AckCalls.ack ackDelayTime h .nil
  rwa [List.append_nil] at hack

theorem rangesOf_calls {fields : AckFields} {hasAckBlocks : Bool} {len : QuicPacketNumberLength}
    {largestAcked : Nat} (h : fields.Valid hasAckBlocks len largestAcked) :
    RangesOf largestAcked (fields.calls hasAckBlocks largestAcked) := by
  refine rangesOf_cons _ (rangesBelow_blockCalls h.readable) (fun hzero => ?_) h.first
  obtain ⟨hlargest, hblocks⟩ := h.empty hzero
  rw [hblocks]
  exact ⟨hlargest, rfl⟩

/-! ### One frame -/

section Frame
variable (visitor : Visitor)

theorem ensures_processAckFrame (frameType : Nat) :
    Ensures (processAckFrame visitor frameType) (fun _ ks _ => AckCalls ks) AckCalls := by
  refine (ensures_uint _ _).bind_silent .nil fun _ largestAcked _ => ?_
  refine (ensures_ufloat16 _).bind_silent .nil fun _ delay _ => ?_
  refine (ensures_reportAck visitor _).bind (fun ks h => h ▸ .single _ trivial) fun _ ks _ h => ?_
  obtain ⟨-, rfl⟩ := h
  refine (ensures_processAckRanges visitor _ _ largestAcked).mono (fun _ ks _ h => ?_)
    fun ks h => .single _ h
  obtain ⟨fields, hvalid, -, rfl⟩ := h
  exact .single _ (rangesOf_calls hvalid)

theorem quiet_readBytesToUInt64 (n : Nat) (error : String) :
    Quiet (readBytesToUInt64 n error : Parse String Call Nat) :=
  (Quiet.take n error).bind fun _ => .pure _

theorem quiet_readStringPiece16 (error : String) :
    Quiet (readStringPiece16 error : Parse String Call _) :=
  (quiet_readBytesToUInt64 2 error).bind fun size => .take size error

theorem quiet_processStreamFrame (frameType : Nat) : Quiet (processStreamFrame frameType) := by
  refine (quiet_readBytesToUInt64 _ _).bind fun streamId => ?_
  refine (quiet_readBytesToUInt64 _ _).bind fun offset => ?_
  refine Quiet.bind (Quiet.remaining.bind fun remaining => ?_) fun data => .pure _
  split
  · exact quiet_readStringPiece16 _
  · exact .take _ _

theorem quiet_processRstStreamFrame : Quiet processRstStreamFrame :=
  (quiet_readBytesToUInt64 4 _).bind fun _ => (quiet_readBytesToUInt64 8 _).bind fun _ =>
    (quiet_readBytesToUInt64 4 _).bind fun _ => .pure _

theorem quiet_processConnectionCloseFrame : Quiet processConnectionCloseFrame :=
  (quiet_readBytesToUInt64 4 _).bind fun _ => (quiet_readStringPiece16 _).bind fun _ => .pure _

theorem quiet_processGoAwayFrame : Quiet processGoAwayFrame :=
  (quiet_readBytesToUInt64 4 _).bind fun _ => (quiet_readBytesToUInt64 4 _).bind fun _ =>
    (quiet_readStringPiece16 _).bind fun _ => .pure _

theorem quiet_processWindowUpdateFrame : Quiet processWindowUpdateFrame :=
  (quiet_readBytesToUInt64 4 _).bind fun _ => (quiet_readBytesToUInt64 8 _).bind fun _ => .pure _

theorem quiet_processStopWaitingFrame (header : QuicPacketHeader) :
    Quiet (processStopWaitingFrame header) :=
  (quiet_readBytesToUInt64 _ _).bind fun _ => (Quiet.refuse _ _).bind fun _ => .pure _

theorem quiet_processPaddingFrame : Quiet processPaddingFrame :=
  fun c => ⟨[], (List.append_nil c.calls).symm, _, (List.takeWhile_append_dropWhile ..).symm, rfl⟩

/-- A frame that is read in silence and then shown. -/
theorem ensures_showing {α : Type} {p : Parse String Call α} (hp : Quiet p) (error : QuicErrorCode)
    {call : α → Call} (hcall : ∀ a, ¬(call a).OfAck) :
    Ensures (showing visitor error p call) (fun _ ks _ => AckCalls ks) AckCalls := by
  refine (hp.mapError _).bind (fun ks hks => ?_) fun _ ks a hks => ?_
  · obtain rfl : ks = [] := hks
    exact .nil
  · obtain rfl : ks = [] := hks
    refine (Ensures.call visitor (call a)).mono (fun _ ks _ h => ?_) fun _ h => h.elim
    obtain ⟨rfl, -⟩ := h
    exact .other (hcall a) .nil

theorem ensures_fail {α : Type} (error : FramerError) :
    Ensures (Parse.fail error : Parse FramerError Call α) (fun _ ks _ => AckCalls ks) AckCalls :=
  fun c => ⟨[], (List.append_nil c.calls).symm, .nil⟩

theorem ensures_processSpecialFrame (frameType : Nat) :
    Ensures (processSpecialFrame visitor frameType) (fun _ ks _ => AckCalls ks) AckCalls := by
  unfold processSpecialFrame
  split_ifs
  · exact ensures_showing visitor (quiet_processStreamFrame frameType) _ fun _ h => h
  · refine ((ensures_processAckFrame visitor frameType).mapError _).bind (fun _ h => h)
      fun _ ks _ hks => .pure ?_
    rw [List.append_nil]
    exact hks
  · exact ensures_fail _

theorem ensures_processRegularFrame (header : QuicPacketHeader) (frameType : Nat) :
    Ensures (processRegularFrame visitor header frameType) (fun _ ks _ => AckCalls ks)
      AckCalls := by
  unfold processRegularFrame
  split
  · exact ensures_showing visitor quiet_processPaddingFrame _ fun _ h => h
  · exact ensures_showing visitor quiet_processRstStreamFrame _ fun _ h => h
  · exact ensures_showing visitor quiet_processConnectionCloseFrame _ fun _ h => h
  · exact ensures_showing visitor quiet_processGoAwayFrame _ fun _ h => h
  · exact ensures_showing visitor quiet_processWindowUpdateFrame _ fun _ h => h
  · exact ensures_showing visitor (quiet_readBytesToUInt64 4 _) _ fun _ h => h
  · exact ensures_showing visitor (quiet_processStopWaitingFrame header) _ fun _ h => h
  · refine (Ensures.call visitor .onPingFrame).mono (fun _ ks _ h => ?_) fun _ h => h.elim
    obtain ⟨rfl, -⟩ := h
    exact .other (fun h => h) .nil
  · exact ensures_fail _

/-- A round takes at least the type byte. -/
theorem ensures_processFrame (header : QuicPacketHeader) :
    Ensures (processFrame visitor header) (fun bs ks _ => bs ≠ [] ∧ AckCalls ks) AckCalls := by
  refine ((ensures_uint 1 _).mapError _).bind_silent .nil fun bs frameType htype => ?_
  have hbytes : bs ≠ [] := by
    rw [htype.1]
    exact List.cons_ne_nil _ _
  have hne (rest : List UInt8) : bs ++ rest ≠ [] := fun h => hbytes (List.append_eq_nil_iff.mp h).1
  split_ifs
  · exact (ensures_processSpecialFrame visitor frameType).mono (fun rest _ _ h => ⟨hne rest, h⟩)
      fun _ h => h
  · exact (ensures_processRegularFrame visitor header frameType).mono
      (fun rest _ _ h => ⟨hne rest, h⟩) fun _ h => h

end Frame

/-! ### The loop -/

section Loop
variable (visitor : Visitor) (header : QuicPacketHeader)

theorem length_lt_of_processFrame {c c' : Cursor Call} {goOn : Bool}
    (h : processFrame visitor header c = (.ok goOn, c')) : c'.rest.length < c.rest.length := by
  obtain ⟨bs, _, hrest, _, hne, _⟩ := (ensures_processFrame visitor header).of_ok h
  have hpos := List.length_pos_iff.mpr hne
  rw [hrest, List.length_append]
  omega

/-- The loop of the source ends, and with as many rounds as there are bytes the model does what
it does. The induction is on the rounds, with the cursor arbitrary. -/
theorem loops_processFrames (rounds : Nat) (c : Cursor Call) (h : c.rest.length ≤ rounds) :
    Loops (processFrame visitor header) c (processFrames visitor header rounds c) := by
  induction rounds generalizing c with
  | zero => exact .done (List.length_eq_zero_iff.mp (Nat.le_zero.mp h))
  | succ rounds ih =>
    have hremaining : (Parse.remaining : Parse FramerError Call Nat) c =
        (.ok c.rest.length, c) := rfl
    rw [processFrames, Parse.bind_ok hremaining]
    by_cases hdone : c.rest = []
    · rw [if_pos (List.length_eq_zero_iff.mpr hdone)]
      exact .done hdone
    · rw [if_neg (mt List.length_eq_zero_iff.mp hdone)]
      rcases hc : processFrame visitor header c with ⟨e | goOn, c'⟩
      · rw [Parse.bind_error hc]
        exact .failed hdone hc
      · have hlt := length_lt_of_processFrame visitor header hc
        rw [Parse.bind_ok hc]
        cases goOn with
        | false => exact .stopped hdone hc
        | true => exact .next hdone hc (ih c' (by omega))

theorem processFrameData_of_ne {bytes : List UInt8} (h : bytes ≠ []) :
    processFrameData visitor header ⟨bytes, []⟩ =
      processFrames visitor header bytes.length ⟨bytes, []⟩ := by
  have hremaining : (Parse.remaining : Parse FramerError Call Nat) ⟨bytes, []⟩ =
      (.ok bytes.length, ⟨bytes, []⟩) := rfl
  rw [processFrameData, Parse.bind_ok hremaining, Parse.refuse,
    if_neg (mt List.length_eq_zero_iff.mp h)]
  rfl

end Loop

/-! ### Arithmetic of 64 bits -/

def addU64Checked (x y : Nat) : Parse String Call Nat := do
  Parse.refuse (2 ^ 64 ≤ x + y) "The addition wraps."
  return x + y

def subU64Checked (x y : Nat) : Parse String Call Nat := do
  Parse.refuse (x < y) "The subtraction wraps."
  return x - y

/-! The parser of ack frames in arithmetic that refuses to wrap. -/

def reportRangeChecked (visitor : Visitor) (start length : Nat) (lastRange : Bool) :
    Parse String Call Unit :=
  if 0 < length then do
    let stop ← addU64Checked start length
    reportAck visitor (.onAckRange start stop lastRange)
  else pure ()

def processAckBlockChecked (visitor : Visitor) (ackBlockLength : QuicPacketNumberLength)
    (lastRange : Bool) (firstReceived : Nat) : Parse String Call Nat := do
  let gap ← readUInt8 "Unable to read gap to next ack block."
  let currentBlockLength ← readBytesToUInt64 ackBlockLength.bytes "Unable to ack block length."
  let span ← addU64Checked gap currentBlockLength
  Parse.refuse (firstReceived < span)
    ("Underflow with ack block length " ++ toString currentBlockLength ++
      ", end of block is " ++ toString (subU64 firstReceived gap) ++ ".")
  let start ← subU64Checked firstReceived span
  reportRangeChecked visitor start currentBlockLength lastRange
  return start

def processAckBlocksChecked (visitor : Visitor) (ackBlockLength : QuicPacketNumberLength) :
    Nat → Nat → Parse String Call Unit
  | 0, _ => pure ()
  | left + 1, firstReceived => do
    let start ← processAckBlockChecked visitor ackBlockLength (left == 0) firstReceived
    processAckBlocksChecked visitor ackBlockLength left start

def processAckRangesChecked (visitor : Visitor) (hasAckBlocks : Bool)
    (ackBlockLength : QuicPacketNumberLength) (largestAcked : Nat) : Parse String Call Unit := do
  let numAckBlocks ← readNumAckBlocks hasAckBlocks
  let firstBlockLength ←
    readBytesToUInt64 ackBlockLength.bytes "Unable to read first ack block length."
  Parse.refuse (firstBlockLength = 0 ∧ (largestAcked ≠ 0 ∨ numAckBlocks ≠ 0))
    ("First block length is zero but ACK is not empty. largest acked is " ++
      toString largestAcked ++ ", num ack blocks is " ++ toString numAckBlocks ++ ".")
  let limit ← addU64Checked largestAcked 1
  Parse.refuse (limit < firstBlockLength)
    ("Underflow with first ack block length " ++ toString firstBlockLength ++
      " largest acked is " ++ toString largestAcked ++ ".")
  let firstReceived ← subU64Checked limit firstBlockLength
  reportAck visitor (.onAckRange firstReceived limit (!hasAckBlocks))
  processAckBlocksChecked visitor ackBlockLength numAckBlocks firstReceived
  let numReceivedPackets ← readUInt8 "Unable to read num received packets."
  processTimestampsInAckFrame numReceivedPackets

def processAckFrameChecked (visitor : Visitor) (frameType : Nat) : Parse String Call Unit := do
  let hasAckBlocks := extractBit frameType kQuicHasMultipleAckBlocksOffsetPre40
  let ackBlockLength := readAckPacketNumberLength
    (extractBits frameType kQuicSequenceNumberLengthNumBits kActBlockLengthOffset)
  let largestAckedLength := readAckPacketNumberLength
    (extractBits frameType kQuicSequenceNumberLengthNumBits kLargestAckedOffset)
  let largestAcked ← readBytesToUInt64 largestAckedLength.bytes "Unable to read largest acked."
  let ackDelayTimeUs ← readUFloat16 "Unable to read ack delay time."
  reportAck visitor (.onAckFrameStart largestAcked (ackDelay ackDelayTimeUs))
  processAckRangesChecked visitor hasAckBlocks ackBlockLength largestAcked

section Checked
variable (visitor : Visitor) {len : QuicPacketNumberLength}

theorem addU64Checked_of_lt {α : Type} {x y : Nat} (h : x + y < 2 ^ 64)
    (f : Nat → Parse String Call α) : addU64Checked x y >>= f = f (x + y) := by
  funext c
  rw [addU64Checked, Parse.refuse, if_neg (Nat.not_le.mpr h)]
  rfl

theorem subU64Checked_of_le {α : Type} {x y : Nat} (h : y ≤ x) (f : Nat → Parse String Call α) :
    subU64Checked x y >>= f = f (x - y) := by
  funext c
  rw [subU64Checked, Parse.refuse, if_neg (Nat.not_lt.mpr h)]
  rfl

theorem readAckPacketNumberLength_le (flags : Nat) :
    (readAckPacketNumberLength flags).bytes ≤ 6 := by
  unfold readAckPacketNumberLength
  split <;> decide

theorem pow_bytes_le {n : Nat} (h : n ≤ 6) : 256 ^ n ≤ 2 ^ 48 :=
  (Nat.pow_le_pow_right (by decide) h).trans (by decide)

theorem reportRangeChecked_eq {start length : Nat} (h : start + length < 2 ^ 64)
    (lastRange : Bool) :
    reportRangeChecked visitor start length lastRange =
      reportRange visitor start length lastRange := by
  rw [reportRangeChecked, reportRange, addU64Checked_of_lt h]

theorem processAckBlockChecked_eq (hlen : len.bytes ≤ 6) (lastRange : Bool) {firstReceived : Nat}
    (hfirst : firstReceived ≤ 2 ^ 48) :
    processAckBlockChecked visitor len lastRange firstReceived =
      processAckBlock visitor len lastRange firstReceived := by
  refine (ensures_uint 1 _).bind_congr fun _ _ gap hgap => ?_
  refine (ensures_uint len.bytes _).bind_congr fun _ _ length hlength => ?_
  have hgap : gap < 256 ^ 1 := hgap.2.2
  have hlength : length < 2 ^ 48 := hlength.2.2.trans_le (pow_bytes_le hlen)
  rw [addU64Checked_of_lt (by omega)]
  refine (Ensures.refuse _ _).bind_congr fun _ _ _ hroom => ?_
  have hroom : gap + length ≤ firstReceived := Nat.not_lt.mp hroom.2.2
  rw [subU64Checked_of_le hroom, reportRangeChecked_eq visitor (by omega)]

theorem processAckBlocksChecked_eq (hlen : len.bytes ≤ 6) (left : Nat) {firstReceived : Nat}
    (hfirst : firstReceived ≤ 2 ^ 48) :
    processAckBlocksChecked visitor len left firstReceived =
      processAckBlocks visitor len left firstReceived := by
  induction left generalizing firstReceived with
  | zero => rfl
  | succ left ih =>
    rw [processAckBlocksChecked, processAckBlocks, processAckBlockChecked_eq visitor hlen _ hfirst]
    refine (ensures_processAckBlock visitor len _ firstReceived).bind_congr fun _ _ start h => ?_
    obtain ⟨b, -, -, -, -, hstart, -⟩ := h
    exact ih (by omega)

theorem processAckRangesChecked_eq (hasAckBlocks : Bool) (hlen : len.bytes ≤ 6)
    {largestAcked : Nat} (hlargest : largestAcked < 2 ^ 48) :
    processAckRangesChecked visitor hasAckBlocks len largestAcked =
      processAckRanges visitor hasAckBlocks len largestAcked := by
  refine (ensures_readNumAckBlocks hasAckBlocks).bind_congr fun _ _ numAckBlocks _ => ?_
  refine (ensures_uint len.bytes _).bind_congr fun _ _ firstBlockLength _ => ?_
  refine (Ensures.refuse _ _).bind_congr fun _ _ _ _ => ?_
  rw [addU64Checked_of_lt (by omega)]
  refine (Ensures.refuse _ _).bind_congr fun _ _ _ hle => ?_
  rw [subU64Checked_of_le (Nat.not_lt.mp hle.2.2)]
  refine (ensures_reportAck visitor _).bind_congr fun _ _ _ _ => ?_
  rw [processAckBlocksChecked_eq visitor hlen numAckBlocks (by omega)]

/-- The parser of ack frames never wraps. -/
theorem processAckFrameChecked_eq (frameType : Nat) :
    processAckFrameChecked visitor frameType = processAckFrame visitor frameType := by
  refine (ensures_uint _ _).bind_congr fun _ _ largestAcked hlargest => ?_
  refine (ensures_ufloat16 _).bind_congr fun _ _ delay _ => ?_
  refine (ensures_reportAck visitor _).bind_congr fun _ _ _ _ => ?_
  exact processAckRangesChecked_eq visitor _ (readAckPacketNumberLength_le _)
    (hlargest.2.2.trans_le (pow_bytes_le (readAckPacketNumberLength_le _)))

end Checked

/-- **Whatever the bytes and the visitor: the loop over the frames ends, what is reported of an
ack frame are ranges that go down from its `largest_acked`, and they are computed without
wrapping.** -/
theorem frame_parser_safe (visitor : Visitor) (header : QuicPacketHeader) (bytes : List UInt8) :
    (if bytes = [] then
        processFrameData visitor header ⟨bytes, []⟩ =
          (.error ⟨.missingPayload, "Packet has no frames."⟩, ⟨[], []⟩)
      else Loops (processFrame visitor header) ⟨bytes, []⟩
        (processFrameData visitor header ⟨bytes, []⟩)) ∧
      AckCalls (processFrameData visitor header ⟨bytes, []⟩).2.calls ∧
      ∀ frameType, processAckFrameChecked visitor frameType = processAckFrame visitor frameType := by
  have hempty : processFrameData visitor header ⟨[], []⟩ =
      (.error ⟨.missingPayload, "Packet has no frames."⟩, ⟨[], []⟩) := rfl
  by_cases hbytes : bytes = []
  · rw [if_pos hbytes, hbytes, hempty]
    exact ⟨rfl, .nil, processAckFrameChecked_eq visitor⟩
  · have hloop := loops_processFrames visitor header bytes.length ⟨bytes, []⟩ (Nat.le_refl _)
    rw [← processFrameData_of_ne visitor header hbytes] at hloop
    obtain ⟨ks, hcalls, hks⟩ := hloop.calls .nil (fun _ _ => .append)
      ((ensures_processFrame visitor header).mono (fun _ _ _ h => h.2) fun _ h => h)
    rw [if_neg hbytes, hcalls]
    exact ⟨hloop, hks, processAckFrameChecked_eq visitor⟩

end CongestionResponse.Framer
