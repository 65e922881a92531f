import CongestionResponse.Framer.Frames

/-! `MyQuicFramer::ProcessFrameData`: the parser of a packet's frames.

A function that returns false in the source fails here with its detailed error;
`processFrame` adds the error code. The calls of the visitor stay made where a frame
turns out to be malformed after them. The timestamps of an ack frame are read and
dropped, as they are in the source when acks are processed incrementally. -/
namespace CongestionResponse.Framer
open Lib Quic

/-! ### Ack frames -/

/-- Tell the visitor something, in the middle of an ack frame. -/
def reportAck (visitor : Visitor) (call : Call) : Parse String Call Unit := do
  let accepted ← Parse.call visitor call
  Parse.refuse (accepted = false) "Visitor suppresses further processing of ack frame."

/-- Empty blocks only bridge a gap: they are not reported. -/
def reportRange (visitor : Visitor) (start length : Nat) (lastRange : Bool) :
    Parse String Call Unit :=
  if 0 < length then reportAck visitor (.onAckRange start (start + length) lastRange) else pure ()

/-- One round of the loop over the ack blocks: the new start of the received packets. -/
def processAckBlock (visitor : Visitor) (ackBlockLength : QuicPacketNumberLength)
    (lastRange : Bool) (firstReceived : Nat) : Parse String Call Nat := do
  let gap ← readUInt8 "Unable to read gap to next ack block."
  let currentBlockLength ← readBytesToUInt64 ackBlockLength.bytes "Unable to ack block length."
  Parse.refuse (firstReceived < gap + currentBlockLength)
    ("Underflow with ack block length " ++ toString currentBlockLength ++
      ", end of block is " ++ toString (subU64 firstReceived gap) ++ ".")
  let start := firstReceived - (gap + currentBlockLength)
  reportRange visitor start currentBlockLength lastRange
  return start

/-- The loop over the ack blocks, with the number of blocks still to come. -/
def processAckBlocks (visitor : Visitor) (ackBlockLength : QuicPacketNumberLength) :
    Nat → Nat → Parse String Call Unit
  | 0, _ => pure ()
  | left + 1, firstReceived => do
    let start ← processAckBlock visitor ackBlockLength (left == 0) firstReceived
    processAckBlocks visitor ackBlockLength left start

/-- The rounds of the loop over the timestamps after the first. -/
def processMoreTimestamps : Nat → Parse String Call Unit
  | 0 => pure ()
  | left + 1 => do
    let _ ← readUInt8 "Unable to read sequence delta in received packets."
    let _ ← readUFloat16 "Unable to read incremental time delta in received packets."
    processMoreTimestamps left

def processTimestampsInAckFrame : Nat → Parse String Call Unit
  | 0 => pure ()
  | left + 1 => do
    let _ ← readUInt8 "Unable to read sequence delta in received packets."
    let _ ← readUInt32 "Unable to read time delta in received packets."
    processMoreTimestamps left

def readNumAckBlocks (hasAckBlocks : Bool) : Parse String Call Nat :=
  if hasAckBlocks then readUInt8 "Unable to read num of ack blocks." else pure 0

/-- `ProcessAckFrame` from the number of ack blocks on. -/
def processAckRanges (visitor : Visitor) (hasAckBlocks : Bool)
    (ackBlockLength : QuicPacketNumberLength) (largestAcked : Nat) : Parse String Call Unit := do
  let numAckBlocks ← readNumAckBlocks hasAckBlocks
  let firstBlockLength ←
    readBytesToUInt64 ackBlockLength.bytes "Unable to read first ack block length."
  Parse.refuse (firstBlockLength = 0 ∧ (largestAcked ≠ 0 ∨ numAckBlocks ≠ 0))
    ("First block length is zero but ACK is not empty. largest acked is " ++
      toString largestAcked ++ ", num ack blocks is " ++ toString numAckBlocks ++ ".")
  Parse.refuse (largestAcked + 1 < firstBlockLength)
    ("Underflow with first ack block length " ++ toString firstBlockLength ++
      " largest acked is " ++ toString largestAcked ++ ".")
  let firstReceived := largestAcked + 1 - firstBlockLength
  reportAck visitor (.onAckRange firstReceived (largestAcked + 1) (!hasAckBlocks))
  processAckBlocks visitor ackBlockLength numAckBlocks firstReceived
  let numReceivedPackets ← readUInt8 "Unable to read num received packets."
  processTimestampsInAckFrame numReceivedPackets

def ackDelay (ackDelayTimeUs : Nat) : Int :=
  if ackDelayTimeUs = kUFloat16MaxValue then Delta.infinite else ackDelayTimeUs

def processAckFrame (visitor : Visitor) (frameType : Nat) : Parse String Call Unit := do
  let hasAckBlocks := extractBit frameType kQuicHasMultipleAckBlocksOffsetPre40
  let ackBlockLength := readAckPacketNumberLength
    (extractBits frameType kQuicSequenceNumberLengthNumBits kActBlockLengthOffset)
  let largestAckedLength := readAckPacketNumberLength
    (extractBits frameType kQuicSequenceNumberLengthNumBits kLargestAckedOffset)
  let largestAcked ← readBytesToUInt64 largestAckedLength.bytes "Unable to read largest acked."
  let ackDelayTimeUs ← readUFloat16 "Unable to read ack delay time."
  reportAck visitor (.onAckFrameStart largestAcked (ackDelay ackDelayTimeUs))
  processAckRanges visitor hasAckBlocks ackBlockLength largestAcked

/-! ### The other frames -/

def kQuicStreamIDLengthMaskPre40 : Nat := 0b00000011
def kQuicStreamIdShiftPre40 : Nat := 2
def kQuicStreamOffsetMaskPre40 : Nat := 0b00000111
def kQuicStreamShiftPre40 : Nat := 3
def kQuicStreamDataLengthMaskPre40 : Nat := 0b00000001
def kQuicStreamDataLengthShiftPre40 : Nat := 1
def kQuicStreamFinMaskPre40 : Nat := 0b00000001
def kQuicStreamFinShiftPre40 : Nat := 1

/-- There is no encoding for an offset of one byte. -/
def streamOffsetLength (flags : Nat) : Nat :=
  let offsetLength := flags &&& kQuicStreamOffsetMaskPre40
  if 0 < offsetLength then offsetLength + 1 else 0

/-- Without a length, the data are all that is left of the packet. -/
def readStreamData (hasDataLength : Bool) : Parse String Call (List UInt8) := do
  let remaining ← Parse.remaining
  if hasDataLength then readStringPiece16 "Unable to read frame data."
  else readStringPiece remaining "Unable to read frame data."

def processStreamFrame (frameType : Nat) : Parse String Call QuicStreamFrame := do
  let idFlags := frameType &&& (255 - kQuicFrameTypeStreamMaskPre40)
  let offsetFlags := idFlags >>> kQuicStreamIdShiftPre40
  let lengthFlags := offsetFlags >>> kQuicStreamShiftPre40
  let finFlags := lengthFlags >>> kQuicStreamDataLengthShiftPre40
  let streamId ← readBytesToUInt64 ((idFlags &&& kQuicStreamIDLengthMaskPre40) + 1)
    "Unable to read stream_id."
  let offset ← readBytesToUInt64 (streamOffsetLength offsetFlags) "Unable to read offset."
  let data ← readStreamData
    (decide (lengthFlags &&& kQuicStreamDataLengthMaskPre40 = kQuicStreamDataLengthMaskPre40))
  return {
    streamId := streamId % 2 ^ 32
    fin := decide (finFlags &&& kQuicStreamFinMaskPre40 = kQuicStreamFinShiftPre40)
    offset := offset
    data := data
    dataLength := data.length % 2 ^ 16 }

def kQuicStreamLastError : Nat := 17
def kQuicLastError : Nat := 120

def processRstStreamFrame : Parse String Call QuicRstStreamFrame := do
  let streamId ← readUInt32 "Unable to read stream_id."
  let byteOffset ← readUInt64 "Unable to read rst stream sent byte offset."
  let errorCode ← readUInt32 "Unable to read rst stream error code."
  return ⟨streamId, byteOffset, min errorCode kQuicStreamLastError⟩

def processConnectionCloseFrame : Parse String Call QuicConnectionCloseFrame := do
  let errorCode ← readUInt32 "Unable to read connection close error code."
  let errorDetails ← readStringPiece16 "Unable to read connection close error details."
  return ⟨min errorCode kQuicLastError, errorDetails⟩

def processGoAwayFrame : Parse String Call QuicGoAwayFrame := do
  let errorCode ← readUInt32 "Unable to read go away error code."
  let streamId ← readUInt32 "Unable to read last good stream id."
  let reasonPhrase ← readStringPiece16 "Unable to read goaway reason."
  return ⟨min errorCode kQuicLastError, streamId, reasonPhrase⟩

def processWindowUpdateFrame : Parse String Call QuicWindowUpdateFrame := do
  let streamId ← readUInt32 "Unable to read stream_id."
  let byteOffset ← readUInt64 "Unable to read window byte_offset."
  return ⟨streamId, byteOffset⟩

def processBlockedFrame : Parse String Call Nat := readUInt32 "Unable to read stream_id."

/-- What the frame parser reads of a packet's header. -/
structure QuicPacketHeader where
  packetNumber : Nat
  packetNumberLength : QuicPacketNumberLength

def processStopWaitingFrame (header : QuicPacketHeader) : Parse String Call Nat := do
  let leastUnackedDelta ←
    readBytesToUInt64 header.packetNumberLength.bytes "Unable to read least unacked delta."
  Parse.refuse (header.packetNumber < leastUnackedDelta) "Invalid unacked delta."
  return header.packetNumber - leastUnackedDelta

/-- All zero bytes that follow belong to the padding. -/
def processPaddingFrame : Parse String Call Nat := fun c =>
  (.ok (1 + (c.rest.takeWhile (· == 0)).length), {c with rest := c.rest.dropWhile (· == 0)})

/-! ### The loop over the frames -/

/-- `RaiseError` for a frame that could not be read. -/
def raising {α : Type} (error : QuicErrorCode) (p : Parse String Call α) :
    Parse FramerError Call α :=
  p.mapError fun detail => ⟨error, detail⟩

/-- Read a frame and show it to the visitor, who says whether to go on. -/
def showing {α : Type} (visitor : Visitor) (error : QuicErrorCode) (p : Parse String Call α)
    (call : α → Call) : Parse FramerError Call Bool := do
  let frame ← raising error p
  Parse.call visitor (call frame)

def isStreamFrame (frameType : Nat) : Prop :=
  frameType &&& kQuicFrameTypeStreamMaskPre40 ≠ 0 ∨
    frameType &&& kQuicFrameTypeStreamMask = kQuicFrameTypeStreamMask

def isAckFrame (frameType : Nat) : Prop :=
  frameType &&& kQuicFrameTypeAckMaskPre40 ≠ 0 ∨
    frameType &&& kQuicFrameTypeSpecialMask = kQuicFrameTypeAckMask

instance (frameType : Nat) : Decidable (isStreamFrame frameType) :=
  inferInstanceAs (Decidable (_ ∨ _))

instance (frameType : Nat) : Decidable (isAckFrame frameType) :=
  inferInstanceAs (Decidable (_ ∨ _))

def processSpecialFrame (visitor : Visitor) (frameType : Nat) : Parse FramerError Call Bool :=
  if isStreamFrame frameType then
    showing visitor .invalidStreamData (processStreamFrame frameType) .onStreamFrame
  else if isAckFrame frameType then do
    raising .invalidAckData (processAckFrame visitor frameType)
    return true
  else Parse.fail ⟨.invalidFrameData, "Illegal frame type."⟩

def processRegularFrame (visitor : Visitor) (header : QuicPacketHeader) :
    Nat → Parse FramerError Call Bool
  | 0 => showing visitor .invalidFrameData processPaddingFrame .onPaddingFrame
  | 1 => showing visitor .invalidRstStreamData processRstStreamFrame .onRstStreamFrame
  | 2 => showing visitor .invalidConnectionCloseData processConnectionCloseFrame
      .onConnectionCloseFrame
  | 3 => showing visitor .invalidGoawayData processGoAwayFrame .onGoAwayFrame
  | 4 => showing visitor .invalidWindowUpdateData processWindowUpdateFrame .onWindowUpdateFrame
  | 5 => showing visitor .invalidBlockedData processBlockedFrame .onBlockedFrame
  | 6 => showing visitor .invalidStopWaitingData (processStopWaitingFrame header)
      .onStopWaitingFrame
  | 7 => Parse.call visitor .onPingFrame
  | _ => Parse.fail ⟨.invalidFrameData, "Illegal frame type."⟩

/-- One round of the loop: whether the visitor wants to go on. -/
def processFrame (visitor : Visitor) (header : QuicPacketHeader) :
    Parse FramerError Call Bool := do
  let frameType ← raising .invalidFrameData (readUInt8 "Unable to read frame type.")
  if frameType &&& kQuicFrameTypeSpecialMask ≠ 0 then processSpecialFrame visitor frameType
  else processRegularFrame visitor header frameType

/-- The loop. Every frame takes its type byte, so there are at most as many rounds as
bytes. -/
def processFrames (visitor : Visitor) (header : QuicPacketHeader) :
    Nat → Parse FramerError Call Unit
  | 0 => pure ()
  | rounds + 1 => do
    let remaining ← Parse.remaining
    if remaining = 0 then pure ()
    else
      let goOn ← processFrame visitor header
      if goOn then processFrames visitor header rounds else pure ()

def processFrameData (visitor : Visitor) (header : QuicPacketHeader) :
    Parse FramerError Call Unit := do
  let remaining ← Parse.remaining
  Parse.refuse (remaining = 0) ⟨.missingPayload, "Packet has no frames."⟩
  processFrames visitor header remaining

end CongestionResponse.Framer
