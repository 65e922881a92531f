import CongestionResponse.Framer.AckRoundTrip
import CongestionResponse.Framer.Safety
import CongestionResponse.Lib.Payload

/-! The grammar of a packet's frames.

`WireFrame` lists the frames as they stand on the wire, and `wireFormat` says of each of them
which bytes it has, what the visitor hears of it, when its fields hold its values and what may
stand behind it. Two kinds of frames do not say where they end: padding goes on as long as there
are zero bytes, and a stream frame without a length goes on to the end of the packet.

The parser accepts exactly the payloads of this format (`accepted_iff`). -/
namespace CongestionResponse.Framer
open Lib Quic

/-! ### Frames on the wire -/

/-- A string with its length in front. -/
def sized (data : List UInt8) : List UInt8 := bigEndian 2 data.length ++ data

/-- A stream frame: the type byte `1FDOOOSS` has the fin bit, whether there is a length, and the
lengths of offset and stream id. -/
structure StreamFields where
  fin : Bool
  hasDataLength : Bool
  offsetCode : Fin 8
  streamIdCode : Fin 4
  streamId : Nat
  offset : Nat
  data : List UInt8

namespace StreamFields
variable (f : StreamFields)

def typeByte : Nat :=
  128 + f.fin.toNat * 64 + f.hasDataLength.toNat * 32 + f.offsetCode * 4 + f.streamIdCode

def streamIdLength : Nat := f.streamIdCode + 1

/-- There is no offset of one byte. -/
def offsetLength : Nat := if f.offsetCode = 0 then 0 else f.offsetCode + 1

def body : List UInt8 :=
  bigEndian f.streamIdLength f.streamId ++ (bigEndian f.offsetLength f.offset ++
    if f.hasDataLength then sized f.data else f.data)

structure Valid : Prop where
  streamId : f.streamId < 256 ^ f.streamIdLength
  offset : f.offset < 256 ^ f.offsetLength
  data : f.hasDataLength = true → f.data.length < 2 ^ 16

/-- What the visitor is shown. Of the length, 16 bits are kept. -/
def frame : QuicStreamFrame := ⟨f.streamId, f.fin, f.offset, f.data, f.data.length % 2 ^ 16⟩

end StreamFields

/-- The type byte `01BxLLMM` of an ack frame: whether there are blocks, a bit that is not used,
and the lengths of `largest_acked` and of the blocks. -/
structure AckHead where
  hasAckBlocks : Bool
  unused : Bool
  largestAckedCode : Fin 4
  ackBlockCode : Fin 4

namespace AckHead
variable (head : AckHead)

def typeByte : Nat :=
  64 + head.hasAckBlocks.toNat * 32 + head.unused.toNat * 16 + head.largestAckedCode * 4 +
    head.ackBlockCode

def largestAckedLength : QuicPacketNumberLength := readAckPacketNumberLength head.largestAckedCode

def ackBlockLength : QuicPacketNumberLength := readAckPacketNumberLength head.ackBlockCode

end AckHead

inductive WireFrame where
  | padding (numPaddingBytes : Nat)
  | rstStream (frame : QuicRstStreamFrame)
  | connectionClose (frame : QuicConnectionCloseFrame)
  | goAway (frame : QuicGoAwayFrame)
  | windowUpdate (frame : QuicWindowUpdateFrame)
  | blocked (streamId : Nat)
  | stopWaiting (leastUnackedDelta : Nat)
  | ping
  | stream (fields : StreamFields)
  | ack (head : AckHead) (largestAcked ackDelayTime : Nat) (fields : AckFields)

namespace WireFrame

/-- The bytes of a frame, in a packet whose numbers have `length` bytes. -/
def bytes (length : Nat) : WireFrame → List UInt8
  | .padding n => List.replicate n 0
  | .rstStream f => 1 :: (bigEndian 4 f.streamId ++ (bigEndian 8 f.byteOffset ++
      bigEndian 4 f.errorCode))
  | .connectionClose f => 2 :: (bigEndian 4 f.errorCode ++ sized f.errorDetails)
  | .goAway f => 3 :: (bigEndian 4 f.errorCode ++ (bigEndian 4 f.lastGoodStreamId ++
      sized f.reasonPhrase))
  | .windowUpdate f => 4 :: (bigEndian 4 f.streamId ++ bigEndian 8 f.byteOffset)
  | .blocked streamId => 5 :: bigEndian 4 streamId
  | .stopWaiting delta => 6 :: bigEndian length delta
  | .ping => [7]
  | .stream f => UInt8.ofNat f.typeByte :: f.body
  | .ack head largestAcked delay fields => UInt8.ofNat head.typeByte ::
      (bigEndian head.largestAckedLength.bytes largestAcked ++ (bigEndian 2 delay ++
        fields.bytes head.hasAckBlocks head.ackBlockLength))

/-- What the visitor hears of a frame. Error codes that are not known become the last known
one. -/
def calls (packetNumber : Nat) : WireFrame → List Call
  | .padding n => [.onPaddingFrame n]
  | .rstStream f => [.onRstStreamFrame {f with errorCode := min f.errorCode kQuicStreamLastError}]
  | .connectionClose f =>
    [.onConnectionCloseFrame {f with errorCode := min f.errorCode kQuicLastError}]
  | .goAway f => [.onGoAwayFrame {f with errorCode := min f.errorCode kQuicLastError}]
  | .windowUpdate f => [.onWindowUpdateFrame f]
  | .blocked streamId => [.onBlockedFrame streamId]
  | .stopWaiting delta => [.onStopWaitingFrame (packetNumber - delta)]
  | .ping => [.onPingFrame]
  | .stream f => [.onStreamFrame f.frame]
  | .ack head largestAcked delay fields =>
    .onAckFrameStart largestAcked (ackDelay (fromUFloat16 delay)) ::
      fields.calls head.hasAckBlocks largestAcked

/-- The fields of a frame hold its values. -/
def Valid (header : QuicPacketHeader) : WireFrame → Prop
  | .padding n => 0 < n
  | .rstStream f => f.streamId < 2 ^ 32 ∧ f.byteOffset < 2 ^ 64 ∧ f.errorCode < 2 ^ 32
  | .connectionClose f => f.errorCode < 2 ^ 32 ∧ f.errorDetails.length < 2 ^ 16
  | .goAway f =>
    f.errorCode < 2 ^ 32 ∧ f.lastGoodStreamId < 2 ^ 32 ∧ f.reasonPhrase.length < 2 ^ 16
  | .windowUpdate f => f.streamId < 2 ^ 32 ∧ f.byteOffset < 2 ^ 64
  | .blocked streamId => streamId < 2 ^ 32
  | .stopWaiting delta =>
    delta < 256 ^ header.packetNumberLength.bytes ∧ delta ≤ header.packetNumber
  | .ping => True
  | .stream f => f.Valid
  | .ack head largestAcked delay fields =>
    largestAcked < 256 ^ head.largestAckedLength.bytes ∧ delay < 2 ^ 16 ∧
      fields.Valid head.hasAckBlocks head.ackBlockLength largestAcked

/-- What may stand behind a frame. -/
def Before : WireFrame → List UInt8 → Prop
  | .padding _, rest => rest.head? ≠ some 0
  | .stream f, rest => f.hasDataLength = false → rest = []
  | _, _ => True

end WireFrame

def wireFormat (header : QuicPacketHeader) : Format WireFrame Call where
  bytes := WireFrame.bytes header.packetNumberLength.bytes
  calls := WireFrame.calls header.packetNumber
  Valid := WireFrame.Valid header
  Before := WireFrame.Before

/-! ### Type bytes -/

/-- What the parser makes of the type byte of a stream frame. -/
structure StreamType (frameType : Nat) (f : StreamFields) : Prop where
  byte : frameType < 256
  special : frameType &&& kQuicFrameTypeSpecialMask ≠ 0
  stream : isStreamFrame frameType
  streamId : ((frameType &&& (255 - kQuicFrameTypeStreamMaskPre40)) &&&
    kQuicStreamIDLengthMaskPre40) + 1 = f.streamIdLength
  offset : streamOffsetLength
    ((frameType &&& (255 - kQuicFrameTypeStreamMaskPre40)) >>> kQuicStreamIdShiftPre40) =
      f.offsetLength
  dataLength : decide (((frameType &&& (255 - kQuicFrameTypeStreamMaskPre40)) >>>
    kQuicStreamIdShiftPre40) >>> kQuicStreamShiftPre40 &&& kQuicStreamDataLengthMaskPre40 =
      kQuicStreamDataLengthMaskPre40) = f.hasDataLength
  fin : decide ((((frameType &&& (255 - kQuicFrameTypeStreamMaskPre40)) >>>
    kQuicStreamIdShiftPre40) >>> kQuicStreamShiftPre40) >>> kQuicStreamDataLengthShiftPre40 &&&
      kQuicStreamFinMaskPre40 = kQuicStreamFinShiftPre40) = f.fin

theorem streamType_typeByte (f : StreamFields) : StreamType f.typeByte f := by
  obtain ⟨fin, has, o, i, streamId, offset, data⟩ := f
  have hall : ∀ (fin has : Bool) (o : Fin 8) (i : Fin 4),
      StreamType (StreamFields.typeByte ⟨fin, has, o, i, 0, 0, []⟩) ⟨fin, has, o, i, 0, 0, []⟩ := by
    intro fin has o i
    constructor <;> revert fin has o i <;> decide +kernel
  have h := hall fin has o i
  exact ⟨h.byte, h.special, h.stream, h.streamId, h.offset, h.dataLength, h.fin⟩

theorem exists_streamType : ∀ t : Fin 256, isStreamFrame t → ∃ (fin has : Bool) (o : Fin 8)
    (i : Fin 4), t.val = StreamFields.typeByte ⟨fin, has, o, i, 0, 0, []⟩ := by
  decide +kernel

theorem announces_typeByte (head : AckHead) :
    Announces head.typeByte head.hasAckBlocks head.largestAckedLength head.ackBlockLength := by
  obtain ⟨has, unused, large, small⟩ := head
  constructor <;> revert has unused large small <;> decide +kernel

theorem exists_announces : ∀ t : Fin 256, t.val &&& kQuicFrameTypeSpecialMask ≠ 0 →
    ¬isStreamFrame t → isAckFrame t → ∃ (has unused : Bool) (large small : Fin 4),
      t.val = AckHead.typeByte ⟨has, unused, large, small⟩ := by
  decide +kernel

/-! ### Fields -/

section Fields
variable {κ : Type} {value : Nat} {data : List UInt8}

theorem reads_uint32 (h : value < 2 ^ 32) (error : String) :
    Reads (readUInt32 error : Parse String κ Nat) (bigEndian 4 value) [] value :=
  reads_uint h error

theorem reads_uint64 (h : value < 2 ^ 64) (error : String) :
    Reads (readUInt64 error : Parse String κ Nat) (bigEndian 8 value) [] value :=
  reads_uint h error

theorem reads_sized (h : data.length < 2 ^ 16) (error : String) :
    Reads (readStringPiece16 error : Parse String κ _) (sized data) [] data :=
  (reads_uint h error).bind (k := []) (.take rfl error)

theorem ensures_sized (error : String) :
    Ensures (readStringPiece16 error : Parse String κ _)
      (fun bs ks data => Silent ks ∧ bs = sized data ∧ data.length < 2 ^ 16) Silent := by
  refine (ensures_uint 2 error).bind_silent rfl fun lengthBytes size hsize => ?_
  refine (Ensures.take size error).mono (fun bs ks data h => ?_) fun _ h => h
  obtain ⟨hks, rfl, hlength⟩ := h
  rw [sized, hlength, ← hsize.1]
  exact ⟨hks, rfl, hsize.2⟩

end Fields

/-! ### Frames that are accepted -/

section Reading
variable {visitor : Visitor} (header : QuicPacketHeader)

theorem reads_showing {α : Type} {p : Parse String Call α} {bs : List UInt8} {a : α}
    (hv : visitor.Accepts) (error : QuicErrorCode) (call : α → Call) (h : Reads p bs [] a) :
    Reads (showing visitor error p call) bs [call a] true := by
  have hshow := (h.mapError fun detail => (⟨error, detail⟩ : FramerError)).bind
    (f := fun a => Parse.call visitor (call a)) (Reads.call hv (call a))
  rwa [List.append_nil] at hshow

theorem reads_frameType {frameType : Nat} (h : frameType < 256) :
    Reads (raising .invalidFrameData (readUInt8 "Unable to read frame type."))
      [UInt8.ofNat frameType] [] frameType :=
  (reads_uint (show frameType < 256 ^ 1 from h) _).mapError _

theorem reads_regular (frameType : Nat) {body : List UInt8} {ks : List Call}
    (hbyte : frameType < 256) (hregular : frameType &&& kQuicFrameTypeSpecialMask = 0)
    (h : Reads (processRegularFrame visitor header frameType) body ks true) :
    Reads (processFrame visitor header) (UInt8.ofNat frameType :: body) ks true := by
  refine Reads.bind (b := [UInt8.ofNat frameType]) (k := []) (reads_frameType hbyte) ?_
  rw [if_neg (not_not.mpr hregular)]
  exact h

theorem reads_rstStream {f : QuicRstStreamFrame}
    (h : f.streamId < 2 ^ 32 ∧ f.byteOffset < 2 ^ 64 ∧ f.errorCode < 2 ^ 32) :
    Reads processRstStreamFrame (bigEndian 4 f.streamId ++ (bigEndian 8 f.byteOffset ++
      bigEndian 4 f.errorCode)) [] {f with errorCode := min f.errorCode kQuicStreamLastError} := by
  refine Reads.bind (k := []) (reads_uint32 h.1 _) ?_
  refine Reads.bind (k := []) (reads_uint64 h.2.1 _) ?_
  exact (reads_uint32 h.2.2 _).map fun errorCode =>
    (⟨f.streamId, f.byteOffset, min errorCode kQuicStreamLastError⟩ : QuicRstStreamFrame)

theorem reads_connectionClose {f : QuicConnectionCloseFrame}
    (h : f.errorCode < 2 ^ 32 ∧ f.errorDetails.length < 2 ^ 16) :
    Reads processConnectionCloseFrame (bigEndian 4 f.errorCode ++ sized f.errorDetails) []
      {f with errorCode := min f.errorCode kQuicLastError} := by
  refine Reads.bind (k := []) (reads_uint32 h.1 _) ?_
  exact (reads_sized h.2 _).map fun details =>
    (⟨min f.errorCode kQuicLastError, details⟩ : QuicConnectionCloseFrame)

theorem reads_goAway {f : QuicGoAwayFrame} (h : f.errorCode < 2 ^ 32 ∧
    f.lastGoodStreamId < 2 ^ 32 ∧ f.reasonPhrase.length < 2 ^ 16) :
    Reads processGoAwayFrame (bigEndian 4 f.errorCode ++ (bigEndian 4 f.lastGoodStreamId ++
      sized f.reasonPhrase)) [] {f with errorCode := min f.errorCode kQuicLastError} := by
  refine Reads.bind (k := []) (reads_uint32 h.1 _) ?_
  refine Reads.bind (k := []) (reads_uint32 h.2.1 _) ?_
  exact (reads_sized h.2.2 _).map fun reason =>
    (⟨min f.errorCode kQuicLastError, f.lastGoodStreamId, reason⟩ : QuicGoAwayFrame)

theorem reads_windowUpdate {f : QuicWindowUpdateFrame}
    (h : f.streamId < 2 ^ 32 ∧ f.byteOffset < 2 ^ 64) :
    Reads processWindowUpdateFrame (bigEndian 4 f.streamId ++ bigEndian 8 f.byteOffset) [] f := by
  refine Reads.bind (k := []) (reads_uint32 h.1 _) ?_
  exact (reads_uint64 h.2 _).map fun byteOffset =>
    (⟨f.streamId, byteOffset⟩ : QuicWindowUpdateFrame)

theorem reads_stopWaiting {delta : Nat}
    (h : delta < 256 ^ header.packetNumberLength.bytes ∧ delta ≤ header.packetNumber) :
    Reads (processStopWaitingFrame header) (bigEndian header.packetNumberLength.bytes delta) []
      (header.packetNumber - delta) := by
  rw [← List.append_nil (bigEndian _ delta)]
  refine Reads.bind (k := []) (reads_uint h.1 _) ?_
  exact (Reads.refuse (Nat.not_lt.mpr h.2) _).map fun _ => header.packetNumber - delta

/-- The data of a stream frame end where its length says, or where the packet does. -/
theorem readStreamData_eq {f : StreamFields} (h : f.Valid) {rest : List UInt8}
    (hrest : f.hasDataLength = false → rest = []) (calls : List Call) :
    readStreamData f.hasDataLength ⟨(if f.hasDataLength then sized f.data else f.data) ++ rest,
      calls⟩ = (.ok f.data, ⟨rest, calls⟩) := by
  unfold readStreamData
  cases hlength : f.hasDataLength with
  | true =>
    have hread := reads_sized (κ := Call) (h.data hlength) "Unable to read frame data." rest calls
    rw [List.append_nil] at hread
    exact hread
  | false =>
    have hread := Reads.take (ε := String) (κ := Call) (rfl : f.data.length = f.data.length)
      "Unable to read frame data." [] calls
    simp only [List.append_nil] at hread
    rw [hrest hlength, List.append_nil]
    exact hread

theorem processStreamFrame_eq {f : StreamFields} (h : f.Valid) {rest : List UInt8}
    (hrest : f.hasDataLength = false → rest = []) (calls : List Call) :
    processStreamFrame f.typeByte ⟨f.body ++ rest, calls⟩ = (.ok f.frame, ⟨rest, calls⟩) := by
  have htype := streamType_typeByte f
  have hid := reads_uint (κ := Call) h.streamId "Unable to read stream_id."
  have hoffset := reads_uint (κ := Call) h.offset "Unable to read offset."
  have hsmall : f.streamId % 2 ^ 32 = f.streamId := by
    refine Nat.mod_eq_of_lt (h.streamId.trans_le ?_)
    have hlength : f.streamIdLength ≤ 4 := f.streamIdCode.isLt
    exact Nat.pow_le_pow_right (n := 256) (by decide) hlength
  unfold processStreamFrame
  rw [htype.streamId, htype.offset, htype.dataLength, htype.fin, StreamFields.body,
    List.append_assoc, List.append_assoc, Parse.bind_ok (hid _ _), Parse.bind_ok (hoffset _ _),
    List.append_nil, List.append_nil, Parse.bind_ok (readStreamData_eq h hrest calls), hsmall]
  rfl

theorem processFrame_stream (hv : visitor.Accepts) {f : StreamFields} (h : f.Valid)
    {rest : List UInt8} (hrest : f.hasDataLength = false → rest = []) (calls : List Call) :
    processFrame visitor header ⟨UInt8.ofNat f.typeByte :: f.body ++ rest, calls⟩ =
      (.ok true, ⟨rest, calls ++ [.onStreamFrame f.frame]⟩) := by
  have htype := streamType_typeByte f
  have hbyte := reads_frameType htype.byte (f.body ++ rest) calls
  have hframe : raising .invalidStreamData (processStreamFrame f.typeByte)
      ⟨f.body ++ rest, calls⟩ = (.ok f.frame, ⟨rest, calls⟩) := by
    rw [raising, Parse.mapError, processStreamFrame_eq h hrest]
  have hshow := Reads.call (ε := FramerError) hv (.onStreamFrame f.frame) rest calls
  rw [List.append_nil] at hbyte
  unfold processFrame
  rw [List.cons_append, ← List.singleton_append, Parse.bind_ok hbyte, if_pos htype.special,
    processSpecialFrame, if_pos htype.stream, showing, Parse.bind_ok hframe]
  exact hshow

/-- Padding ends in front of a byte that is not zero. -/
theorem processFrame_padding (hv : visitor.Accepts) {n : Nat} (hn : 0 < n) {rest : List UInt8}
    (hrest : rest.head? ≠ some 0) (calls : List Call) :
    processFrame visitor header ⟨List.replicate n 0 ++ rest, calls⟩ =
      (.ok true, ⟨rest, calls ++ [.onPaddingFrame n]⟩) := by
  obtain ⟨k, rfl⟩ := Nat.exists_eq_succ_of_ne_zero hn.ne'
  have hzeros : ∀ b ∈ List.replicate k (0 : UInt8), (b == 0) = true := by
    intro b hb
    rw [List.eq_of_mem_replicate hb]
    rfl
  have hend : rest.takeWhile (· == 0) = [] ∧ rest.dropWhile (· == 0) = rest := by
    cases rest with
    | nil => exact ⟨rfl, rfl⟩
    | cons b rest =>
      have hb : (b == 0) = false := by
        rw [beq_eq_false_iff_ne]
        rintro rfl
        exact hrest rfl
      rw [List.takeWhile_cons_of_neg (by simp [hb]), List.dropWhile_cons_of_neg (by simp [hb])]
      exact ⟨rfl, rfl⟩
  have hbyte := reads_frameType (show 0 < 256 by decide) (List.replicate k 0 ++ rest) calls
  have hpadding : raising .invalidFrameData processPaddingFrame
      ⟨List.replicate k 0 ++ rest, calls⟩ = (.ok (1 + k), ⟨rest, calls⟩) := by
    rw [raising, Parse.mapError, processPaddingFrame, List.takeWhile_append_of_pos hzeros,
      List.dropWhile_append_of_pos hzeros, hend.1, hend.2, List.append_nil, List.length_replicate]
  have hshow := Reads.call (ε := FramerError) hv (.onPaddingFrame (1 + k)) rest calls
  rw [List.append_nil] at hbyte
  unfold processFrame
  rw [List.replicate_succ, List.cons_append]
  refine (Parse.bind_ok hbyte).trans ?_
  rw [if_neg (by decide), processRegularFrame, showing, Parse.bind_ok hpadding, Nat.succ_eq_add_one,
    Nat.add_comm k 1]
  exact hshow

theorem reads_ack (hv : visitor.Accepts) (head : AckHead) {largestAcked delay : Nat}
    {fields : AckFields} (hlargest : largestAcked < 256 ^ head.largestAckedLength.bytes)
    (hdelay : delay < 2 ^ 16)
    (hfields : fields.Valid head.hasAckBlocks head.ackBlockLength largestAcked) :
    Reads (processAckFrame visitor head.typeByte)
      (bigEndian head.largestAckedLength.bytes largestAcked ++ (bigEndian 2 delay ++
        fields.bytes head.hasAckBlocks head.ackBlockLength))
      (.onAckFrameStart largestAcked (ackDelay (fromUFloat16 delay)) ::
        fields.calls head.hasAckBlocks largestAcked) () := by
  have htype := announces_typeByte head
  unfold processAckFrame
  rw [htype.blocks, htype.block, htype.largest]
  refine Reads.bind (k := []) (reads_uint hlargest _) ?_
  refine Reads.bind (k := []) ((reads_uint hdelay _).map fromUFloat16) ?_
  exact Reads.bind (b := []) (k := [_]) (reads_reportAck hv _) (hfields.reads hv)

end Reading

/-! ### Frames that were accepted -/

section Accepted
variable {visitor : Visitor} {header : QuicPacketHeader} {c c' : Cursor Call} {goOn : Bool}

theorem ensures_rstStream (header : QuicPacketHeader) : Ensures processRstStreamFrame
    (fun bs _ _ => ∃ f, (WireFrame.rstStream f).Valid header ∧
      1 :: bs = (WireFrame.rstStream f).bytes header.packetNumberLength.bytes) fun _ => True := by
  refine (ensures_uint 4 _).bind_silent trivial fun idBytes streamId hid => ?_
  refine (ensures_uint 8 _).bind_silent trivial fun offsetBytes byteOffset hoffset => ?_
  refine (ensures_uint 4 _).bind_silent trivial fun codeBytes errorCode hcode => ?_
  refine .pure ⟨⟨streamId, byteOffset, errorCode⟩, ⟨hid.2, hoffset.2, hcode.2⟩, ?_⟩
  rw [hid.1, hoffset.1, hcode.1, List.append_nil]
  rfl

theorem ensures_connectionClose (header : QuicPacketHeader) : Ensures processConnectionCloseFrame
    (fun bs _ _ => ∃ f, (WireFrame.connectionClose f).Valid header ∧
      2 :: bs = (WireFrame.connectionClose f).bytes header.packetNumberLength.bytes)
      fun _ => True := by
  refine (ensures_uint 4 _).bind_silent trivial fun codeBytes errorCode hcode => ?_
  refine (ensures_sized _).bind_silent trivial fun detailsBytes details hdetails => ?_
  refine .pure ⟨⟨errorCode, details⟩, ⟨hcode.2, hdetails.2⟩, ?_⟩
  rw [hcode.1, hdetails.1, List.append_nil]
  rfl

theorem ensures_goAway (header : QuicPacketHeader) : Ensures processGoAwayFrame
    (fun bs _ _ => ∃ f, (WireFrame.goAway f).Valid header ∧
      3 :: bs = (WireFrame.goAway f).bytes header.packetNumberLength.bytes) fun _ => True := by
  refine (ensures_uint 4 _).bind_silent trivial fun codeBytes errorCode hcode => ?_
  refine (ensures_uint 4 _).bind_silent trivial fun idBytes streamId hid => ?_
  refine (ensures_sized _).bind_silent trivial fun reasonBytes reason hreason => ?_
  refine .pure ⟨⟨errorCode, streamId, reason⟩, ⟨hcode.2, hid.2, hreason.2⟩, ?_⟩
  rw [hcode.1, hid.1, hreason.1, List.append_nil]
  rfl

theorem ensures_windowUpdate (header : QuicPacketHeader) : Ensures processWindowUpdateFrame
    (fun bs _ _ => ∃ f, (WireFrame.windowUpdate f).Valid header ∧
      4 :: bs = (WireFrame.windowUpdate f).bytes header.packetNumberLength.bytes)
      fun _ => True := by
  refine (ensures_uint 4 _).bind_silent trivial fun idBytes streamId hid => ?_
  refine (ensures_uint 8 _).bind_silent trivial fun offsetBytes byteOffset hoffset => ?_
  refine .pure ⟨⟨streamId, byteOffset⟩, ⟨hid.2, hoffset.2⟩, ?_⟩
  rw [hid.1, hoffset.1, List.append_nil]
  rfl

theorem ensures_stopWaiting (header : QuicPacketHeader) :
    Ensures (processStopWaitingFrame header)
    (fun bs _ _ => ∃ delta, (WireFrame.stopWaiting delta).Valid header ∧
      6 :: bs = (WireFrame.stopWaiting delta).bytes header.packetNumberLength.bytes)
      fun _ => True := by
  refine (ensures_uint _ _).bind_silent trivial fun deltaBytes delta hdelta => ?_
  refine (Ensures.refuse _ _).bind_silent trivial fun bs _ hle => ?_
  refine .pure ⟨delta, ⟨hdelta.2, Nat.not_lt.mp hle.2⟩, ?_⟩
  rw [hdelta.1, hle.1, List.append_nil, List.append_nil]
  rfl

theorem ensures_ack (header : QuicPacketHeader) (head : AckHead) :
    Ensures (processAckFrame visitor head.typeByte)
    (fun bs _ _ => ∃ largestAcked delay fields,
      (WireFrame.ack head largestAcked delay fields).Valid header ∧
      UInt8.ofNat head.typeByte :: bs =
        (WireFrame.ack head largestAcked delay fields).bytes header.packetNumberLength.bytes)
      fun _ => True := by
  have htype := announces_typeByte head
  unfold processAckFrame
  rw [htype.blocks, htype.block, htype.largest]
  refine (ensures_uint _ _).bind_silent trivial fun largestBytes largestAcked hlargest => ?_
  have hfloat : Ensures (readUFloat16 "Unable to read ack delay time.")
      (fun bs (ks : List Call) _ => Silent ks ∧ ∃ delay, bs = bigEndian 2 delay ∧ delay < 2 ^ 16)
      Silent := by
    refine (ensures_uint 2 _).bind_silent rfl fun bs delay hdelay => .pure ⟨rfl, delay, ?_⟩
    rw [List.append_nil]
    exact hdelay
  refine hfloat.bind_silent trivial fun delayBytes _ hdelay => ?_
  obtain ⟨delay, rfl, hdelay⟩ := hdelay
  refine (ensures_reportAck visitor _).bind (fun _ _ => trivial) fun bs ks _ hreport => ?_
  refine (ensures_processAckRanges visitor _ _ _).mono (fun bs' ks' _ h => ?_) fun _ _ => trivial
  obtain ⟨fields, hvalid, rfl, -⟩ := h
  refine ⟨largestAcked, delay, fields, ⟨hlargest.2, hdelay, hvalid⟩, ?_⟩
  rw [hlargest.1, hreport.1]
  rfl

theorem of_processStreamFrame {frame : QuicStreamFrame} {f : StreamFields}
    (h : processStreamFrame f.typeByte c = (.ok frame, c')) :
    ∃ streamId offset data,
      StreamFields.Valid {f with streamId := streamId, offset := offset, data := data} ∧
      (f.hasDataLength = false → c'.rest = []) ∧
      c.rest = StreamFields.body {f with streamId := streamId, offset := offset, data := data} ++
        c'.rest := by
  have htype := streamType_typeByte f
  unfold processStreamFrame at h
  rw [htype.streamId, htype.offset, htype.dataLength] at h
  obtain ⟨streamId, c₁, hid, h⟩ := Parse.of_bind_ok h
  obtain ⟨offset, c₂, hoffset, h⟩ := Parse.of_bind_ok h
  obtain ⟨data, c₃, hdata, h⟩ := Parse.of_bind_ok h
  obtain ⟨idBytes, _, hrest₁, _, _, hidBytes, hidFits⟩ := (ensures_uint _ _).of_ok hid
  obtain ⟨offsetBytes, _, hrest₂, _, _, hoffsetBytes, hoffsetFits⟩ :=
    (ensures_uint _ _).of_ok hoffset
  obtain ⟨-, rfl⟩ := Prod.mk.inj h
  have hdata' : c₂.rest = (if f.hasDataLength then sized data else data) ++ c₃.rest ∧
      (f.hasDataLength = true → data.length < 2 ^ 16) ∧
      (f.hasDataLength = false → c₃.rest = []) := by
    unfold readStreamData at hdata
    obtain ⟨remaining, c₄, hremaining, hdata⟩ := Parse.of_bind_ok hdata
    obtain ⟨hlength, rfl⟩ := Prod.mk.inj hremaining
    cases hhas : f.hasDataLength with
    | true =>
      rw [hhas, if_pos rfl] at hdata
      obtain ⟨bs, _, hrest, _, _, rfl, hfits⟩ := (ensures_sized _).of_ok hdata
      exact ⟨hrest, fun _ => hfits, fun hfalse => Bool.noConfusion hfalse⟩
    | false =>
      rw [hhas, if_neg Bool.false_ne_true] at hdata
      obtain ⟨bs, _, hrest, _, _, rfl, hsize⟩ := (Ensures.take _ _).of_ok hdata
      have hall : c₃.rest = [] := by
        have hsum := congrArg List.length hrest
        rw [List.length_append, hsize, ← Except.ok.inj hlength] at hsum
        exact List.length_eq_zero_iff.mp (by omega)
      exact ⟨hrest, fun htrue => Bool.noConfusion htrue, fun _ => hall⟩
  obtain ⟨hrest₃, hfits, hall⟩ := hdata'
  refine ⟨streamId, offset, data, ⟨hidFits, hoffsetFits, hfits⟩, hall, ?_⟩
  rw [hrest₁, hrest₂, hrest₃, hidBytes, hoffsetBytes, StreamFields.body, List.append_assoc,
    List.append_assoc]
  rfl

theorem of_showing {α : Type} {p : Parse String Call α} {error : QuicErrorCode} {call : α → Call}
    (h : showing visitor error p call c = (.ok goOn, c')) :
    ∃ a c₁, p c = (.ok a, c₁) ∧ c₁.rest = c'.rest := by
  obtain ⟨a, c₁, hp, hcall⟩ := Parse.of_bind_ok h
  obtain ⟨-, rfl⟩ := Prod.mk.inj hcall
  exact ⟨a, c₁, Parse.of_mapError_ok hp, rfl⟩

/-- A frame that stands alone: its bytes are those its parser took. -/
theorem of_shown {α : Type} {p : Parse String Call α} {error : QuicErrorCode} {call : α → Call}
    {took : List UInt8 → Prop} (hp : Ensures p (fun bs _ _ => took bs) fun _ => True)
    (h : showing visitor error p call c = (.ok goOn, c')) :
    ∃ bs, took bs ∧ c.rest = bs ++ c'.rest := by
  obtain ⟨a, c₁, hc, hrest⟩ := of_showing h
  obtain ⟨bs, _, hbytes, _, htook⟩ := hp.of_ok hc
  exact ⟨bs, htook, hrest ▸ hbytes⟩

/-- What the regular frames took, behind their type byte. -/
theorem of_processRegularFrame {frameType : Nat}
    (h : processRegularFrame visitor header frameType c = (.ok goOn, c')) :
    ∃ frame : WireFrame, frame.Valid header ∧ frame.Before c'.rest ∧
      UInt8.ofNat frameType :: c.rest =
        frame.bytes header.packetNumberLength.bytes ++ c'.rest := by
  unfold processRegularFrame at h
  split at h
  · obtain ⟨n, c₁, hc, hrest⟩ := of_showing h
    obtain ⟨-, rfl⟩ := Prod.mk.inj hc
    refine ⟨.padding (1 + (c.rest.takeWhile (· == 0)).length), Nat.add_pos_left Nat.one_pos _,
      ?_, ?_⟩
    · rw [← hrest]
      exact fun hzero => absurd (List.head?_dropWhile_not (· == 0) c.rest) (by simp [hzero])
    · have hzeros : c.rest.takeWhile (· == 0) =
          List.replicate (c.rest.takeWhile (· == 0)).length 0 :=
        List.eq_replicate_of_mem fun b hb => eq_of_beq (List.all_eq_true.mp List.all_takeWhile b hb)
      rw [← hrest, WireFrame.bytes, Nat.add_comm, List.replicate_succ, ← hzeros, List.cons_append,
        List.takeWhile_append_dropWhile]
      rfl
  · obtain ⟨bs, ⟨f, hvalid, hbytes⟩, hrest⟩ := of_shown (ensures_rstStream header) h
    exact ⟨.rstStream f, hvalid, trivial, by rw [← hbytes, hrest]; rfl⟩
  · obtain ⟨bs, ⟨f, hvalid, hbytes⟩, hrest⟩ := of_shown (ensures_connectionClose header) h
    exact ⟨.connectionClose f, hvalid, trivial, by rw [← hbytes, hrest]; rfl⟩
  · obtain ⟨bs, ⟨f, hvalid, hbytes⟩, hrest⟩ := of_shown (ensures_goAway header) h
    exact ⟨.goAway f, hvalid, trivial, by rw [← hbytes, hrest]; rfl⟩
  · obtain ⟨bs, ⟨f, hvalid, hbytes⟩, hrest⟩ := of_shown (ensures_windowUpdate header) h
    exact ⟨.windowUpdate f, hvalid, trivial, by rw [← hbytes, hrest]; rfl⟩
  · obtain ⟨streamId, c₁, hc, hrest⟩ := of_showing h
    obtain ⟨bs, _, hbytes, _, _, rfl, hid⟩ := (ensures_uint 4 _).of_ok hc
    exact ⟨.blocked streamId, hid, trivial, by rw [hbytes, hrest]; rfl⟩
  · obtain ⟨bs, ⟨delta, hvalid, hbytes⟩, hrest⟩ := of_shown (ensures_stopWaiting header) h
    exact ⟨.stopWaiting delta, hvalid, trivial, by rw [← hbytes, hrest]; rfl⟩
  · obtain ⟨-, rfl⟩ := Prod.mk.inj h
    exact ⟨.ping, trivial, trivial, rfl⟩
  · cases h

/-- What a special frame took, behind its type byte. -/
theorem of_processSpecialFrame {frameType : Nat} (hbyte : frameType < 256)
    (hspecial : frameType &&& kQuicFrameTypeSpecialMask ≠ 0)
    (h : processSpecialFrame visitor frameType c = (.ok goOn, c')) :
    ∃ frame : WireFrame, frame.Valid header ∧ frame.Before c'.rest ∧
      UInt8.ofNat frameType :: c.rest =
        frame.bytes header.packetNumberLength.bytes ++ c'.rest := by
  unfold processSpecialFrame at h
  split_ifs at h with hstream hack
  · obtain ⟨fin, has, o, i, rfl⟩ := exists_streamType ⟨frameType, hbyte⟩ hstream
    obtain ⟨frame, c₁, hc, hrest⟩ := of_showing h
    obtain ⟨streamId, offset, data, hvalid, hend, hbytes⟩ := of_processStreamFrame hc
    refine ⟨.stream ⟨fin, has, o, i, streamId, offset, data⟩, hvalid, hrest ▸ hend, ?_⟩
    rw [hbytes, hrest]
    rfl
  · obtain ⟨has, unused, large, small, rfl⟩ :=
      exists_announces ⟨frameType, hbyte⟩ hspecial hstream hack
    obtain ⟨_, c₁, hc, h⟩ := Parse.of_bind_ok h
    obtain ⟨-, rfl⟩ := Prod.mk.inj h
    obtain ⟨bs, _, hrest, _, largestAcked, delay, fields, hvalid, hbytes⟩ :=
      (ensures_ack header ⟨has, unused, large, small⟩).of_ok (Parse.of_mapError_ok hc)
    exact ⟨.ack _ largestAcked delay fields, hvalid, trivial, by rw [← hbytes, hrest]; rfl⟩
  · cases h

end Accepted

/-! ### The payload of a packet -/

section Payload
variable {visitor : Visitor} (header : QuicPacketHeader)

/-- The parser of one frame reads the frames of the format, and no others. -/
theorem matches_processFrame (hv : visitor.Accepts) :
    (wireFormat header).Matches (processFrame visitor header) where
  nonempty := by
    intro frame hvalid
    cases frame with
    | padding n => exact fun hnil => absurd ((List.replicate_eq_nil_iff 0).mp hnil) hvalid.ne'
    | _ => exact List.cons_ne_nil _ _
  reads := by
    intro frame rest calls hvalid hbefore
    cases frame with
    | padding n => exact processFrame_padding header hv hvalid hbefore calls
    | rstStream f =>
      exact reads_regular header 1 (by decide) (by decide)
        (reads_showing hv _ _ (reads_rstStream hvalid)) rest calls
    | connectionClose f =>
      exact reads_regular header 2 (by decide) (by decide)
        (reads_showing hv _ _ (reads_connectionClose hvalid)) rest calls
    | goAway f =>
      exact reads_regular header 3 (by decide) (by decide)
        (reads_showing hv _ _ (reads_goAway hvalid)) rest calls
    | windowUpdate f =>
      exact reads_regular header 4 (by decide) (by decide)
        (reads_showing hv _ _ (reads_windowUpdate hvalid)) rest calls
    | blocked streamId =>
      exact reads_regular header 5 (by decide) (by decide)
        (reads_showing hv _ _ (reads_uint32 hvalid _)) rest calls
    | stopWaiting delta =>
      exact reads_regular header 6 (by decide) (by decide)
        (reads_showing hv _ _ (reads_stopWaiting header hvalid)) rest calls
    | ping =>
      exact reads_regular header 7 (by decide) (by decide) (.call hv _) rest calls
    | stream f => exact processFrame_stream header hv hvalid hbefore calls
    | ack head largestAcked delay fields =>
      exact reads_processFrame header (announces_typeByte head)
        (reads_ack hv head hvalid.1 hvalid.2.1 hvalid.2.2) rest calls
  only := by
    intro c c' goOn h
    obtain ⟨frameType, c₁, htype, h⟩ := Parse.of_bind_ok h
    obtain ⟨bs, _, hrest, _, _, rfl, hbyte⟩ :=
      (ensures_uint 1 _).of_ok (Parse.of_mapError_ok htype)
    rw [hrest]
    split_ifs at h with hspecial
    · exact of_processSpecialFrame hbyte hspecial h
    · exact of_processRegularFrame h

/-- **The parser accepts exactly the payloads of the format**: one or more frames, each of them
well formed, padding up to a byte that is not zero, and a stream frame without a length only at
the end. The visitor hears of these frames, in their order. -/
theorem accepted_iff (hv : visitor.Accepts) (bytes : List UInt8) (c : Cursor Call) :
    processFrameData visitor header ⟨bytes, []⟩ = (.ok (), c) ↔
      ∃ frames, frames ≠ [] ∧ (wireFormat header).Payload frames ∧
        bytes = (wireFormat header).payload frames ∧
        c = ⟨[], (wireFormat header).reports frames⟩ := by
  have hmatches := matches_processFrame header hv
  by_cases hbytes : bytes = []
  · have hempty : processFrameData visitor header ⟨[], []⟩ =
        (.error ⟨.missingPayload, "Packet has no frames."⟩, ⟨[], []⟩) := rfl
    subst hbytes
    rw [hempty]
    refine iff_of_false (fun h => by cases h) ?_
    rintro ⟨frames, hne, hpayload, hnil, -⟩
    cases frames with
    | nil => exact hne rfl
    | cons frame rest =>
      rw [Format.payload_cons] at hnil
      exact hmatches.nonempty frame hpayload.1 (List.append_eq_nil_iff.mp hnil.symm).1
  · have hloop := loops_processFrames visitor header bytes.length ⟨bytes, []⟩ (Nat.le_refl _)
    rw [← processFrameData_of_ne visitor header hbytes] at hloop
    constructor
    · intro h
      rw [h] at hloop
      obtain ⟨frames, hpayload, hrest, rfl⟩ := hmatches.loops_iff.mp hloop
      refine ⟨frames, ?_, hpayload, hrest, rfl⟩
      rintro rfl
      exact hbytes hrest
    · rintro ⟨frames, -, hpayload, hrest, rfl⟩
      exact hloop.unique (hmatches.loops_iff.mpr ⟨frames, hpayload, hrest, rfl⟩)

end Payload
end CongestionResponse.Framer
