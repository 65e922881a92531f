import CongestionResponse.NsQuic.Sender

/-! What `NsQuicSender::OnIncomingData` lets the frame parser read.

The datagram is copied into a buffer of fixed size, and the parser gets a reader over what
follows the header there. Neither the copy nor the length of the reader is checked. A datagram
that is longer than the buffer is written past its end. One that is shorter than its own header
gives a reader of almost 4 GB: the rest of the buffer is zero, the parser takes it for padding
and goes on behind the buffer. -/
namespace CongestionResponse.NsQuic
open Lib Quic Framer
namespace NsQuicSender

/-! ### The buffer and the reader -/

/-- A `QuicDataReader` over a part of the buffer. -/
structure FrameReader where
  offset : Nat
  length : Nat
deriving DecidableEq

/-- The buffer after the copy; none where `memcpy` writes past its end. -/
def localBuffer (data : List UInt8) : Option (List UInt8) :=
  if data.length ≤ kMaxBufferSize then
    some (data ++ List.replicate (kMaxBufferSize - data.length) 0)
  else none

/-- `QuicDataReader reader(buf+header_len, remain, NETWORK_BYTE_ORDER)`. -/
def frameReader (data : List UInt8) : FrameReader :=
  ⟨headerLen data, subU32 (data.length % 2 ^ 32) (headerLen data)⟩

/-- The reader that is handed to `ProcessFrameData`. -/
def handedReader (s : NsQuicSender) (data : List UInt8) : Option FrameReader :=
  if s.running then some (frameReader data) else none

/-- The bytes a reader covers; none where it goes past the end of the buffer. -/
def FrameReader.covers (r : FrameReader) (buf : List UInt8) : Option (List UInt8) :=
  if r.offset + r.length ≤ buf.length then some ((buf.drop r.offset).take r.length) else none

section Reader
variable {data : List UInt8}

theorem headerLen_le (data : List UInt8) : headerLen data ≤ 9 := by
  unfold headerLen
  cases readSequenceNumberLength _ <;> decide

theorem length_frameReader (hheader : headerLen data ≤ data.length)
    (hbuffer : data.length ≤ kMaxBufferSize) :
    (frameReader data).length + headerLen data = data.length := by
  unfold kMaxBufferSize at hbuffer
  show subU32 _ _ + _ = _
  unfold subU32
  omega

/-- The length of a reader that wrapped around. -/
theorem length_frameReader_of_short (hshort : data.length < headerLen data) :
    (frameReader data).length + headerLen data = data.length + 2 ^ 32 := by
  have hheader := headerLen_le data
  show subU32 _ _ + _ = _
  unfold subU32
  omega

theorem length_localBuffer {buf : List UInt8} (h : localBuffer data = some buf) :
    buf.length = kMaxBufferSize := by
  unfold localBuffer at h
  split_ifs at h with hbuffer
  rw [← Option.some.inj h, List.length_append, List.length_replicate]
  omega

theorem covers_frameReader (hheader : headerLen data ≤ data.length)
    (hbuffer : data.length ≤ kMaxBufferSize) :
    (localBuffer data).bind (frameReader data).covers = some (data.drop (headerLen data)) := by
  have hlength := length_frameReader hheader hbuffer
  have hbuf : localBuffer data = some _ := if_pos hbuffer
  have hinside : (frameReader data).offset + (frameReader data).length ≤
      (data ++ List.replicate (kMaxBufferSize - data.length) 0).length := by
    rw [length_localBuffer hbuf, Nat.add_comm]
    exact hlength.trans_le hbuffer
  have hrest : (frameReader data).length = (data.drop (headerLen data)).length := by
    rw [List.length_drop]
    omega
  have hdrop : ∀ rest, (data ++ rest).drop (frameReader data).offset =
      data.drop (headerLen data) ++ rest := fun rest => List.drop_append_of_le_length hheader
  rw [hbuf, Option.bind_some, FrameReader.covers, if_pos hinside, hdrop, hrest, List.take_left]

/-- The parser's input is what the reader covers, and the input is undefined where the source
leaves its buffer. -/
theorem frameBytes_eq (data : List UInt8) :
    frameBytes data = (localBuffer data).bind (frameReader data).covers := by
  unfold frameBytes
  by_cases hbuffer : data.length ≤ kMaxBufferSize
  · by_cases hheader : headerLen data ≤ data.length
    · rw [if_pos ⟨hbuffer, hheader⟩, covers_frameReader hheader hbuffer]
    · have hwrapped := length_frameReader_of_short (Nat.lt_of_not_le hheader)
      have hbuf : localBuffer data = some _ := if_pos hbuffer
      have houtside : ¬(frameReader data).offset + (frameReader data).length ≤
          (data ++ List.replicate (kMaxBufferSize - data.length) 0).length := by
        rw [length_localBuffer hbuf, kMaxBufferSize]
        show ¬headerLen data + _ ≤ _
        omega
      rw [if_neg fun h => hheader h.2, hbuf, Option.bind_some, FrameReader.covers, if_neg houtside]
  · rw [if_neg fun h => hbuffer h.1, localBuffer, if_neg hbuffer]
    rfl

/-! ### A datagram shorter than its header -/

theorem processFrame_zeros (n : Nat) (beyond : List UInt8) (calls : List Call) :
    processFrame visitor unusedHeader ⟨0 :: (List.replicate n 0 ++ beyond), calls⟩ =
      (.ok true, ⟨beyond.dropWhile (· == 0),
        calls ++ [.onPaddingFrame (1 + (n + (beyond.takeWhile (· == 0)).length))]⟩) := by
  have htake : (List.replicate n (0 : UInt8) ++ beyond).takeWhile (· == 0) =
      List.replicate n 0 ++ beyond.takeWhile (· == 0) :=
    List.takeWhile_append_of_pos fun b hb => by simp [List.eq_of_mem_replicate hb]
  have hdrop : (List.replicate n (0 : UInt8) ++ beyond).dropWhile (· == 0) =
      beyond.dropWhile (· == 0) :=
    List.dropWhile_append_of_pos fun b hb => by simp [List.eq_of_mem_replicate hb]
  have htype : raising .invalidFrameData (readUInt8 "Unable to read frame type.")
      ⟨0 :: (List.replicate n 0 ++ beyond), calls⟩ =
        (.ok 0, ⟨List.replicate n 0 ++ beyond, calls⟩) := rfl
  have hpadding : raising .invalidFrameData processPaddingFrame
      ⟨List.replicate n 0 ++ beyond, calls⟩ =
        (.ok (1 + (n + (beyond.takeWhile (· == 0)).length)),
          ⟨beyond.dropWhile (· == 0), calls⟩) := by
    rw [raising, Parse.mapError, processPaddingFrame, htake, hdrop, List.length_append,
      List.length_replicate]
  rw [processFrame, Parse.bind_ok htype, if_neg (by decide), processRegularFrame, showing,
    Parse.bind_ok hpadding]
  rfl

/-- Behind a header that is cut short there are only zeros in the buffer. -/
theorem drop_localBuffer (hshort : data.length < headerLen data) {buf : List UInt8}
    (hbuf : localBuffer data = some buf) :
    buf.drop (headerLen data) = 0 :: List.replicate (kMaxBufferSize - headerLen data - 1) 0 := by
  have hheader := headerLen_le data
  have hbuffer : data.length ≤ kMaxBufferSize := by
    unfold kMaxBufferSize
    omega
  have hzeros : kMaxBufferSize - data.length - (headerLen data - data.length) =
      kMaxBufferSize - headerLen data - 1 + 1 := by
    unfold kMaxBufferSize at hbuffer ⊢
    omega
  rw [localBuffer, if_pos hbuffer] at hbuf
  rw [← Option.some.inj hbuf, List.drop_append, List.drop_of_length_le hshort.le, List.nil_append,
    List.drop_replicate, hzeros, List.replicate_succ]

/-- The first frame of a datagram that is shorter than its header is padding, up to the end of the
buffer and on: the reader is longer than the buffer, and what lies behind decides where the
padding ends. -/
theorem short_datagram_leaves_buffer (hshort : data.length < headerLen data) {buf : List UInt8}
    (hbuf : localBuffer data = some buf) (beyond : List UInt8) :
    kMaxBufferSize < (frameReader data).offset + (frameReader data).length ∧
      ∃ padding, processFrame visitor unusedHeader
        ⟨(buf ++ beyond).drop (frameReader data).offset, []⟩ =
          (.ok true, ⟨beyond.dropWhile (· == 0), [.onPaddingFrame padding]⟩) := by
  have hheader := headerLen_le data
  have hwrapped := length_frameReader_of_short hshort
  constructor
  · show _ < headerLen data + _
    unfold kMaxBufferSize
    omega
  · have hinside : headerLen data ≤ buf.length := by
      rw [length_localBuffer hbuf, kMaxBufferSize]
      omega
    show ∃ padding, processFrame _ _ ⟨(buf ++ beyond).drop (headerLen data), []⟩ = _
    rw [List.drop_append_of_le_length hinside, drop_localBuffer hshort hbuf, List.cons_append]
    exact ⟨_, processFrame_zeros _ beyond []⟩

end Reader

/-! ### Every datagram -/

/-- What the parser may read of a datagram: nothing if the datagram is shorter than its header or
longer than the buffer, and exactly what follows the header otherwise. -/
structure ReadsWithin (s : NsQuicSender) (data : List UInt8) : Prop where
  dropped : data.length < headerLen data ∨ kMaxBufferSize < data.length →
    s.handedReader data = none
  covered : ∀ r ∈ s.handedReader data, r.length + headerLen data = data.length ∧
    (localBuffer data).bind r.covers = some (data.drop (headerLen data))

/-- **The sender reads within the datagram exactly if the datagram is not shorter than its header
and not longer than the buffer**, or the sender does not run: no datagram is ever dropped. -/
theorem reads_within_iff (s : NsQuicSender) (data : List UInt8) :
    ReadsWithin s data ↔
      (s.running = true → headerLen data ≤ data.length ∧ data.length ≤ kMaxBufferSize) := by
  cases hrunning : s.running with
  | false =>
    have hnone : s.handedReader data = none := by simp [handedReader, hrunning]
    refine iff_of_true ⟨fun _ => hnone, fun r hr => ?_⟩ fun h => by cases h
    rw [hnone] at hr
    cases hr
  | true =>
    have hsome : s.handedReader data = some (frameReader data) := by simp [handedReader, hrunning]
    constructor
    · intro h _
      have hkept : ¬(data.length < headerLen data ∨ kMaxBufferSize < data.length) := by
        intro hbad
        rw [h.dropped hbad] at hsome
        cases hsome
      exact ⟨Nat.not_lt.mp fun hshort => hkept (.inl hshort),
        Nat.not_lt.mp fun hlong => hkept (.inr hlong)⟩
    · intro h
      obtain ⟨hheader, hbuffer⟩ := h rfl
      refine ⟨fun hbad => ?_, fun r hr => ?_⟩
      · rcases hbad with hshort | hlong
        · exact absurd hheader (Nat.not_le.mpr hshort)
        · exact absurd hbuffer (Nat.not_le.mpr hlong)
      · rw [hsome] at hr
        cases hr
        exact ⟨length_frameReader hheader hbuffer, covers_frameReader hheader hbuffer⟩

/-- One byte of flags and no sequence number: the reader starts behind the datagram and is
4294967295 bytes long. And a datagram of 1501 bytes: it is parsed although it does not fit the
buffer. -/
theorem reader_wraps_on_short_datagram :
    headerLen [0] = 2 ∧ (new 0).handedReader [0] = some ⟨2, 2 ^ 32 - 1⟩ ∧
      ¬ReadsWithin (new 0) [0] ∧ localBuffer (List.replicate 1501 0) = none ∧
      (new 0).handedReader (List.replicate 1501 0) = some ⟨2, 1499⟩ ∧
      ¬ReadsWithin (new 0) (List.replicate 1501 0) := by
  have hlong : (new 0).handedReader (List.replicate 1501 0) = some ⟨2, 1499⟩ := by decide +kernel
  refine ⟨by decide, by decide, fun h => ?_, by decide +kernel, hlong, fun h => ?_⟩
  · exact absurd (h.dropped (.inl (by decide))) (by decide)
  · rw [h.dropped (.inr (by rw [List.length_replicate]; decide))] at hlong
    cases hlong

end NsQuicSender
end CongestionResponse.NsQuic
