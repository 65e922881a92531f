import CongestionResponse.Framer.Frames

/-! The datagrams of `NsQuicSender` and how `NsQuicReceiver` reads them.

A datagram starts with a flags byte, which gives the length of the sequence number, and the
sequence number. Then come a frame type and the fields of the frame: the send time of a
stream frame, or the least unacked number of a stop-waiting frame, in as many bytes as the
sequence number has. The receiver checks none of its reads. -/
namespace CongestionResponse.NsQuic
open Lib Quic Framer

/-! ### The header -/

def kPublicHeaderSequenceNumberShift : Nat := 4
def kMaxBufferSize : Nat := 1500
def kPaddingSize : Nat := 1000

/-- The thresholds are those of the framer's packet number lengths. -/
def getMinSeqLength (packetNumber : Nat) : QuicPacketNumberLength :=
  getMinPacketNumberLength packetNumber

def readSequenceNumberLength (flags : Nat) : QuicPacketNumberLength :=
  readAckPacketNumberLength flags

def getPacketNumberFlags (seqLen : QuicPacketNumberLength) : Nat :=
  Framer.getPacketNumberFlags seqLen

/-- The frame types of the sender's datagrams. -/
inductive QuicFrameType where
  | stopWaitingFrame | streamFrame
deriving DecidableEq

def QuicFrameType.value : QuicFrameType → Nat
  | .stopWaitingFrame => 6
  | .streamFrame => 8

def publicFlags (seq : Nat) : Nat :=
  getPacketNumberFlags (getMinSeqLength seq) <<< kPublicHeaderSequenceNumberShift

def writeHeader (seq : Nat) : Write Unit := do
  writeUInt8 (UInt8.ofNat (publicFlags seq))
  writeBytesToUInt64 (getMinSeqLength seq).bytes seq

def headerBytes (seq : Nat) : List UInt8 :=
  UInt8.ofNat (publicFlags seq) :: bigEndian (getMinSeqLength seq).bytes seq

theorem writes_writeHeader (seq : Nat) : Writes (writeHeader seq) (headerBytes seq) () :=
  (Writes.bytes [UInt8.ofNat (publicFlags seq)]).bind (.bytes _)

/-- The flags announce the length that was used. -/
theorem readSequenceNumberLength_publicFlags (seq : Nat) :
    publicFlags seq < 256 ∧
      readSequenceNumberLength (publicFlags seq >>> kPublicHeaderSequenceNumberShift) =
        getMinSeqLength seq := by
  unfold publicFlags getMinSeqLength getMinPacketNumberLength
  split_ifs <;> decide

/-! ### What the sender sends -/

/-- A buffer of zeros in which fields have been written from the start. -/
def zeroFilled (size : Nat) (fields : Write Unit) : List UInt8 :=
  let written := (fields ⟨size, []⟩).2.written
  written ++ List.replicate (size - written.length) 0

def writeStreamPacket (seq : Nat) (now : Int) : Write Unit := do
  writeHeader seq
  writeUInt8 (UInt8.ofNat QuicFrameType.streamFrame.value)
  writeUInt32 (toU32 (Delta.toMilliseconds now))

/-- The datagram of `SendFakePacket` when `seq_` is `seq`. -/
def sendFakePacket (seq : Nat) (now : Int) : List UInt8 :=
  zeroFilled kPaddingSize (writeStreamPacket seq now)

/-- The datagram of `OnRetransPacket` when `seq_` is `seq`. -/
def onRetransPacket (seq : Nat) (now : Int) : List UInt8 :=
  zeroFilled kPaddingSize (writeStreamPacket seq now)

def writeStopWaiting (seq unackSeq : Nat) : Write Unit := do
  writeHeader seq
  writeUInt8 (UInt8.ofNat QuicFrameType.stopWaitingFrame.value)
  writeBytesToUInt64 (getMinSeqLength seq).bytes unackSeq

/-- The datagram of `SendStopWaitingFrame` when `seq_` is `seq` and the least unacked packet
is `unackSeq`. -/
def sendStopWaitingFrame (seq unackSeq : Nat) : List UInt8 :=
  (writeStopWaiting seq unackSeq ⟨kMaxBufferSize, []⟩).2.written

section Written
variable {size : Nat} {fields : Write Unit} {bytes : List UInt8}

theorem written_of_writes (h : Writes fields bytes ()) (hsize : bytes.length ≤ size) :
    (fields ⟨size, []⟩).2.written = bytes := by
  have hfits : (⟨size, []⟩ : Buffer).Fits bytes := by
    rw [Buffer.Fits, List.length_nil, Nat.zero_add]
    exact hsize
  rw [(h ⟨size, []⟩ (Nat.zero_le _)).1 hfits]
  rfl

theorem length_headerBytes_le (seq : Nat) : (headerBytes seq).length ≤ 7 := by
  rw [headerBytes, List.length_cons, length_bigEndian]
  unfold getMinSeqLength getMinPacketNumberLength
  split_ifs <;> decide

end Written

theorem sendFakePacket_eq (seq : Nat) (now : Int) :
    ∃ padding, sendFakePacket seq now = headerBytes seq ++
      (UInt8.ofNat QuicFrameType.streamFrame.value ::
        (bigEndian 4 (toU32 (Delta.toMilliseconds now)) ++ padding)) := by
  have hwrites : Writes (writeStreamPacket seq now) _ () :=
    (writes_writeHeader seq).bind ((Writes.bytes [UInt8.ofNat QuicFrameType.streamFrame.value]).bind
      (.bytes (bigEndian 4 (toU32 (Delta.toMilliseconds now)))))
  have hlength := length_headerBytes_le seq
  have hwritten := written_of_writes hwrites (show _ ≤ kPaddingSize by
    simp only [List.length_append, List.length_singleton, length_bigEndian, kPaddingSize]
    omega)
  rw [sendFakePacket, zeroFilled, hwritten]
  simp only [List.append_assoc, List.cons_append]
  exact ⟨_, rfl⟩

theorem sendStopWaitingFrame_eq (seq unackSeq : Nat) :
    sendStopWaitingFrame seq unackSeq = headerBytes seq ++
      (UInt8.ofNat QuicFrameType.stopWaitingFrame.value ::
        bigEndian (getMinSeqLength seq).bytes unackSeq) := by
  have hlength := length_headerBytes_le seq
  rw [headerBytes, List.length_cons, length_bigEndian] at hlength
  refine written_of_writes ((writes_writeHeader seq).bind
    ((Writes.bytes [UInt8.ofNat QuicFrameType.stopWaitingFrame.value]).bind (.bytes _))) ?_
  simp only [List.length_append, List.length_cons, length_bigEndian, headerBytes, kMaxBufferSize]
  omega

/-! ### What the receiver reads -/

/-- A datagram as the receiver takes it. -/
inductive Datagram where
  | stream (seq sentTs : Nat)
  | stopWaiting (seq leastUnack : Nat)
  | other
deriving DecidableEq

/-- The frame of a datagram, after its sequence number. -/
def readFrame (seqLen : QuicPacketNumberLength) (seq : Nat) (data : List UInt8) : Datagram :=
  let type := readOrZero 1 data
  if type.1 = QuicFrameType.streamFrame.value then .stream seq (readOrZero 4 type.2).1
  else if type.1 = QuicFrameType.stopWaitingFrame.value then
    .stopWaiting seq (readOrZero seqLen.bytes type.2).1
  else .other

def readDatagram (data : List UInt8) : Datagram :=
  let flags := readOrZero 1 data
  let seqLen := readSequenceNumberLength (flags.1 >>> kPublicHeaderSequenceNumberShift)
  let seq := readOrZero seqLen.bytes flags.2
  readFrame seqLen seq.1 seq.2

theorem readOrZero_byte {n : Nat} (hn : n < 256) (rest : List UInt8) :
    readOrZero 1 (UInt8.ofNat n :: rest) = (n, rest) :=
  readOrZero_bigEndian (show n < 256 ^ 1 from hn) rest

/-- The receiver gets past the header of a number of 48 bits. -/
theorem readDatagram_header {seq : Nat} (hseq : seq < 2 ^ 48) (rest : List UInt8) :
    readDatagram (headerBytes seq ++ rest) = readFrame (getMinSeqLength seq) seq rest := by
  obtain ⟨hflags, hlength⟩ := readSequenceNumberLength_publicFlags seq
  have hnumber : seq < 256 ^ (getMinSeqLength seq).bytes := lt_getMinPacketNumberLength hseq
  simp only [readDatagram, headerBytes, List.cons_append, readOrZero_byte hflags, hlength,
    readOrZero_bigEndian hnumber]

/-- The receiver reads what `SendFakePacket` wrote. -/
theorem readDatagram_sendFakePacket {seq : Nat} (hseq : seq < 2 ^ 48) (now : Int) :
    readDatagram (sendFakePacket seq now) = .stream seq (toU32 (Delta.toMilliseconds now)) := by
  obtain ⟨padding, heq⟩ := sendFakePacket_eq seq now
  have hts : toU32 (Delta.toMilliseconds now) < 256 ^ 4 := toU32_lt _
  rw [heq, readDatagram_header hseq]
  simp only [readFrame, readOrZero_byte (show QuicFrameType.streamFrame.value < 256 by decide),
    if_pos, readOrZero_bigEndian hts]

/-- The receiver reads what `SendStopWaitingFrame` wrote. -/
theorem readDatagram_sendStopWaitingFrame {seq unackSeq : Nat} (hseq : seq < 2 ^ 48)
    (hunack : unackSeq ≤ seq) :
    readDatagram (sendStopWaitingFrame seq unackSeq) = .stopWaiting seq unackSeq := by
  have hnumber : unackSeq < 256 ^ (getMinSeqLength seq).bytes :=
    hunack.trans_lt (lt_getMinPacketNumberLength hseq)
  have hread := readOrZero_bigEndian hnumber []
  rw [List.append_nil] at hread
  rw [sendStopWaitingFrame_eq, readDatagram_header hseq]
  simp only [readFrame, readOrZero_byte (show QuicFrameType.stopWaitingFrame.value < 256 by decide),
    hread]
  rfl

/-- Whatever the bytes are, a sequence number has 48 bits. -/
theorem seq_lt_of_readDatagram {data : List UInt8} {seq sentTs : Nat}
    (h : readDatagram data = .stream seq sentTs) : seq < 2 ^ 48 := by
  have hlt : ∀ (flags : Nat) (bytes : List UInt8),
      (readOrZero (readSequenceNumberLength flags).bytes bytes).1 < 2 ^ 48 := by
    intro flags bytes
    refine (readOrZero_lt _ _).trans_le ?_
    unfold readSequenceNumberLength readAckPacketNumberLength
    split <;> decide
  simp only [readDatagram, readFrame] at h
  split_ifs at h
  rw [← (Datagram.stream.inj h).1]
  exact hlt _ _

end CongestionResponse.NsQuic
