import CongestionResponse.Framer.Truncation
import CongestionResponse.NsQuic.Sender

/-! What an ack datagram does to the sender, whatever its bytes.

The parser calls the sender while it reads. So an ack frame that turns out to be malformed
after its start has been reported leaves an ack begun and not ended in the packet manager, and
an accepted frame whose last range is not marked as the last one does too.
`ack_whole_or_ignored_iff` says exactly which bytes are handled as a whole. -/
namespace CongestionResponse.NsQuic
open Lib Quic Framer

/-! ### The type byte -/

/-- The type byte of an ack frame. -/
structure AckType (t : UInt8) : Prop where
  special : t.toNat &&& kQuicFrameTypeSpecialMask ≠ 0
  notStream : ¬isStreamFrame t.toNat
  ack : isAckFrame t.toNat

def announcesBlocks (t : UInt8) : Bool := extractBit t.toNat kQuicHasMultipleAckBlocksOffsetPre40

def largestAckedLengthOf (t : UInt8) : QuicPacketNumberLength :=
  readAckPacketNumberLength
    (extractBits t.toNat kQuicSequenceNumberLengthNumBits kLargestAckedOffset)

def ackBlockLengthOf (t : UInt8) : QuicPacketNumberLength :=
  readAckPacketNumberLength
    (extractBits t.toNat kQuicSequenceNumberLengthNumBits kActBlockLengthOffset)

/-! ### The fields before the ranges -/

/-- The bytes up to the delay, after which the start of the ack is reported. -/
def startLength (t : UInt8) : Nat := (largestAckedLengthOf t).bytes + 2

def largestAckedOf (t : UInt8) (body : List UInt8) : Nat :=
  fromBigEndian (body.take (largestAckedLengthOf t).bytes)

def ackDelayOf (t : UInt8) (body : List UInt8) : Int :=
  ackDelay (fromUFloat16 (fromBigEndian ((body.drop (largestAckedLengthOf t).bytes).take 2)))

section Start
variable {visitor : Visitor} {t : UInt8} {body : List UInt8}

theorem readBytesToUInt64_of_le {n : Nat} (h : n ≤ body.length) (error : String)
    (calls : List Call) :
    readBytesToUInt64 n error ⟨body, calls⟩ =
      (.ok (fromBigEndian (body.take n)), ⟨body.drop n, calls⟩) := by
  have hread := reads_any (κ := Call) (List.length_take_of_le h) error (body.drop n) calls
  rwa [List.take_append_drop, List.append_nil] at hread

theorem readBytesToUInt64_of_lt {n : Nat} (h : body.length < n) (error : String)
    (calls : List Call) :
    readBytesToUInt64 n error ⟨body, calls⟩ = (.error error, ⟨[], calls⟩) := by
  have htake : (Parse.take n error : Parse String Call _) ⟨body, calls⟩ =
      (.error error, ⟨[], calls⟩) := by
    rw [Parse.take, if_neg (Nat.not_le.mpr h)]
  exact Parse.bind_error htake

/-- A frame that is cut before its ranges is rejected in silence. -/
theorem processAckFrame_cut (visitor : Visitor) (h : body.length < startLength t)
    (calls : List Call) :
    ∃ e, processAckFrame visitor t.toNat ⟨body, calls⟩ = (.error e, ⟨[], calls⟩) := by
  unfold startLength at h
  by_cases hlarge : (largestAckedLengthOf t).bytes ≤ body.length
  · have hdelay : (body.drop (largestAckedLengthOf t).bytes).length < 2 := by
      rw [List.length_drop]
      omega
    refine ⟨"Unable to read ack delay time.",
      (Parse.bind_ok (readBytesToUInt64_of_le hlarge _ calls)).trans ?_⟩
    exact Parse.bind_error (Parse.bind_error (readBytesToUInt64_of_lt hdelay _ calls))
  · exact ⟨"Unable to read largest acked.",
      Parse.bind_error (readBytesToUInt64_of_lt (Nat.not_le.mp hlarge) _ calls)⟩

/-- After the delay the start of the ack is reported. -/
theorem processAckFrame_started (hv : visitor.Accepts) (h : startLength t ≤ body.length)
    (calls : List Call) :
    processAckFrame visitor t.toNat ⟨body, calls⟩ =
      processAckRanges visitor (announcesBlocks t) (ackBlockLengthOf t) (largestAckedOf t body)
        ⟨body.drop (startLength t),
          calls ++ [.onAckFrameStart (largestAckedOf t body) (ackDelayOf t body)]⟩ := by
  unfold startLength at h ⊢
  have hlarge : (largestAckedLengthOf t).bytes ≤ body.length := by omega
  have hdelay : 2 ≤ (body.drop (largestAckedLengthOf t).bytes).length := by
    rw [List.length_drop]
    omega
  have hfloat : readUFloat16 "Unable to read ack delay time."
      ⟨body.drop (largestAckedLengthOf t).bytes, calls⟩ =
      (.ok (fromUFloat16 (fromBigEndian ((body.drop (largestAckedLengthOf t).bytes).take 2))),
        ⟨(body.drop (largestAckedLengthOf t).bytes).drop 2, calls⟩) :=
    Parse.bind_ok (readBytesToUInt64_of_le hdelay _ calls)
  have hstart := reads_reportAck hv (.onAckFrameStart (largestAckedOf t body) (ackDelayOf t body))
    ((body.drop (largestAckedLengthOf t).bytes).drop 2) calls
  rw [List.nil_append] at hstart
  rw [← List.drop_drop]
  exact (Parse.bind_ok (readBytesToUInt64_of_le hlarge _ calls)).trans
    ((Parse.bind_ok hfloat).trans (Parse.bind_ok hstart))

end Start

/-! ### What the packet manager is told -/

/-- The calls of the packet manager for one call of the visitor. -/
def tells (now : Int) : Call → List ManagerCall
  | .onAckFrameStart largestAcked ackDelayTime => [.onAckFrameStart largestAcked ackDelayTime now]
  | .onAckRange start stop lastRange =>
    .onAckRange start stop :: if lastRange then [.onAckFrameEnd now] else []
  | _ => []

section Manager
variable (leastUnacked : List ManagerCall → Nat)

theorem hear_spec (s : NsQuicSender) (call : Call) :
    (s.hear leastUnacked call).timeOfLastReceivedPacket = s.timeOfLastReceivedPacket ∧
      (s.hear leastUnacked call).running = s.running ∧
      (s.hear leastUnacked call).sentPacketManager =
        s.sentPacketManager ++ tells s.timeOfLastReceivedPacket call := by
  cases call with
  | onAckFrameStart largestAcked ackDelayTime => exact ⟨rfl, rfl, rfl⟩
  | onAckRange start stop lastRange =>
    cases lastRange with
    | true => exact ⟨rfl, rfl, List.append_assoc _ _ _⟩
    | false => exact ⟨rfl, rfl, rfl⟩
  | _ => exact ⟨rfl, rfl, (List.append_nil _).symm⟩

theorem foldl_hear (s : NsQuicSender) (calls : List Call) :
    (calls.foldl (NsQuicSender.hear leastUnacked) s).running = s.running ∧
      (calls.foldl (NsQuicSender.hear leastUnacked) s).sentPacketManager =
        s.sentPacketManager ++ calls.flatMap (tells s.timeOfLastReceivedPacket) := by
  induction calls generalizing s with
  | nil => exact ⟨rfl, (List.append_nil _).symm⟩
  | cons call rest ih =>
    obtain ⟨htime, hrunning, hcalls⟩ := hear_spec leastUnacked s call
    obtain ⟨ihrunning, ihcalls⟩ := ih (s.hear leastUnacked call)
    refine ⟨ihrunning.trans hrunning, ?_⟩
    rw [List.foldl_cons, ihcalls, htime, hcalls, List.flatMap_cons, List.append_assoc]

/-- A sender that runs does what the parser calls it for. -/
theorem onIncomingData_of_parse {s : NsQuicSender} (hrunning : s.running = true) (now : Int)
    {data : List UInt8} {result : Except FramerError Unit} {calls : List Call}
    (hparse : NsQuicSender.parse data = some (result, calls)) :
    s.onIncomingData leastUnacked now data = some (calls.foldl
      (NsQuicSender.hear leastUnacked) {s with timeOfLastReceivedPacket := now}) := by
  rw [NsQuicSender.onIncomingData, if_pos hrunning, hparse]
  rfl

end Manager

/-- One start, some ranges and one end. -/
def WholeAck (now : Int) (calls : List ManagerCall) : Prop :=
  ∃ largestAcked ackDelayTime, ∃ ranges : List (Nat × Nat), ranges ≠ [] ∧
    calls = .onAckFrameStart largestAcked ackDelayTime now ::
      (ranges.map (fun r => .onAckRange r.1 r.2) ++ [.onAckFrameEnd now])

/-- The last block, if blocks are announced, is there and not empty. -/
def Ends (hasAckBlocks : Bool) (fields : AckFields) : Prop :=
  hasAckBlocks = true → ∃ b, fields.blocks.getLast? = some b ∧ 0 < b.2

section Calls
variable {now : Int}

/-- Blocks that end with one that is not empty are told as ranges and an end. -/
theorem tells_blockCalls (now : Int) {blocks : List (Nat × Nat)} {b : Nat × Nat}
    (hlast : blocks.getLast? = some b) (hb : 0 < b.2) (firstReceived : Nat) :
    ∃ ranges : List (Nat × Nat), (blockCalls firstReceived blocks).flatMap (tells now) =
      ranges.map (fun r => ManagerCall.onAckRange r.1 r.2) ++ [.onAckFrameEnd now] := by
  induction blocks generalizing firstReceived with
  | nil => cases hlast
  | cons a rest ih =>
    cases hrest : rest with
    | nil =>
      rw [hrest] at hlast
      obtain rfl : a = b := Option.some.inj hlast
      refine ⟨[(firstReceived - (a.1 + a.2), firstReceived - (a.1 + a.2) + a.2)], ?_⟩
      rw [blockCalls, if_pos hb]
      rfl
    | cons a' rest' =>
      rw [hrest, List.getLast?_cons_cons, ← hrest] at hlast
      obtain ⟨ranges, hranges⟩ := ih hlast (firstReceived - (a.1 + a.2))
      rw [← hrest, blockCalls, List.flatMap_append, hranges]
      split
      · refine ⟨(firstReceived - (a.1 + a.2), firstReceived - (a.1 + a.2) + a.2) :: ranges, ?_⟩
        rw [hrest]
        rfl
      · exact ⟨ranges, rfl⟩

/-- An end is told only for a last block that is not empty. -/
theorem last_block_of_end {blocks : List (Nat × Nat)} {firstReceived : Nat}
    (h : ManagerCall.onAckFrameEnd now ∈ (blockCalls firstReceived blocks).flatMap (tells now)) :
    ∃ b, blocks.getLast? = some b ∧ 0 < b.2 := by
  obtain ⟨call, hcall, htold⟩ := List.mem_flatMap.mp h
  cases call with
  | onAckRange start stop lastRange =>
    cases lastRange with
    | true => exact last_range_block hcall
    | false => simp [tells] at htold
  | _ => simp [tells] at htold

/-- An accepted ack is told as a whole exactly if its blocks end well. -/
theorem wholeAck_iff {fields : AckFields} {hasAckBlocks : Bool} {len : QuicPacketNumberLength}
    {largestAcked : Nat} (h : fields.Valid hasAckBlocks len largestAcked) (delay : Int) :
    WholeAck now ((.onAckFrameStart largestAcked delay :: fields.calls hasAckBlocks largestAcked
      : List Call).flatMap (tells now)) ↔ Ends hasAckBlocks fields := by
  cases hasAckBlocks with
  | false =>
    refine ⟨fun _ hfalse => Bool.noConfusion hfalse, fun _ => ?_⟩
    refine ⟨largestAcked, delay,
      [(largestAcked + 1 - fields.firstBlockLength, largestAcked + 1)], List.cons_ne_nil _ _, ?_⟩
    rw [AckFields.calls, h.none rfl]
    rfl
  | true =>
    have hcalls : (.onAckFrameStart largestAcked delay :: fields.calls true largestAcked
        : List Call).flatMap (tells now) = .onAckFrameStart largestAcked delay now ::
        .onAckRange (largestAcked + 1 - fields.firstBlockLength) (largestAcked + 1) ::
          (blockCalls (largestAcked + 1 - fields.firstBlockLength) fields.blocks).flatMap
            (tells now) := rfl
    rw [hcalls]
    constructor
    · intro hwhole _
      obtain ⟨_, _, ranges, _, heq⟩ := hwhole
      have hmem : ManagerCall.onAckFrameEnd now ∈
          .onAckFrameStart largestAcked delay now :: .onAckRange
            (largestAcked + 1 - fields.firstBlockLength) (largestAcked + 1) ::
          (blockCalls (largestAcked + 1 - fields.firstBlockLength) fields.blocks).flatMap
            (tells now) := by
        rw [heq]
        simp
      rw [List.mem_cons, List.mem_cons] at hmem
      exact last_block_of_end ((hmem.resolve_left ManagerCall.noConfusion).resolve_left
        ManagerCall.noConfusion)
    · intro hends
      obtain ⟨b, hlast, hb⟩ := hends rfl
      obtain ⟨ranges, hranges⟩ := tells_blockCalls now hlast hb
        (largestAcked + 1 - fields.firstBlockLength)
      refine ⟨largestAcked, delay,
        (largestAcked + 1 - fields.firstBlockLength, largestAcked + 1) :: ranges,
        List.cons_ne_nil _ _, ?_⟩
      rw [hranges]
      rfl

end Calls

/-! ### Datagrams that hold one ack frame -/

/-- Behind the header there is one ack frame, complete or not, and nothing else. -/
structure SingleAck (data : List UInt8) (t : UInt8) (body : List UInt8) : Prop where
  frame : data.drop (NsQuicSender.headerLen data) = t :: body
  type : AckType t
  alone : ∀ c, processAckFrame NsQuicSender.visitor t.toNat ⟨body, []⟩ = (.ok (), c) → c.rest = []

/-- The bytes behind the type byte are the fields of an ack frame, and where it announces
blocks the last of them is not empty. -/
structure Complete (t : UInt8) (body : List UInt8) : Prop where
  started : startLength t ≤ body.length
  ranges : ∃ fields : AckFields,
    fields.Valid (announcesBlocks t) (ackBlockLengthOf t) (largestAckedOf t body) ∧
    body.drop (startLength t) = fields.bytes (announcesBlocks t) (ackBlockLengthOf t) ∧
    Ends (announcesBlocks t) fields

/-- What the datagram is supposed to do: the packet manager hears of a whole ack, or, if the
parser rejects it, of nothing. -/
def AllOrNothing (leastUnacked : List ManagerCall → Nat) (s : NsQuicSender) (now : Int)
    (data : List UInt8) : Prop :=
  ∃ s' calls, s.onIncomingData leastUnacked now data = some s' ∧
    s'.sentPacketManager = s.sentPacketManager ++ calls ∧
    (NsQuicSender.accepts data = true → WholeAck now calls) ∧
    (NsQuicSender.accepts data = false → calls = [] ∧ s'.largestAcked = s.largestAcked ∧
      s'.stopWaitingCount = s.stopWaitingCount)

theorem SingleAck.of_rest {data body : List UInt8} {t : UInt8}
    (hframe : data.drop (NsQuicSender.headerLen data) = t :: body) (htype : AckType t)
    (hrest : (processAckFrame NsQuicSender.visitor t.toNat ⟨body, []⟩).2.rest = []) :
    SingleAck data t body where
  frame := hframe
  type := htype
  alone := by
    intro c hc
    rwa [hc] at hrest

section Datagram
variable {leastUnacked : List ManagerCall → Nat} {s : NsQuicSender} {now : Int}
  {data body : List UInt8} {t : UInt8}

/-- The parser's result and calls are those of `ProcessAckFrame`. -/
theorem SingleAck.parse (h : SingleAck data t body) (hlength : data.length ≤ kMaxBufferSize)
    {result : Except String Unit} {c : Cursor Call}
    (hack : processAckFrame NsQuicSender.visitor t.toNat ⟨body, []⟩ = (result, c)) :
    NsQuicSender.parse data =
      some (result.mapError (⟨.invalidAckData, ·⟩ : String → FramerError), c.calls) := by
  have hheader : NsQuicSender.headerLen data ≤ data.length := by
    have hlen := congrArg List.length h.frame
    rw [List.length_drop, List.length_cons] at hlen
    omega
  have hdata : processFrameData NsQuicSender.visitor NsQuicSender.unusedHeader
      ⟨t :: body, []⟩ = (result.mapError (⟨.invalidAckData, ·⟩), c) := by
    rw [processFrameData_ack _ h.type.special h.type.notStream h.type.ack body, hack]
    cases result with
    | error e => rfl
    | ok _ => exact processFrames_done _ _ c (h.alone c hack)
  rw [NsQuicSender.parse, NsQuicSender.frameBytes, if_pos ⟨hlength, hheader⟩, h.frame,
    Option.map_some, hdata]

theorem parse_of_long (h : kMaxBufferSize < data.length) : NsQuicSender.parse data = none := by
  rw [NsQuicSender.parse, NsQuicSender.frameBytes, if_neg fun hfits => Nat.not_le.mpr h hfits.1]
  rfl

theorem allOrNothing_iff_of_parse (hrunning : s.running = true) {result : Except FramerError Unit}
    {calls : List Call} (hparse : NsQuicSender.parse data = some (result, calls)) :
    AllOrNothing leastUnacked s now data ↔
      match result with
      | .ok _ => WholeAck now (calls.flatMap (tells now))
      | .error _ => calls.flatMap (tells now) = [] ∧
        (calls.foldl (NsQuicSender.hear leastUnacked)
          {s with timeOfLastReceivedPacket := now}).largestAcked = s.largestAcked ∧
        (calls.foldl (NsQuicSender.hear leastUnacked)
          {s with timeOfLastReceivedPacket := now}).stopWaitingCount = s.stopWaitingCount := by
  obtain ⟨-, hmanager⟩ := foldl_hear leastUnacked {s with timeOfLastReceivedPacket := now} calls
  rw [AllOrNothing, onIncomingData_of_parse leastUnacked hrunning now hparse]
  constructor
  · intro hall
    obtain ⟨s', told, hs', htold, hok, hrejected⟩ := hall
    obtain rfl := Option.some.inj hs'
    obtain rfl := List.append_cancel_left (htold.symm.trans hmanager)
    cases result with
    | ok _ => exact hok (by rw [NsQuicSender.accepts, hparse])
    | error e => exact hrejected (by rw [NsQuicSender.accepts, hparse])
  · intro hresult
    refine ⟨_, _, rfl, hmanager, fun haccepted => ?_, fun hrejected => ?_⟩
    · rw [NsQuicSender.accepts, hparse] at haccepted
      cases result with
      | ok _ => exact hresult
      | error e => cases haccepted
    · rw [NsQuicSender.accepts, hparse] at hrejected
      cases result with
      | ok _ => cases hrejected
      | error e => exact hresult

/-- A frame that is cut before its ranges is ignored. -/
theorem allOrNothing_of_cut (hrunning : s.running = true) (h : SingleAck data t body)
    (hlength : data.length ≤ kMaxBufferSize) (hcut : body.length < startLength t) :
    AllOrNothing leastUnacked s now data := by
  obtain ⟨e, hack⟩ := processAckFrame_cut NsQuicSender.visitor hcut []
  exact (allOrNothing_iff_of_parse hrunning (h.parse hlength hack)).mpr ⟨rfl, rfl, rfl⟩

/-- A complete frame is passed on as a whole. -/
theorem allOrNothing_of_complete (hrunning : s.running = true) (h : SingleAck data t body)
    (hlength : data.length ≤ kMaxBufferSize) (hcomplete : Complete t body) :
    AllOrNothing leastUnacked s now data := by
  obtain ⟨fields, hvalid, hbytes, hends⟩ := hcomplete.ranges
  have hread := hvalid.reads NsQuicSender.visitor_accepts []
    [.onAckFrameStart (largestAckedOf t body) (ackDelayOf t body)]
  rw [List.append_nil, ← hbytes] at hread
  have hack := (processAckFrame_started NsQuicSender.visitor_accepts hcomplete.started []).trans
    hread
  exact (allOrNothing_iff_of_parse hrunning (h.parse hlength hack)).mpr
    ((wholeAck_iff hvalid (ackDelayOf t body)).mpr hends)

/-- Once the start is reported, only a complete frame keeps the promise. -/
theorem complete_of_allOrNothing (hrunning : s.running = true) (h : SingleAck data t body)
    (hlength : data.length ≤ kMaxBufferSize) (hstarted : startLength t ≤ body.length)
    (hall : AllOrNothing leastUnacked s now data) : Complete t body := by
  have hack := processAckFrame_started NsQuicSender.visitor_accepts hstarted []
  have hensures := ensures_processAckRanges NsQuicSender.visitor (announcesBlocks t)
    (ackBlockLengthOf t) (largestAckedOf t body)
  rcases hranges : processAckRanges NsQuicSender.visitor (announcesBlocks t) (ackBlockLengthOf t)
    (largestAckedOf t body) ⟨body.drop (startLength t),
      [] ++ [.onAckFrameStart (largestAckedOf t body) (ackDelayOf t body)]⟩ with ⟨e | _, c⟩
  · obtain ⟨ks, hcalls, _⟩ := hensures.of_error hranges
    have hparse := h.parse hlength (hack.trans hranges)
    rw [hcalls] at hparse
    exact absurd ((allOrNothing_iff_of_parse hrunning hparse).mp hall).1 (List.cons_ne_nil _ _)
  · obtain ⟨bs, ks, hrest, hcalls, fields, hvalid, rfl, rfl⟩ := hensures.of_ok hranges
    have hparse := h.parse hlength (hack.trans hranges)
    rw [hcalls] at hparse
    have hwhole := (allOrNothing_iff_of_parse hrunning hparse).mp hall
    rw [h.alone c (hack.trans hranges), List.append_nil] at hrest
    exact ⟨hstarted, fields, hvalid, hrest, (wholeAck_iff hvalid (ackDelayOf t body)).mp hwhole⟩

end Datagram

/-- **An ack datagram is handled as a whole exactly if it fits the buffer and either is cut
before its ranges or is a complete ack frame whose last block is not empty.** In every other
case the packet manager has heard of an ack that it will not see the end of, or the sender has
left its buffer. -/
theorem ack_whole_or_ignored_iff (leastUnacked : List ManagerCall → Nat) {s : NsQuicSender}
    (hrunning : s.running = true) (now : Int) {data body : List UInt8} {t : UInt8}
    (h : SingleAck data t body) :
    AllOrNothing leastUnacked s now data ↔
      data.length ≤ kMaxBufferSize ∧ (body.length < startLength t ∨ Complete t body) := by
  constructor
  · intro hall
    have hlength : data.length ≤ kMaxBufferSize := by
      by_contra hlong
      obtain ⟨s', _, hs', _⟩ := hall
      rw [NsQuicSender.onIncomingData, if_pos hrunning, parse_of_long (Nat.not_le.mp hlong)] at hs'
      cases hs'
    refine ⟨hlength, ?_⟩
    rcases Nat.lt_or_ge body.length (startLength t) with hcut | hstarted
    · exact .inl hcut
    · exact .inr (complete_of_allOrNothing hrunning h hlength hstarted hall)
  · intro hframe
    obtain ⟨hlength, hcut | hcomplete⟩ := hframe
    · exact allOrNothing_of_cut hrunning h hlength hcut
    · exact allOrNothing_of_complete hrunning h hlength hcomplete

/-- The ack of the packets 8 and 9, 4 to 6, and 2: a frame with two more blocks. -/
def ackWithGaps : List UInt8 := [0, 1, 0x60, 9, 0, 0, 2, 2, 1, 3, 1, 1, 0]

theorem singleAck_ackWithGaps : SingleAck ackWithGaps 0x60 [9, 0, 0, 2, 2, 1, 3, 1, 1, 0] :=
  .of_rest (by decide +kernel) ⟨by decide, by decide, by decide⟩ (by decide +kernel)

theorem valid_ackWithGaps : (⟨2, [(1, 3), (1, 1)], 0, []⟩ : AckFields).Valid true .oneByte 9 where
  count := by decide
  none := fun h => absurd h (by decide)
  firstFits := by decide
  empty := fun h => absurd h (by decide)
  first := by decide
  readable := ⟨by decide, by decide⟩
  number := by decide
  timestamps := by decide

theorem ack_with_gaps_whole :
    (NsQuicSender.new 0).onIncomingData (fun _ => 0) 7 ackWithGaps =
      some ⟨[.onAckFrameStart 9 0 7, .onAckRange 8 10, .onAckRange 4 7, .onAckRange 2 3,
        .onAckFrameEnd 7], 7, true, 0, 9⟩ ∧
    AllOrNothing (fun _ => 0) (.new 0) 7 ackWithGaps :=
  ⟨by decide +kernel, (ack_whole_or_ignored_iff (fun _ => 0) rfl 7 singleAck_ackWithGaps).mpr
    ⟨by decide, .inr ⟨by decide, ⟨2, [(1, 3), (1, 1)], 0, []⟩, valid_ackWithGaps,
      by decide +kernel, fun _ => ⟨(1, 1), rfl, by decide⟩⟩⟩⟩

/-- A frame that is cut behind its delay is rejected, but the manager was told of its start.
A frame that announces no further block is accepted, but never ended. -/
theorem ack_begun_not_ended :
    SingleAck [0, 1, 0x40, 5, 0, 0] 0x40 [5, 0, 0] ∧
      NsQuicSender.accepts [0, 1, 0x40, 5, 0, 0] = false ∧
      (NsQuicSender.new 0).onIncomingData (fun _ => 0) 7 [0, 1, 0x40, 5, 0, 0] =
        some ⟨[.onAckFrameStart 5 0 7], 7, true, 0, 5⟩ ∧
      ¬AllOrNothing (fun _ => 0) (.new 0) 7 [0, 1, 0x40, 5, 0, 0] ∧
    SingleAck [0, 1, 0x60, 5, 0, 0, 0, 3, 0] 0x60 [5, 0, 0, 0, 3, 0] ∧
      NsQuicSender.accepts [0, 1, 0x60, 5, 0, 0, 0, 3, 0] = true ∧
      (NsQuicSender.new 0).onIncomingData (fun _ => 0) 7 [0, 1, 0x60, 5, 0, 0, 0, 3, 0] =
        some ⟨[.onAckFrameStart 5 0 7, .onAckRange 3 6], 7, true, 0, 5⟩ ∧
      ¬AllOrNothing (fun _ => 0) (.new 0) 7 [0, 1, 0x60, 5, 0, 0, 0, 3, 0] := by
  have hcut : SingleAck [0, 1, 0x40, 5, 0, 0] 0x40 [5, 0, 0] :=
    .of_rest (by decide +kernel) ⟨by decide, by decide, by decide⟩ (by decide +kernel)
  have hopen : SingleAck [0, 1, 0x60, 5, 0, 0, 0, 3, 0] 0x60 [5, 0, 0, 0, 3, 0] :=
    .of_rest (by decide +kernel) ⟨by decide, by decide, by decide⟩ (by decide +kernel)
  have hrejected : NsQuicSender.accepts [0, 1, 0x40, 5, 0, 0] = false := by decide +kernel
  have haccepted : NsQuicSender.accepts [0, 1, 0x60, 5, 0, 0, 0, 3, 0] = true := by decide +kernel
  have hbegun : (NsQuicSender.new 0).onIncomingData (fun _ => 0) 7 [0, 1, 0x40, 5, 0, 0] =
      some ⟨[.onAckFrameStart 5 0 7], 7, true, 0, 5⟩ := by decide +kernel
  have hended : (NsQuicSender.new 0).onIncomingData (fun _ => 0) 7
      [0, 1, 0x60, 5, 0, 0, 0, 3, 0] =
      some ⟨[.onAckFrameStart 5 0 7, .onAckRange 3 6], 7, true, 0, 5⟩ := by decide +kernel
  refine ⟨hcut, hrejected, hbegun, ?_, hopen, haccepted, hended, ?_⟩
  · intro hall
    obtain ⟨s', calls, hs', hcalls, _, hignored⟩ := hall
    obtain rfl := Option.some.inj (hbegun.symm.trans hs')
    rw [(hignored hrejected).1] at hcalls
    cases hcalls
  · intro hall
    obtain ⟨s', calls, hs', hcalls, hwhole, _⟩ := hall
    obtain rfl := Option.some.inj (hended.symm.trans hs')
    obtain ⟨_, _, ranges, _, hwhole⟩ := hwhole haccepted
    have hend : ManagerCall.onAckFrameEnd 7 ∈ calls := by simp [hwhole]
    obtain rfl : [.onAckFrameStart 5 0 7, .onAckRange 3 6] = calls := hcalls
    simp at hend

end CongestionResponse.NsQuic
