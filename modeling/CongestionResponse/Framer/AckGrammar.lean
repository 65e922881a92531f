import CongestionResponse.Framer.Parser
import CongestionResponse.Framer.AckWriter
import CongestionResponse.Lib.ParseLogic

/-! The grammar of ack frames: which bytes the parser accepts, and what it reports of them.

`AckFields` are the fields after `largest_acked` and the delay. `AckFields.Valid` says when
they make a frame: every number fits its field, the first block is empty only in an ack of
nothing, and no block reaches below zero. The parser accepts exactly the bytes of valid
fields (`Valid.reads`, `ensures_processAckRanges`); where it fails, whatever the visitor
does, the ranges reported until then still go down (`RangesBelow`). -/
namespace CongestionResponse.Framer
open Lib Quic

/-! ### Reading blocks -/

/-- What the visitor hears of the blocks below `firstReceived`. -/
def blockCalls : Nat → List (Nat × Nat) → List Call
  | _, [] => []
  | firstReceived, b :: rest =>
    (if 0 < b.2 then
      [.onAckRange (firstReceived - (b.1 + b.2)) (firstReceived - (b.1 + b.2) + b.2) rest.isEmpty]
    else []) ++ blockCalls (firstReceived - (b.1 + b.2)) rest

def blockSpan (blocks : List (Nat × Nat)) : Nat := (blocks.map fun b => b.1 + b.2).sum

/-- Blocks that their fields hold, with `length` bytes for a block's length, and that do not
reach below zero. -/
structure Readable (length firstReceived : Nat) (blocks : List (Nat × Nat)) : Prop where
  fields : ∀ b ∈ blocks, b.1 < 256 ∧ b.2 < 256 ^ length
  span : blockSpan blocks ≤ firstReceived

section Reading
variable {visitor : Visitor}

theorem reads_reportAck (hv : visitor.Accepts) (call : Call) :
    Reads (reportAck visitor call) [] [call] () :=
  (Reads.call hv call).bind (.refuse (by decide) _)

theorem reads_reportRange (hv : visitor.Accepts) (start length : Nat) (lastRange : Bool) :
    Reads (reportRange visitor start length lastRange) []
      (if 0 < length then [.onAckRange start (start + length) lastRange] else []) () := by
  unfold reportRange
  split
  · exact reads_reportAck hv _
  · exact .pure ()

theorem reads_processAckBlock (hv : visitor.Accepts) {len : QuicPacketNumberLength} {gap length
    firstReceived : Nat} (hgap : gap < 256) (hlength : length < 256 ^ len.bytes)
    (hroom : gap + length ≤ firstReceived) (lastRange : Bool) :
    Reads (processAckBlock visitor len lastRange firstReceived)
      (UInt8.ofNat gap :: bigEndian len.bytes length)
      (if 0 < length then [.onAckRange (firstReceived - (gap + length))
        (firstReceived - (gap + length) + length) lastRange] else [])
      (firstReceived - (gap + length)) := by
  unfold processAckBlock
  refine Reads.bind (b := [UInt8.ofNat gap]) (k := []) (reads_uint hgap _) ?_
  rw [← List.append_nil (bigEndian len.bytes length)]
  refine Reads.bind (k := []) (reads_uint hlength _) ?_
  refine Reads.bind (b := []) (k := []) (.refuse (Nat.not_lt.mpr hroom) _) ?_
  exact (reads_reportRange hv _ _ _).map fun _ => firstReceived - (gap + length)

/-- The loop of the parser reports one range for every block that is not empty. -/
theorem reads_processAckBlocks (hv : visitor.Accepts) {len : QuicPacketNumberLength}
    (blocks : List (Nat × Nat)) (firstReceived : Nat) (h : Readable len.bytes firstReceived blocks) :
    Reads (processAckBlocks visitor len blocks.length firstReceived) (blocksBytes len blocks)
      (blockCalls firstReceived blocks) () := by
  induction blocks generalizing firstReceived with
  | nil => exact .pure ()
  | cons b rest ih =>
    obtain ⟨hgap, hlength⟩ := h.fields b (List.mem_cons_self ..)
    have hspan : b.1 + b.2 + blockSpan rest ≤ firstReceived := h.span
    have hroom : b.1 + b.2 ≤ firstReceived := by omega
    have hrest : Readable len.bytes (firstReceived - (b.1 + b.2)) rest :=
      ⟨fun c hc => h.fields c (List.mem_cons_of_mem _ hc), by omega⟩
    have hlast : (rest.length == 0) = rest.isEmpty := by cases rest <;> rfl
    have hblock := reads_processAckBlock hv hgap hlength hroom (rest.length == 0)
    rw [hlast] at hblock
    show Reads (processAckBlock visitor len (rest.length == 0) firstReceived >>=
      processAckBlocks visitor len rest.length) _ _ _
    rw [hlast]
    exact hblock.bind (ih _ hrest)

end Reading

/-! ### Ranges that go down -/

/-- The calls report ranges that are not empty and go down from `bound`. -/
def RangesBelow : Nat → List Call → Prop
  | _, [] => True
  | bound, .onAckRange start stop _ :: rest => start < stop ∧ stop ≤ bound ∧ RangesBelow start rest
  | _, _ :: _ => False

theorem rangesBelow_mono {a b : Nat} (h : a ≤ b) {calls : List Call} (hcalls : RangesBelow a calls) :
    RangesBelow b calls := by
  cases calls with
  | nil => trivial
  | cons call rest =>
    cases call with
    | onAckRange start stop lastRange => exact ⟨hcalls.1, hcalls.2.1.trans h, hcalls.2.2⟩
    | _ => exact hcalls

theorem rangesBelow_blockCalls {length firstReceived : Nat} {blocks : List (Nat × Nat)}
    (h : Readable length firstReceived blocks) :
    RangesBelow firstReceived (blockCalls firstReceived blocks) := by
  induction blocks generalizing firstReceived with
  | nil => trivial
  | cons b rest ih =>
    have hspan : b.1 + b.2 + blockSpan rest ≤ firstReceived := h.span
    have hreadable : Readable length (firstReceived - (b.1 + b.2)) rest :=
      ⟨fun c hc => h.fields c (List.mem_cons_of_mem _ hc), by omega⟩
    have hrest := ih hreadable
    unfold blockCalls
    split
    · exact ⟨by omega, by omega, hrest⟩
    · exact rangesBelow_mono (Nat.sub_le _ _) hrest

/-! ### What the reads ensure -/

section Ensures
variable (visitor : Visitor)

theorem ensures_uint {κ : Type} (n : Nat) (error : String) :
    Ensures (readBytesToUInt64 n error : Parse String κ Nat)
      (fun bs ks v => Silent ks ∧ bs = bigEndian n v ∧ v < 256 ^ n) Silent := by
  refine (Ensures.take n error).bind_silent rfl fun bs a h => ?_
  obtain ⟨rfl, rfl⟩ := h
  refine .pure ⟨rfl, ?_, fromBigEndian_lt a⟩
  rw [List.append_nil, bigEndian_fromBigEndian]

theorem ensures_ufloat16 {κ : Type} (error : String) :
    Ensures (readUFloat16 error : Parse String κ Nat) (fun bs ks _ => Silent ks ∧ bs.length = 2)
      Silent := by
  refine (ensures_uint 2 error).bind_silent rfl fun bs a h => .pure ⟨rfl, ?_⟩
  rw [List.append_nil, h.1, length_bigEndian]

theorem ensures_reportAck (call : Call) :
    Ensures (reportAck visitor call) (fun bs ks _ => bs = [] ∧ ks = [call]) (· = [call]) := by
  refine (Ensures.call visitor call).bind (fun _ h => h.elim) fun bs ks accepted h => ?_
  obtain ⟨rfl, rfl⟩ := h
  refine (Ensures.refuse _ _).mono (fun bs ks _ h => ?_) fun ks h => ?_
  · obtain ⟨rfl, rfl, -⟩ := h
    exact ⟨rfl, rfl⟩
  · rw [h, List.append_nil]

/-- One block: it does not reach below zero, and its range is reported if it is not empty. -/
theorem ensures_processAckBlock (len : QuicPacketNumberLength) (lastRange : Bool)
    (firstReceived : Nat) :
    Ensures (processAckBlock visitor len lastRange firstReceived)
      (fun bs ks start => ∃ b : Nat × Nat, bs = UInt8.ofNat b.1 :: bigEndian len.bytes b.2 ∧
        b.1 < 256 ∧ b.2 < 256 ^ len.bytes ∧ b.1 + b.2 ≤ firstReceived ∧
        start = firstReceived - (b.1 + b.2) ∧
        ks = if 0 < b.2 then [.onAckRange start (start + b.2) lastRange] else [])
      (RangesBelow firstReceived) := by
  refine (ensures_uint 1 _).bind_silent trivial fun gapBytes gap hgap => ?_
  refine (ensures_uint len.bytes _).bind_silent trivial fun lengthBytes length hlength => ?_
  refine (Ensures.refuse _ _).bind_silent trivial fun bs _ hroom => ?_
  obtain ⟨rfl, hroom⟩ := hroom
  obtain ⟨rfl, hgap⟩ := hgap
  obtain ⟨rfl, hlength⟩ := hlength
  have hle : gap + length ≤ firstReceived := Nat.not_lt.mp hroom
  unfold reportRange
  split
  · rename_i hpos
    have hrange : RangesBelow firstReceived [.onAckRange (firstReceived - (gap + length))
        (firstReceived - (gap + length) + length) lastRange] := ⟨by omega, by omega, trivial⟩
    refine (ensures_reportAck visitor _).bind (fun ks h => h ▸ hrange) fun bs ks _ h => ?_
    obtain ⟨rfl, rfl⟩ := h
    refine .pure ⟨(gap, length), ?_, hgap, hlength, hle, rfl, (if_pos hpos).symm⟩
    simp only [List.append_nil]
    rfl
  · rename_i hzero
    refine .pure ⟨(gap, length), ?_, hgap, hlength, hle, rfl, (if_neg hzero).symm⟩
    simp only [List.append_nil]
    rfl

/-- The loop over the blocks. The induction is on the blocks still to come; the ranges reported
before a failure are those of the blocks read so far. -/
theorem ensures_processAckBlocks (len : QuicPacketNumberLength) (left firstReceived : Nat) :
    Ensures (processAckBlocks visitor len left firstReceived)
      (fun bs ks _ => ∃ blocks : List (Nat × Nat), blocks.length = left ∧
        bs = blocksBytes len blocks ∧ Readable len.bytes firstReceived blocks ∧
        ks = blockCalls firstReceived blocks)
      (fun ks => RangesBelow firstReceived ks ∧ left ≠ 0) := by
  induction left generalizing firstReceived with
  | zero => exact .pure ⟨[], rfl, rfl, ⟨fun b hb => absurd hb List.not_mem_nil, Nat.zero_le _⟩, rfl⟩
  | succ left ih =>
    refine (ensures_processAckBlock visitor len (left == 0) firstReceived).bind
      (fun _ h => ⟨h, Nat.succ_ne_zero left⟩) fun bs ks start h => ?_
    obtain ⟨b, rfl, hgap, hlength, hle, rfl, rfl⟩ := h
    refine (ih (firstReceived - (b.1 + b.2))).mono (fun bs ks _ h => ?_) fun ks h => ?_
    · obtain ⟨blocks, hleft, rfl, hreadable, rfl⟩ := h
      refine ⟨b :: blocks, by rw [List.length_cons, hleft], rfl, ⟨?_, ?_⟩, ?_⟩
      · exact List.forall_mem_cons.mpr ⟨⟨hgap, hlength⟩, hreadable.fields⟩
      · have hspan := hreadable.span
        show b.1 + b.2 + blockSpan blocks ≤ firstReceived
        omega
      · have hlast : (left == 0) = blocks.isEmpty := by
          rw [← hleft]
          cases blocks <;> rfl
        rw [blockCalls, hlast]
    · refine ⟨?_, Nat.succ_ne_zero left⟩
      split
      · exact ⟨by omega, by omega, h.1⟩
      · exact rangesBelow_mono (Nat.sub_le _ _) h.1

end Ensures

/-! ### Timestamps -/

/-- The bytes that `n` timestamps take: the first has a full time, the others a difference. -/
def timestampBytes : Nat → Nat
  | 0 => 0
  | left + 1 => 1 + (4 + left * 3)

section Timestamps
variable {κ : Type}

theorem reads_any {n : Nat} {bytes : List UInt8} (h : bytes.length = n) (error : String) :
    Reads (readBytesToUInt64 n error : Parse String κ Nat) bytes [] (fromBigEndian bytes) :=
  (Reads.take h error).map fromBigEndian

/-- A step that reads some bytes, before others that are read. -/
theorem reads_first {α : Type} {n m : Nat} {bytes : List UInt8} {p : Parse String κ Nat}
    {f : Nat → Parse String κ α} {x : α} (h : bytes.length = n + m)
    (hp : ∀ bs : List UInt8, bs.length = n → ∃ v, Reads p bs [] v)
    (hf : ∀ v, ∀ bs : List UInt8, bs.length = m → Reads (f v) bs [] x) :
    Reads (p >>= f) bytes [] x := by
  obtain ⟨v, hv⟩ := hp (bytes.take n) (by rw [List.length_take, h]; omega)
  rw [← List.take_append_drop n bytes]
  exact hv.bind (k := []) (hf v _ (by rw [List.length_drop, h]; omega))

theorem reads_processMoreTimestamps (left : Nat) {bytes : List UInt8} (h : bytes.length = left * 3) :
    Reads (processMoreTimestamps left) bytes [] () := by
  induction left generalizing bytes with
  | zero =>
    rw [List.length_eq_zero_iff.mp (h.trans (Nat.zero_mul 3))]
    exact .pure ()
  | succ left ih =>
    refine reads_first (n := 1) (m := 2 + left * 3) (by omega) (fun bs hbs => ⟨_, reads_any hbs _⟩)
      fun _ bs hbs => ?_
    exact reads_first hbs (fun bs hbs => ⟨_, (reads_any hbs _).map fromUFloat16⟩)
      fun _ bs hbs => ih hbs

theorem reads_processTimestampsInAckFrame (n : Nat) {bytes : List UInt8}
    (h : bytes.length = timestampBytes n) :
    Reads (processTimestampsInAckFrame n) bytes [] () := by
  cases n with
  | zero =>
    rw [List.length_eq_zero_iff.mp h]
    exact .pure ()
  | succ left =>
    refine reads_first h (fun bs hbs => ⟨_, reads_any hbs _⟩) fun _ bs hbs => ?_
    exact reads_first hbs (fun bs hbs => ⟨_, reads_any hbs _⟩)
      fun _ bs hbs => reads_processMoreTimestamps left hbs

theorem ensures_processMoreTimestamps (left : Nat) :
    Ensures (processMoreTimestamps left) (fun bs ks _ => Silent ks ∧ bs.length = left * 3)
      Silent := by
  induction left with
  | zero => exact .pure ⟨rfl, (Nat.zero_mul 3).symm⟩
  | succ left ih =>
    refine (ensures_uint 1 _).bind_silent rfl fun delta _ hdelta => ?_
    refine (ensures_ufloat16 _).bind_silent rfl fun time _ htime => ?_
    refine ih.mono (fun bs ks _ h => ⟨h.1, ?_⟩) fun _ h => h
    rw [List.length_append, List.length_append, hdelta.1, length_bigEndian, htime, h.2]
    omega

theorem ensures_processTimestampsInAckFrame (n : Nat) :
    Ensures (processTimestampsInAckFrame n)
      (fun bs ks _ => Silent ks ∧ bs.length = timestampBytes n) Silent := by
  cases n with
  | zero => exact .pure ⟨rfl, rfl⟩
  | succ left =>
    refine (ensures_uint 1 _).bind_silent rfl fun delta _ hdelta => ?_
    refine (ensures_uint 4 _).bind_silent rfl fun time _ htime => ?_
    refine (ensures_processMoreTimestamps left).mono (fun bs ks _ h => ⟨h.1, ?_⟩) fun _ h => h
    rw [List.length_append, List.length_append, hdelta.1, htime.1, length_bigEndian,
      length_bigEndian, h.2]
    rfl

end Timestamps

/-! ### The fields of a frame -/

/-- What an ack frame says after `largest_acked` and the delay. -/
structure AckFields where
  firstBlockLength : Nat
  blocks : List (Nat × Nat)
  numReceivedPackets : Nat
  timestamps : List UInt8

namespace AckFields
variable (fields : AckFields) (hasAckBlocks : Bool) (len : QuicPacketNumberLength)
  (largestAcked : Nat)

/-- The bytes of the fields; the count is there if the type byte announces it. -/
def bytes : List UInt8 :=
  (if hasAckBlocks then [UInt8.ofNat fields.blocks.length] else []) ++
    (bigEndian len.bytes fields.firstBlockLength ++ (blocksBytes len fields.blocks ++
      (UInt8.ofNat fields.numReceivedPackets :: fields.timestamps)))

/-- The ranges that the fields report. -/
def calls : List Call :=
  .onAckRange (largestAcked + 1 - fields.firstBlockLength) (largestAcked + 1) (!hasAckBlocks) ::
    blockCalls (largestAcked + 1 - fields.firstBlockLength) fields.blocks

/-- The fields make a frame. -/
structure Valid : Prop where
  count : fields.blocks.length < 256
  none : hasAckBlocks = false → fields.blocks = []
  firstFits : fields.firstBlockLength < 256 ^ len.bytes
  empty : fields.firstBlockLength = 0 → largestAcked = 0 ∧ fields.blocks = []
  first : fields.firstBlockLength ≤ largestAcked + 1
  readable : Readable len.bytes (largestAcked + 1 - fields.firstBlockLength) fields.blocks
  number : fields.numReceivedPackets < 256
  timestamps : fields.timestamps.length = timestampBytes fields.numReceivedPackets

end AckFields

section Fields
variable {visitor : Visitor} {fields : AckFields} {hasAckBlocks : Bool}
  {len : QuicPacketNumberLength} {largestAcked : Nat}

theorem AckFields.Valid.reads_count (h : fields.Valid hasAckBlocks len largestAcked) :
    Reads (readNumAckBlocks hasAckBlocks)
      (if hasAckBlocks then [UInt8.ofNat fields.blocks.length] else []) []
      fields.blocks.length := by
  cases hasAckBlocks with
  | false =>
    rw [h.none rfl]
    exact .pure 0
  | true => exact reads_uint (show fields.blocks.length < 256 ^ 1 from h.count) _

/-- The parser accepts valid fields. -/
theorem AckFields.Valid.reads (h : fields.Valid hasAckBlocks len largestAcked)
    (hv : visitor.Accepts) :
    Reads (processAckRanges visitor hasAckBlocks len largestAcked) (fields.bytes hasAckBlocks len)
      (fields.calls hasAckBlocks largestAcked) () := by
  have hempty : ¬(fields.firstBlockLength = 0 ∧
      (largestAcked ≠ 0 ∨ fields.blocks.length ≠ 0)) := by
    intro hboth
    obtain ⟨hzero, hne⟩ := hboth
    obtain ⟨hlargest, hblocks⟩ := h.empty hzero
    rw [hlargest, hblocks] at hne
    exact hne.elim (fun hne => hne rfl) fun hne => hne rfl
  unfold processAckRanges
  refine Reads.bind (k := []) h.reads_count ?_
  refine Reads.bind (k := []) (reads_uint h.firstFits _) ?_
  refine Reads.bind (b := []) (k := []) (.refuse hempty _) ?_
  refine Reads.bind (b := []) (k := []) (.refuse (Nat.not_lt.mpr h.first) _) ?_
  refine Reads.bind (b := []) (k := [_]) (reads_reportAck hv _) ?_
  rw [← List.append_nil (blockCalls (largestAcked + 1 - fields.firstBlockLength) fields.blocks)]
  refine Reads.bind (reads_processAckBlocks hv fields.blocks _ h.readable) ?_
  exact Reads.bind (b := [UInt8.ofNat fields.numReceivedPackets]) (k := [])
    (reads_uint (show fields.numReceivedPackets < 256 ^ 1 from h.number) _)
    (reads_processTimestampsInAckFrame _ h.timestamps)

/-- The ranges of an ack of packets up to `largestAcked`: the first one ends there, the others
go down from it, and an empty one is the only one of an empty ack. -/
def RangesOf (largestAcked : Nat) : List Call → Prop
  | [] => True
  | .onAckRange start stop _ :: rest =>
    start ≤ stop ∧ stop ≤ largestAcked + 1 ∧ RangesBelow start rest ∧
      (start = stop → largestAcked = 0 ∧ rest = [])
  | _ => False

theorem ensures_readNumAckBlocks (hasAckBlocks : Bool) :
    Ensures (readNumAckBlocks hasAckBlocks)
      (fun bs ks n => Silent ks ∧ (bs = if hasAckBlocks then [UInt8.ofNat n] else []) ∧ n < 256 ∧
        (hasAckBlocks = false → n = 0)) Silent := by
  cases hasAckBlocks with
  | false => exact .pure ⟨rfl, rfl, by decide, fun _ => rfl⟩
  | true =>
    refine (ensures_uint 1 _).mono (fun bs ks n h => ?_) fun _ h => h
    obtain ⟨hks, rfl, hn⟩ := h
    exact ⟨hks, rfl, hn, fun hfalse => Bool.noConfusion hfalse⟩

/-- The first range, and below it the ranges of the blocks. -/
theorem rangesOf_cons {firstBlockLength : Nat} {ranges : List Call} (lastRange : Bool)
    (hranges : RangesBelow (largestAcked + 1 - firstBlockLength) ranges)
    (hempty : firstBlockLength = 0 → largestAcked = 0 ∧ ranges = [])
    (hfirst : firstBlockLength ≤ largestAcked + 1) :
    RangesOf largestAcked (.onAckRange (largestAcked + 1 - firstBlockLength) (largestAcked + 1)
      lastRange :: ranges) :=
  ⟨Nat.sub_le _ _, Nat.le_refl _, hranges, fun h => hempty (by omega)⟩

/-- Whatever the bytes and the visitor: what is accepted are the bytes of valid fields, and
before a failure the ranges are in order. -/
theorem ensures_processAckRanges (visitor : Visitor) (hasAckBlocks : Bool)
    (len : QuicPacketNumberLength) (largestAcked : Nat) :
    Ensures (processAckRanges visitor hasAckBlocks len largestAcked)
      (fun bs ks _ => ∃ fields : AckFields, fields.Valid hasAckBlocks len largestAcked ∧
        bs = fields.bytes hasAckBlocks len ∧ ks = fields.calls hasAckBlocks largestAcked)
      (RangesOf largestAcked) := by
  refine (ensures_readNumAckBlocks hasAckBlocks).bind_silent trivial fun countBytes n hcount => ?_
  refine (ensures_uint len.bytes _).bind_silent trivial fun firstBytes first hfirst => ?_
  refine (Ensures.refuse _ _).bind_silent trivial fun bs _ hempty => ?_
  refine (Ensures.refuse _ _).bind_silent trivial fun bs' _ hle => ?_
  obtain ⟨rfl, hn, hnone⟩ := hcount
  obtain ⟨rfl, hfirst⟩ := hfirst
  obtain ⟨rfl, hempty⟩ := hempty
  obtain ⟨rfl, hle⟩ := hle
  have hle : first ≤ largestAcked + 1 := Nat.not_lt.mp hle
  have hzero : first = 0 → largestAcked = 0 ∧ n = 0 := by omega
  refine (ensures_reportAck visitor _).bind
    (fun ks h => h ▸ rangesOf_cons _ trivial (fun h0 => ⟨(hzero h0).1, rfl⟩) hle)
    fun bs ks _ h => ?_
  obtain ⟨rfl, rfl⟩ := h
  refine (ensures_processAckBlocks visitor len n _).bind
    (fun ks h => rangesOf_cons _ h.1 (fun h0 => absurd (hzero h0).2 h.2) hle) fun bs ks _ h => ?_
  obtain ⟨blocks, rfl, rfl, hreadable, rfl⟩ := h
  have hranges : RangesOf largestAcked (.onAckRange (largestAcked + 1 - first) (largestAcked + 1)
      (!hasAckBlocks) :: (blockCalls (largestAcked + 1 - first) blocks ++ [])) := by
    rw [List.append_nil]
    refine rangesOf_cons _ (rangesBelow_blockCalls hreadable) (fun h0 => ?_) hle
    rw [List.length_eq_zero_iff.mp (hzero h0).2]
    exact ⟨(hzero h0).1, rfl⟩
  refine (ensures_uint 1 _).bind_silent hranges fun numberBytes number hnumber => ?_
  refine (ensures_processTimestampsInAckFrame number).mono (fun bs ks _ h => ?_) fun ks h => ?_
  rotate_left
  · rw [show ks = [] from h]
    exact hranges
  obtain ⟨rfl, hstamps⟩ := h
  refine ⟨⟨first, blocks, number, bs⟩, ⟨hn, fun hfalse => ?_, hfirst, fun h0 => ?_, hle, hreadable,
    hnumber.2, hstamps⟩, ?_, ?_⟩
  · exact List.length_eq_zero_iff.mp (hnone hfalse)
  · exact ⟨(hzero h0).1, List.length_eq_zero_iff.mp (hzero h0).2⟩
  · rw [hnumber.1, AckFields.bytes]
    simp only [List.nil_append]
    rfl
  · rw [AckFields.calls, List.append_nil]
    rfl

end Fields
end CongestionResponse.Framer
