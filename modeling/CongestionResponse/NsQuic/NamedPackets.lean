import CongestionResponse.NsQuic.AckAcceptance
import CongestionResponse.NsQuic.HeartBeats

/-! Which packets the sender is told of by an ack of the receiver.

The ranges hang from `largest_acked`. So an ack names the packets of its frame if `largest_acked`
is one of them, possibly without the oldest where blocks were cut off. If stop-waiting frames have
removed `largest_acked`, what the ack names has little to do with its frame, but it is not above
`largest_acked`. -/
namespace CongestionResponse.NsQuic
open Lib Quic Framer SentPackets
open Application (rangesOf endsFrame Closing)

/-! ### The calls for the blocks -/

theorem endsFrame_append (a b : List Call) :
    endsFrame (a ++ b) = (endsFrame a || endsFrame b) := List.any_append

theorem closing_blockCalls (firstReceived : Nat) (blocks : List (Nat × Nat)) :
    Closing (blockCalls firstReceived blocks) := by
  induction blocks generalizing firstReceived with
  | nil => trivial
  | cons b rest ih =>
    unfold blockCalls
    split
    · refine ⟨fun hlast => ?_, ih _⟩
      rw [List.isEmpty_iff.mp hlast]
      rfl
    · exact ih _

theorem ranges_of_rangesBelow {bound : Nat} {calls : List Call} (h : RangesBelow bound calls) :
    Ranges (rangesOf calls) ∧ ∀ r ∈ rangesOf calls, r.2 ≤ bound := by
  induction calls generalizing bound with
  | nil =>
    exact ⟨⟨fun _ hr => absurd hr List.not_mem_nil, .nil⟩, fun _ hr => absurd hr List.not_mem_nil⟩
  | cons call rest ih =>
    cases call with
    | onAckRange start stop lastRange =>
      obtain ⟨hlt, hle, hrest⟩ := h
      obtain ⟨hranges, hbelow⟩ := ih hrest
      refine ⟨⟨?_, ?_⟩, ?_⟩
      · exact List.forall_mem_cons.mpr ⟨hlt, hranges.nonempty⟩
      · exact List.pairwise_cons.mpr ⟨hbelow, hranges.descend⟩
      · refine List.forall_mem_cons.mpr ⟨hle, fun r hr => ?_⟩
        exact Nat.le_trans (hbelow r hr) (Nat.le_trans (Nat.le_of_lt hlt) hle)
    | _ => cases h

/-- Wherever the blocks are cut, a range that is reported is an interval. -/
theorem rangesOf_cut {previousStart : Nat} {is : List Interval} (h : Descends previousStart is)
    (n : Nat) : ∀ r ∈ rangesOf (blockCalls previousStart ((ackBlocks previousStart is).take n)),
      ∃ i ∈ is, r = (i.min, i.max) := by
  induction is generalizing previousStart n with
  | nil =>
    rw [ackBlocks, List.take_nil]
    exact fun r hr => absurd hr List.not_mem_nil
  | cons i rest ih =>
    have hgap : 0 < previousStart - i.max := Nat.sub_pos_of_lt h.1
    have hlength := length_gapBlocks hgap i.length
    rw [ackBlocks, List.take_append, hlength]
    rcases Nat.lt_or_ge n (numEncodedGaps (previousStart - i.max)) with hlt | hge
    · -- Inside the chain that bridges the gap: nothing is reported.
      have hchain : (gapBlocks (previousStart - i.max) i.length).take n =
          List.replicate n (255, 0) := by
        rw [gapBlocks, List.take_append_of_le_length (by rw [List.length_replicate]; omega),
          List.take_replicate, Nat.min_eq_left (by omega)]
      rw [hchain, Nat.sub_eq_zero_of_le hlt.le, List.take_zero, blockCalls_empty]
      exact fun r hr => absurd hr List.not_mem_nil
    · obtain ⟨hroom, hstart⟩ := h.le
      have hstop : previousStart - (previousStart - i.max) = i.max := Nat.sub_sub_self h.1.le
      rw [List.take_of_length_le (by rw [hlength]; exact hge),
        blockCalls_gapBlocks hgap i.length_pos hroom, hstart, hstop]
      refine List.forall_mem_cons.mpr ⟨⟨i, List.mem_cons_self .., rfl⟩, fun r hr => ?_⟩
      obtain ⟨j, hj, heq⟩ := ih h.2 _ r hr
      exact ⟨j, List.mem_cons_of_mem _ hj, heq⟩

theorem rangesOf_rangeCalls (is : List Interval) :
    rangesOf (rangeCalls is) = is.map fun i => (i.min, i.max) := by
  induction is with
  | nil => rfl
  | cons i rest ih =>
    rw [List.map_cons, ← ih]
    rfl

theorem endsFrame_blockCalls {blocks : List (Nat × Nat)} {b : Nat × Nat}
    (hlast : blocks.getLast? = some b) (hb : 0 < b.2) (firstReceived : Nat) :
    endsFrame (blockCalls firstReceived blocks) = true := by
  induction blocks generalizing firstReceived with
  | nil => cases hlast
  | cons b' rest ih =>
    rw [blockCalls, endsFrame_append, Bool.or_eq_true]
    cases rest with
    | nil =>
      obtain rfl : b' = b := Option.some.inj hlast
      rw [if_pos hb]
      exact .inl rfl
    | cons b'' rest =>
      rw [List.getLast?_cons_cons] at hlast
      exact .inr (ih hlast _)

theorem getLast_ackBlocks (previousStart : Nat) {is : List Interval} (h : is ≠ []) :
    ∃ b, (ackBlocks previousStart is).getLast? = some b ∧ 0 < b.2 := by
  induction is generalizing previousStart with
  | nil => exact absurd rfl h
  | cons i rest ih =>
    rw [ackBlocks, List.getLast?_append]
    cases rest with
    | nil =>
      refine ⟨(previousStart - i.max - (numEncodedGaps (previousStart - i.max) - 1) * 255,
        i.length), ?_, i.length_pos⟩
      rw [gapBlocks, List.getLast?_concat]
      rfl
    | cons j rest =>
      obtain ⟨b, hlast, hb⟩ := ih i.min (List.cons_ne_nil _ _)
      exact ⟨b, by rw [hlast]; rfl, hb⟩

/-! ### The calls for an ack -/

section Named
variable {frame : QuicAckFrame} {newest : Interval} {rest : List Interval}

theorem bytes_getMinPacketNumberLength_le (n : Nat) : (getMinPacketNumberLength n).bytes ≤ 6 := by
  unfold getMinPacketNumberLength
  split_ifs <;> decide

/-- The ack datagram with this number has room for all the blocks of the frame. -/
def Whole (seq : Nat) (frame : QuicAckFrame) : Prop :=
  numAckBlocks frame ⟨kMaxBufferSize - (1 + (getMinSeqLength seq).bytes), []⟩ = frame.blockTotal

instance (seq : Nat) (frame : QuicAckFrame) : Decidable (Whole seq frame) :=
  inferInstanceAs (Decidable (_ = _))

/-- What the sender hears of an ack that acknowledges something. -/
theorem Numbered.calls (h : Numbered frame)
    (hne : frame.packets.intervals ≠ []) (seq : Nat) :
    ∃ newest rest n, Listed frame newest rest ∧ newest.length < 2 ^ 48 ∧ n ≤ 255 ∧
      (0 < n ↔ rest ≠ []) ∧ (Whole seq frame → n = frame.moreBlocks.length) ∧
      NsQuicSender.parse (NsQuicReceiver.ackDatagram seq frame) =
        some (.ok (), .onAckFrameStart frame.largestAcked (reportedDelay frame) ::
          .onAckRange (frame.largestAcked + 1 - newest.length) (frame.largestAcked + 1)
            (decide (rest = [])) ::
          blockCalls (frame.largestAcked + 1 - newest.length) (frame.moreBlocks.take n)) := by
  obtain ⟨newest, rest, hlisted, hlength⟩ := h.listed hne
  have hbytes : (getMinSeqLength seq).bytes ≤ 6 := bytes_getMinPacketNumberLength_le _
  have hsize : 64 ≤ kMaxBufferSize - (1 + (getMinSeqLength seq).bytes) := by
    unfold kMaxBufferSize
    omega
  have hsmall : kMaxBufferSize - (1 + (getMinSeqLength seq).bytes) < 2 ^ 31 := by
    unfold kMaxBufferSize
    omega
  obtain ⟨hpos, hroom⟩ := hlisted.written hsize hsmall
  obtain ⟨hle, hlimit⟩ := hlisted.numAckBlocks_le
    ⟨kMaxBufferSize - (1 + (getMinSeqLength seq).bytes), []⟩
  obtain ⟨hwritten, hfits⟩ := written_of_room rfl hle hroom
  refine ⟨newest, rest, _, hlisted, hlength, hlimit, hpos, fun hwhole => ?_, ?_⟩
  · rw [← hlisted.blockTotal]
    exact hwhole
  · rw [parse_ackDatagram seq hwritten hfits,
      processFrameData_frame NsQuicSender.unusedHeader (List.cons_ne_nil _ _)
        (reads_processFrame NsQuicSender.unusedHeader (announces_frameTypeByte frame)
          (hlisted.reads NsQuicSender.visitor_accepts hlength hlimit hle hpos))]

/-- What the ranges of an ack name. -/
structure Names (seq : Nat) (frame : QuicAckFrame) (calls : List Call) : Prop where
  closing : Closing calls
  ranges : Ranges (rangesOf calls)
  within : ∀ r ∈ rangesOf calls, r.2 ≤ frame.largestAcked + 1
  sound : frame.largestAcked ∈ frame.packets →
    ∀ n, InRanges (rangesOf calls) n → n ∈ frame.packets
  ended : Whole seq frame → endsFrame calls = true ∨ rangesOf calls = []
  all : Whole seq frame → frame.largestAcked ∈ frame.packets →
    ∀ n ∈ frame.packets, InRanges (rangesOf calls) n

/-- The newest interval ends with `largest_acked` if that is acknowledged. -/
theorem shaped_of_mem (h : Listed frame newest rest) (hmem : frame.largestAcked ∈ frame.packets) :
    frame.largestAcked + 1 = newest.max := by
  obtain ⟨i, hi, hcontains⟩ := hmem
  have hi : i ∈ newest :: rest := by
    rw [← h.newestFirst]
    exact List.mem_reverse.mpr hi
  have hlt : frame.largestAcked < i.max := hcontains.2
  have hwithin := h.within
  rcases List.mem_cons.mp hi with rfl | hi
  · omega
  · have hbelow := h.descends.max_lt i hi
    have hne := newest.nonempty
    omega

theorem mem_packets_iff (h : Listed frame newest rest) (n : Nat) :
    n ∈ frame.packets ↔ ∃ i ∈ newest :: rest, i.min ≤ n ∧ n < i.max := by
  rw [← h.newestFirst, QuicAckFrame.newestFirst]
  simp only [List.mem_reverse]
  exact Iff.rfl

theorem names_of_listed (h : Listed frame newest rest) (hlength : newest.length < 2 ^ 48)
    {n seq : Nat} (hn : n ≤ 255) (hpos : 0 < n ↔ rest ≠ [])
    (hall : Whole seq frame → n = frame.moreBlocks.length) :
    Names seq frame (.onAckRange (frame.largestAcked + 1 - newest.length) (frame.largestAcked + 1)
        (decide (rest = [])) ::
      blockCalls (frame.largestAcked + 1 - newest.length) (frame.moreBlocks.take n)) := by
  have hne := newest.nonempty
  have hnewest : 0 < newest.length := newest.length_pos
  have hstart (hmem : frame.largestAcked ∈ frame.packets) :
      frame.largestAcked + 1 - newest.length = newest.min := by
    rw [shaped_of_mem h hmem]
    exact Nat.sub_sub_self hne.le
  have hbelow : RangesBelow (frame.largestAcked + 1)
      (.onAckRange (frame.largestAcked + 1 - newest.length) (frame.largestAcked + 1)
        (decide (rest = [])) ::
      blockCalls (frame.largestAcked + 1 - newest.length) (frame.moreBlocks.take n)) :=
    ⟨by omega, Nat.le_refl _, rangesBelow_blockCalls (h.readable hlength hn)⟩
  obtain ⟨hranges, hwithin⟩ := ranges_of_rangesBelow hbelow
  refine ⟨⟨fun hlast => ?_, closing_blockCalls _ _⟩, hranges, hwithin, fun hmem k hk => ?_,
    fun hwhole => ?_, fun hwhole hmem k hk => ?_⟩
  · have hzero : n = 0 := by
      have hrest := of_decide_eq_true hlast
      by_contra hne
      exact hpos.mp (Nat.pos_of_ne_zero hne) hrest
    rw [hzero, List.take_zero]
    rfl
  · rw [mem_packets_iff h]
    obtain ⟨r, hr, hle, hlt⟩ := hk
    rcases List.mem_cons.mp hr with rfl | hr
    · refine ⟨newest, List.mem_cons_self .., ?_, ?_⟩
      · rw [← hstart hmem]
        exact hle
      · rw [← shaped_of_mem h hmem]
        exact hlt
    · have hr : r ∈ rangesOf (blockCalls (frame.largestAcked + 1 - newest.length)
          (frame.moreBlocks.take n)) := hr
      rw [hstart hmem, h.moreBlocks] at hr
      obtain ⟨i, hi, rfl⟩ := rangesOf_cut h.descends n r hr
      exact ⟨i, List.mem_cons_of_mem _ hi, hle, hlt⟩
  · refine .inl ?_
    by_cases hrest : rest = []
    · rw [hrest]
      rfl
    · obtain ⟨b, hlast, hb⟩ := getLast_ackBlocks newest.min hrest
      have hends := endsFrame_blockCalls hlast hb (frame.largestAcked + 1 - newest.length)
      rw [hall hwhole, List.take_length, h.moreBlocks]
      exact (Bool.or_eq_true _ _).mpr (.inr hends)
  · obtain ⟨i, hi, hcontains⟩ := (mem_packets_iff h k).mp hk
    have htail : rangesOf (blockCalls (frame.largestAcked + 1 - newest.length)
        (frame.moreBlocks.take n)) = rest.map fun i => (i.min, i.max) := by
      rw [hall hwhole, List.take_length, hstart hmem, h.moreBlocks,
        blockCalls_ackBlocks h.descends, rangesOf_rangeCalls]
    rcases List.mem_cons.mp hi with rfl | hi
    · refine ⟨_, List.mem_cons_self .., ?_, ?_⟩
      · rw [hstart hmem]
        exact hcontains.1
      · rw [shaped_of_mem h hmem]
        exact hcontains.2
    · refine ⟨(i.min, i.max), List.mem_cons_of_mem _ ?_, hcontains⟩
      show _ ∈ rangesOf (blockCalls _ _)
      rw [htail]
      exact List.mem_map_of_mem hi

/-- What the sender hears of an ack. -/
theorem Numbered.names (h : Numbered frame) (hlargest : frame.largestAcked ≠ 0) (seq : Nat) :
    ∃ result ranges, NsQuicSender.parse (NsQuicReceiver.ackDatagram seq frame) =
        some (result, .onAckFrameStart frame.largestAcked (reportedDelay frame) :: ranges) ∧
      Names seq frame ranges := by
  by_cases hempty : frame.packets.intervals = []
  · have hnone : ∀ n, n ∉ frame.packets := by
      rintro n ⟨i, hi, -⟩
      rw [hempty] at hi
      exact absurd hi List.not_mem_nil
    have hbytes : (getMinSeqLength seq).bytes ≤ 6 := bytes_getMinPacketNumberLength_le _
    obtain ⟨bytes, e, left, hwritten, hfits, hparse⟩ := rejected_of_empty hempty hlargest h.below
      (show 64 ≤ kMaxBufferSize - (1 + (getMinSeqLength seq).bytes) by
        unfold kMaxBufferSize
        omega) NsQuicSender.visitor_accepts NsQuicSender.unusedHeader
    refine ⟨.error e, [], ?_, trivial, ⟨fun _ hr => absurd hr List.not_mem_nil, .nil⟩,
      fun _ hr => absurd hr List.not_mem_nil, fun hmem => absurd hmem (hnone _),
      fun _ => .inr rfl, fun _ hmem => absurd hmem (hnone _)⟩
    rw [parse_ackDatagram seq hwritten hfits, hparse]
  · obtain ⟨newest, rest, n, hlisted, hlength, hn, hpos, hall, hparse⟩ := h.calls hempty seq
    exact ⟨_, _, hparse, names_of_listed hlisted hlength hn hpos hall⟩

end Named
end CongestionResponse.NsQuic
