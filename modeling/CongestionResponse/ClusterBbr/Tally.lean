import CongestionResponse.ClusterBbr.Runs

/-! What a cluster has counted.

`Tallied` compares the counters of a cluster with the acknowledgements of a run: the bytes
are those of its acknowledged packets, and the two times are those of the first and the
last of these acknowledgements. That a packet is found by its distance from the first one
needs consecutive numbers, of which 32 bits tell all packets of the cluster apart. -/
namespace CongestionResponse.ClusterBbr
open Lib Quic ClusterGraph

/-! ### One cluster -/

namespace SentClusterInfo
variable (c : SentClusterInfo)

/-- The packets of a cluster as they were sent: number, time and size. -/
def packets : List (Nat × Int × Nat) :=
  c.packetInfos.map fun info => (info.seq, info.sentTs, info.len)

def sizes : List (Nat × Nat) := c.packetInfos.map fun info => (info.seq, info.len)

def numbers : List Nat := c.packetInfos.map SentPacketInfo.seq

/-- The acknowledgements that are for packets of the cluster: their times and sizes. -/
def acksIn (acks : List (Int × Nat)) : List (Int × Nat) :=
  acks.filterMap fun ack => (c.sizes.lookup ack.2).map fun len => (ack.1, len)

/-- The counters are those of the acknowledgements. -/
structure Tallied (acks : List (Int × Nat)) : Prop where
  bytes : c.ackedPackets = ((c.acksIn acks).map Prod.snd).sum
  first : c.firstAckTs = ((c.acksIn acks).head?.map Prod.fst).getD 0
  last : c.lastAckTs = ((c.acksIn acks).getLast?.map Prod.fst).getD 0

/-- The packets have consecutive numbers. -/
def Consecutive : Prop := ∃ n, c.numbers = List.range' n c.packetInfos.length

/-- There are not too many of them either. -/
structure Numbered : Prop where
  consecutive : c.Consecutive
  few : c.packetInfos.length ≤ 2 ^ 32

variable {c}

theorem lookup_sizes_isSome {p : Nat} : (c.sizes.lookup p).isSome ↔ p ∈ c.numbers := by
  unfold sizes numbers
  induction c.packetInfos with
  | nil => simp
  | cons info rest ih =>
    rw [List.map_cons, List.map_cons, List.lookup_cons]
    by_cases hp : p = info.seq
    · simp [hp]
    · rw [beq_false_of_ne hp, ih, List.mem_cons]
      exact (or_iff_right hp).symm

theorem lookup_of_mem {l : List (Nat × Nat)} (h : (l.map Prod.fst).Nodup) {k v : Nat}
    (hmem : (k, v) ∈ l) : l.lookup k = some v := by
  induction l with
  | nil => cases hmem
  | cons e rest ih =>
    rw [List.map_cons, List.nodup_cons] at h
    rw [List.lookup_cons]
    rcases List.mem_cons.mp hmem with rfl | hmem
    · simp
    · have hne : k ≠ e.1 := by
        rintro rfl
        exact h.1 (List.mem_map.mpr ⟨_, hmem, rfl⟩)
      rw [beq_false_of_ne hne]
      exact ih h.2 hmem

theorem acksIn_append (acks acks' : List (Int × Nat)) :
    c.acksIn (acks ++ acks') = c.acksIn acks ++ c.acksIn acks' := List.filterMap_append

/-- An acknowledgement of a packet elsewhere does not count. -/
theorem acksIn_of_notMem {t : Int} {p : Nat} (h : p ∉ c.numbers) : c.acksIn [(t, p)] = [] := by
  have hnone : c.sizes.lookup p = none := by
    rw [← Option.not_isSome_iff_eq_none, lookup_sizes_isSome]
    exact h
  simp [acksIn, hnone]

theorem Tallied.skip {acks : List (Int × Nat)} (h : c.Tallied acks) {t : Int} {p : Nat}
    (hp : p ∉ c.numbers) : c.Tallied (acks ++ [(t, p)]) := by
  have heq : c.acksIn (acks ++ [(t, p)]) = c.acksIn acks := by
    rw [acksIn_append, acksIn_of_notMem hp, List.append_nil]
  exact ⟨by rw [heq]; exact h.bytes, by rw [heq]; exact h.first, by rw [heq]; exact h.last⟩

theorem nodup_numbers (h : c.Consecutive) : c.numbers.Nodup := by
  obtain ⟨n, hnumbers⟩ := h
  rw [hnumbers]
  exact List.nodup_range'

theorem fst_sizes (c : SentClusterInfo) : c.sizes.map Prod.fst = c.numbers := by
  simp [sizes, numbers]

/-- The packet an acknowledgement is for is the one with that number, if 32 bits hold its distance
from the first one. -/
theorem target_of_near (h : c.Consecutive) {head : SentPacketInfo}
    (hhead : c.packetInfos.head? = some head) {p : Nat} (hp : p ∈ c.numbers)
    (hnear : p < head.seq + 2 ^ 32) :
    ∃ packet, c.target head p = some (p - head.seq, packet) ∧ packet.seq = p ∧
      (p, packet.len) ∈ c.sizes := by
  obtain ⟨n, hnumbers⟩ := h
  -- The first packet has the first number, and the numbers are told apart.
  have hfirst : head.seq = n := by
    obtain ⟨rest, hpackets⟩ := List.head?_eq_some_iff.mp hhead
    rw [numbers, hpackets, List.map_cons, List.length_cons, List.range'_succ] at hnumbers
    exact (List.cons.inj hnumbers).1
  rw [hnumbers, List.mem_range'_1] at hp
  have hlt : p - head.seq < c.packetInfos.length := by omega
  obtain ⟨packet, hpacket⟩ : ∃ packet, c.packetInfos[p - head.seq]? = some packet :=
    ⟨_, List.getElem?_eq_getElem hlt⟩
  have hseq : packet.seq = p := by
    have hat : c.numbers[p - head.seq]? = some packet.seq := by
      rw [numbers, List.getElem?_map, hpacket, Option.map_some]
    rw [hnumbers, List.getElem?_range' hlt] at hat
    have := Option.some.inj hat
    omega
  have hoffset : (p - head.seq) % 2 ^ 32 = p - head.seq := Nat.mod_eq_of_lt (by omega)
  refine ⟨packet, ?_, hseq, ?_⟩
  · rw [target, if_pos (by omega)]
    simp only [hoffset, hpacket, Option.map_some]
  · rw [← hseq]
    exact List.mem_map_of_mem (List.mem_of_getElem? hpacket)

theorem head_mem_numbers {head : SentPacketInfo} (hhead : c.packetInfos.head? = some head) :
    head.seq ∈ c.numbers :=
  List.mem_map_of_mem (List.mem_of_head? hhead)

/-- In a cluster of at most 2^32 packets all are near the first one. -/
theorem Numbered.near (h : c.Numbered) {head : SentPacketInfo}
    (hhead : c.packetInfos.head? = some head) {p : Nat} (hp : p ∈ c.numbers) :
    p < head.seq + 2 ^ 32 := by
  obtain ⟨n, hnumbers⟩ := h.consecutive
  have hfirst := head_mem_numbers hhead
  rw [hnumbers, List.mem_range'_1] at hp hfirst
  have hfew := h.few
  omega

theorem target_eq (h : c.Numbered) {head : SentPacketInfo} (hhead : c.packetInfos.head? = some head)
    {p : Nat} (hp : p ∈ c.numbers) :
    ∃ packet, c.target head p = some (p - head.seq, packet) ∧
      c.sizes.lookup p = some packet.len := by
  obtain ⟨packet, htarget, -, hmem⟩ := target_of_near h.consecutive hhead hp (h.near hhead hp)
  refine ⟨packet, htarget, lookup_of_mem ?_ hmem⟩
  rw [fst_sizes]
  exact nodup_numbers h.consecutive

/-- Two states of one cluster between which no packet was sent in it. -/
structure SameSends (c c' : SentClusterInfo) : Prop where
  clusterId : c'.clusterId = c.clusterId
  packets : c'.packets = c.packets
  firstSendTs : c'.firstSendTs = c.firstSendTs
  lastSendTs : c'.lastSendTs = c.lastSendTs
  sentPackets : c'.sentPackets = c.sentPackets

theorem SameSends.numbers {c' : SentClusterInfo} (h : SameSends c c') : c'.numbers = c.numbers := by
  simpa [SentClusterInfo.packets, SentClusterInfo.numbers, Function.comp_def] using
    congrArg (List.map Prod.fst) h.packets

theorem SameSends.sizes {c' : SentClusterInfo} (h : SameSends c c') : c'.sizes = c.sizes := by
  simpa [SentClusterInfo.packets, SentClusterInfo.sizes, Function.comp_def] using
    congrArg (List.map fun q : Nat × Int × Nat => (q.1, q.2.2)) h.packets

theorem SameSends.length {c' : SentClusterInfo} (h : SameSends c c') :
    c'.packetInfos.length = c.packetInfos.length := by
  simpa [SentClusterInfo.packets] using congrArg List.length h.packets

theorem SameSends.consecutive {c' : SentClusterInfo} (h : SameSends c c') (hc : c.Consecutive) :
    c'.Consecutive := by
  unfold Consecutive
  rw [h.numbers, h.length]
  exact hc

/-- An acknowledged packet is written back with its number, its time and its size. -/
theorem recordAck_sameSends {p : Nat} {t : Int} {c' : SentClusterInfo}
    (h : c.recordAck p t = some c') : SameSends c c' := by
  obtain ⟨head, -, rfl⟩ := Option.map_eq_some_iff.mp h
  cases htarget : c.target head p with
  | none => exact ⟨rfl, rfl, rfl, rfl, rfl⟩
  | some found =>
    refine ⟨rfl, ?_, rfl, rfl, rfl⟩
    have hpacket : c.packetInfos[found.1]? = some found.2 := by
      unfold target at htarget
      split at htarget
      · obtain ⟨packet, hget, rfl⟩ := Option.map_eq_some_iff.mp htarget
        exact hget
      · cases htarget
    obtain ⟨hlt, hget⟩ := List.getElem?_eq_some_iff.mp hpacket
    apply List.ext_getElem?
    intro j
    simp only [packets, List.map_set, List.getElem?_set, List.getElem?_map]
    by_cases hj : found.1 = j
    · subst hj
      simp [hlt, hget]
    · simp [hj]

/-- An acknowledgement of a packet of the cluster counts its bytes and dates it. -/
theorem recordAck_of_mem (h : c.Numbered) {p : Nat} (hp : p ∈ c.numbers) (t : Int) :
    ∃ c' len, c.recordAck p t = some c' ∧ c.sizes.lookup p = some len ∧
      c' = {c with
        lastAckTs := t
        packetInfos := c'.packetInfos
        ackedPackets := c.ackedPackets + len} := by
  obtain ⟨head, hhead⟩ : ∃ head, c.packetInfos.head? = some head := by
    cases hpackets : c.packetInfos with
    | nil => simp [numbers, hpackets] at hp
    | cons head rest => exact ⟨head, rfl⟩
  obtain ⟨packet, htarget, hlookup⟩ := target_eq h hhead hp
  rw [recordAck, hhead, Option.map_some, htarget]
  exact ⟨_, packet.len, rfl, hlookup, rfl⟩

theorem acksIn_congr {c' : SentClusterInfo} (h : c'.sizes = c.sizes) (acks : List (Int × Nat)) :
    c'.acksIn acks = c.acksIn acks := by
  rw [acksIn, acksIn, h]

variable {acks : List (Int × Nat)}

/-- A cluster has a first acknowledgement if any is for one of its packets. -/
theorem Tallied.firstAckTs_eq_zero (h : c.Tallied acks) (hacks : ∀ ack ∈ acks, ack.1 ≠ 0) :
    c.firstAckTs = 0 ↔ c.acksIn acks = [] := by
  rw [h.first]
  cases hin : c.acksIn acks with
  | nil => simp
  | cons e rest =>
    have hmem : e ∈ c.acksIn acks := by rw [hin]; exact List.mem_cons_self
    obtain ⟨ack, hack, hsome⟩ := List.mem_filterMap.mp hmem
    obtain ⟨len, -, rfl⟩ := Option.map_eq_some_iff.mp hsome
    simpa using hacks ack hack

/-- The counters after an acknowledgement are those of one acknowledgement more. -/
theorem Tallied.record (h : c.Tallied acks) (hn : c.Numbered) {p : Nat} (hp : p ∈ c.numbers)
    (t : Int) {first : Int} {c' : SentClusterInfo}
    (hfirst : first = (((c.acksIn acks).head?.map Prod.fst).getD t))
    (hack : {c with firstAckTs := first}.recordAck p t = some c') :
    c'.Tallied (acks ++ [(t, p)]) := by
  have hn₁ : ({c with firstAckTs := first} : SentClusterInfo).Numbered := ⟨hn.consecutive, hn.few⟩
  obtain ⟨c₂, len, hack₂, hlookup, heq⟩ := recordAck_of_mem hn₁ hp t
  obtain rfl : c' = c₂ := Option.some.inj (hack.symm.trans hack₂)
  have hsizes : c'.sizes = c.sizes := (recordAck_sameSends hack).sizes
  have hin : c'.acksIn (acks ++ [(t, p)]) = c.acksIn acks ++ [(t, len)] := by
    rw [acksIn_congr hsizes, acksIn_append]
    congr 1
    exact List.filterMap_cons_some (by rw [show c.sizes.lookup p = some len from hlookup]; rfl)
  refine ⟨?_, ?_, ?_⟩
  · rw [hin, List.map_append, List.sum_append, ← h.bytes, heq]
    simp
  · rw [hin, heq, hfirst]
    cases c.acksIn acks <;> rfl
  · rw [hin, heq, List.getLast?_concat]
    rfl

theorem Tallied.again (h : c.Tallied acks) (hacks : ∀ ack ∈ acks, ack.1 ≠ 0) (hn : c.Numbered)
    {p : Nat} (hp : p ∈ c.numbers) {t : Int} {c' : SentClusterInfo} (hfirst : c.firstAckTs ≠ 0)
    (hack : c.recordAck p t = some c') :
    c'.Tallied (acks ++ [(t, p)]) := by
  refine h.record hn hp t ?_ hack
  rw [h.first]
  rw [ne_eq, h.firstAckTs_eq_zero hacks] at hfirst
  obtain ⟨e, rest, hin⟩ := List.exists_cons_of_ne_nil hfirst
  simp [hin]

theorem Tallied.opened (h : c.Tallied acks) (hacks : ∀ ack ∈ acks, ack.1 ≠ 0) (hn : c.Numbered)
    {p : Nat} (hp : p ∈ c.numbers) {t : Int} {c' : SentClusterInfo} (hfirst : c.firstAckTs = 0)
    (hack : {c with firstAckTs := t}.recordAck p t = some c') :
    c'.Tallied (acks ++ [(t, p)]) := by
  refine h.record hn hp t ?_ hack
  rw [(h.firstAckTs_eq_zero hacks).mp hfirst]
  rfl

/-! ### Sending -/

theorem numbers_onPacketSent (c : SentClusterInfo) (now : Int) (p len : Nat) :
    (c.onPacketSent now p len).numbers = c.numbers ++ [p] := by
  simp [numbers, onPacketSent]

/-- A packet that was not acknowledged before it is sent does not count yet. -/
theorem Tallied.sent (h : c.Tallied acks) {p : Nat} (hp : ∀ ack ∈ acks, ack.2 ≠ p) (now : Int)
    (len : Nat) : (c.onPacketSent now p len).Tallied acks := by
  have hin : (c.onPacketSent now p len).acksIn acks = c.acksIn acks := by
    apply List.filterMap_congr
    intro ack hack
    have hsizes : (c.onPacketSent now p len).sizes = c.sizes ++ [(p, len)] := by
      simp [sizes, onPacketSent]
    have hother : List.lookup ack.2 [(p, len)] = none := by
      rw [List.lookup_cons, beq_false_of_ne (hp ack hack)]
      rfl
    rw [hsizes, List.lookup_append, hother, Option.or_none]
  exact ⟨by rw [hin]; exact h.bytes, by rw [hin]; exact h.first, by rw [hin]; exact h.last⟩

theorem tallied_new (clusterId : Nat) (isProbe : Bool) (acks : List (Int × Nat)) :
    (new clusterId isProbe).Tallied acks := by
  have hin : (new clusterId isProbe).acksIn acks = [] := by simp [acksIn, sizes, new]
  exact ⟨by rw [hin]; rfl, by rw [hin]; rfl, by rw [hin]; rfl⟩

/-- The counters of the sends are those of the packets. -/
structure Dispatched (c : SentClusterInfo) : Prop where
  first : c.firstSendTs = (c.packets.head?.map fun q => q.2.1).getD 0
  last : c.lastSendTs = (c.packets.getLast?.map fun q => q.2.1).getD 0
  bytes : c.sentPackets = (c.packets.map fun q => q.2.2).sum
  nonzero : ∀ q ∈ c.packets, q.2.1 ≠ 0

theorem packets_onPacketSent (c : SentClusterInfo) (now : Int) (p len : Nat) :
    (c.onPacketSent now p len).packets = c.packets ++ [(p, now, len)] := by
  simp [packets, onPacketSent]

theorem Dispatched.sent (h : c.Dispatched) {now : Int} (hnow : now ≠ 0) (p len : Nat) :
    (c.onPacketSent now p len).Dispatched := by
  have hpackets := c.packets_onPacketSent now p len
  refine ⟨?_, ?_, ?_, ?_⟩
  · rw [hpackets]
    show (if c.firstSendTs = 0 then now else c.firstSendTs) = _
    rw [h.first]
    cases hold : c.packets with
    | nil => simp
    | cons q rest =>
      have hq : q.2.1 ≠ 0 := h.nonzero q (by rw [hold]; exact List.mem_cons_self)
      simp [hq]
  · rw [hpackets, List.getLast?_concat]
    rfl
  · rw [hpackets, List.map_append, List.sum_append, ← h.bytes]
    simp [onPacketSent]
  · intro q hq
    rw [hpackets, List.mem_append, List.mem_singleton] at hq
    rcases hq with hq | rfl
    · exact h.nonzero q hq
    · exact hnow

theorem dispatched_new (clusterId : Nat) (isProbe : Bool) : (new clusterId isProbe).Dispatched :=
  ⟨rfl, rfl, rfl, fun q hq => by cases hq⟩

theorem SameSends.dispatched {c' : SentClusterInfo} (h : SameSends c c') (hc : c.Dispatched) :
    c'.Dispatched where
  first := by rw [h.firstSendTs, h.packets]; exact hc.first
  last := by rw [h.lastSendTs, h.packets]; exact hc.last
  bytes := by rw [h.sentPackets, h.packets]; exact hc.bytes
  nonzero := by rw [h.packets]; exact hc.nonzero

theorem consecutive_onPacketSent {p : Nat}
    (h : ∃ n, c.numbers = List.range' n c.packetInfos.length)
    (hnext : ∀ q, c.numbers.getLast? = some q → p = q + 1) (now : Int) (len : Nat) :
    ∃ n, (c.onPacketSent now p len).numbers =
      List.range' n (c.onPacketSent now p len).packetInfos.length := by
  obtain ⟨n, hn⟩ := h
  have hlength : (c.onPacketSent now p len).packetInfos.length = c.packetInfos.length + 1 := by
    simp [onPacketSent]
  rw [numbers_onPacketSent, hlength]
  cases hk : c.packetInfos.length with
  | zero =>
    rw [hk] at hn
    exact ⟨p, by rw [hn]; rfl⟩
  | succ k =>
    rw [hk, List.range'_concat] at hn
    have hp : p = n + (k + 1) := by
      have := hnext (n + 1 * k) (by rw [hn, List.getLast?_concat])
      omega
    exact ⟨n, by rw [List.range'_concat (n := k + 1), hn, List.range'_concat, hp,
      Nat.one_mul, Nat.one_mul]⟩

end SentClusterInfo

theorem ClusterGraph.ComesFrom.sameSends {g : ClusterGraph} {p : Nat} {t : Int}
    {c c' : SentClusterInfo} (h : ComesFrom g p t c c') : c.SameSends c' := by
  rcases h with ⟨-, bw, rfl⟩ | ⟨-, hack | hack⟩
  · exact ⟨rfl, rfl, rfl, rfl, rfl⟩
  · exact SentClusterInfo.recordAck_sameSends hack.2
  · have hsame := SentClusterInfo.recordAck_sameSends hack.2
    exact ⟨hsame.clusterId, hsame.packets, hsame.firstSendTs, hsame.lastSendTs, hsame.sentPackets⟩

end CongestionResponse.ClusterBbr
