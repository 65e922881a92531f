import CongestionResponse.SentPackets.Tracking

/-! `GeneralLossAlgorithm`: which packets in flight are taken for lost.

The algorithm looks at the packets in flight up to the largest newly acked one. By its type it
counts the packets acked after a packet, or waits for a fraction of the round trip time; once
the last packet that can be retransmitted was acked it waits for that time in any case. The
search does not begin at the oldest packet but where the last one ended, and there are two
ways to remember that place: `largest_lost_`, and `least_in_flight_` where
`faster_detect_loss_` is set. -/
namespace CongestionResponse.SentPackets
open Quic

inductive LossDetectionType where
  | nack | time | adaptiveTime | lazyFack
deriving DecidableEq

structure AckedPacket where
  packetNumber : Nat
  bytesAcked : Nat
deriving DecidableEq

structure LostPacket where
  packetNumber : Nat
  bytesLost : Nat
deriving DecidableEq

def lostBytes (packets : List LostPacket) : Nat := (packets.map LostPacket.bytesLost).sum

/-- A list of packets in flight, in ascending order. -/
structure QuicUnackedPacketMap.InFlight {φ : Type} (m : QuicUnackedPacketMap φ)
    (packets : List LostPacket) : Prop where
  sorted : packets.Pairwise fun p q => p.packetNumber < q.packetNumber
  inFlight : ∀ p ∈ packets, ∃ info, m.getTransmissionInfo p.packetNumber = some info ∧
    info.inFlight = true ∧ p.bytesLost = info.bytesSent.toNat

/-- The round trip times the loss detection reads. -/
structure RttStats where
  latestRtt : Int
  previousSrtt : Int
  smoothedRtt : Int

structure GeneralLossAlgorithm where
  lossDetectionTimeout : Int
  largestSentOnSpuriousRetransmit : Nat
  lossType : LossDetectionType
  reorderingShift : Nat
  largestPreviouslyAcked : Nat
  largestLost : Nat
  leastInFlight : Nat
  fasterDetectLoss : Bool

def kMinLossDelayMs : Int := 5
def kDefaultLossDelayShift : Nat := 2
def kDefaultAdaptiveLossDelayShift : Nat := 4
def kNumberOfNacksBeforeRetransmission : Nat := 3

namespace GeneralLossAlgorithm

/-- `eighthRtt` and `fasterDetectLoss` are the flags `quic_eighth_rtt_loss_detection` and
`quic_faster_detect_loss`. -/
def new (lossType : LossDetectionType) (eighthRtt fasterDetectLoss : Bool) :
    GeneralLossAlgorithm where
  lossDetectionTimeout := 0
  largestSentOnSpuriousRetransmit := 0
  lossType := lossType
  reorderingShift :=
    if eighthRtt && decide (lossType = .time) then 3
    else if lossType = .adaptiveTime then kDefaultAdaptiveLossDelayShift
    else kDefaultLossDelayShift
  largestPreviouslyAcked := 0
  largestLost := 0
  leastInFlight := 1
  fasterDetectLoss := fasterDetectLoss

/-! ### The search -/

/-- What the search finds about a packet in flight. -/
inductive Verdict where
  | lost
  | lostAt (whenLost : Int)
  | inFlight
deriving DecidableEq

/-- What one search goes by. -/
structure Search (φ : Type) where
  unackedPackets : QuicUnackedPacketMap φ
  time : Int
  rttStats : RttStats
  largestNewlyAcked : Nat

section Search
variable {φ : Type} (a : GeneralLossAlgorithm) (search : Search φ)

def maxRtt (rttStats : RttStats) : Int := max rttStats.previousSrtt rttStats.latestRtt

def lossDelay : Int :=
  let maxRtt := maxRtt search.rttStats
  max (Delta.fromMilliseconds kMinLossDelayMs) (maxRtt + maxRtt >>> a.reorderingShift)

/-- Enough packets behind it were acked. -/
def outrun (packetNumber : Nat) : Bool :=
  match a.lossType with
  | .nack => decide (kNumberOfNacksBeforeRetransmission ≤ search.largestNewlyAcked - packetNumber)
  | .lazyFack => decide (a.largestPreviouslyAcked < search.largestNewlyAcked ∧
      packetNumber < a.largestPreviouslyAcked ∧
      kNumberOfNacksBeforeRetransmission - 1 ≤ a.largestPreviouslyAcked - packetNumber)
  | _ => false

/-- Packets are lost after some time. -/
def timed : Bool :=
  decide (search.unackedPackets.largestSentRetransmittablePacket ≤ search.largestNewlyAcked ∨
    a.lossType = .time ∨ a.lossType = .adaptiveTime)

/-- The body of the loop, for a packet in flight. -/
def judge (packetNumber : Nat) (info : QuicTransmissionInfo φ) : Option Verdict :=
  if a.outrun search packetNumber then some .lost
  else if a.timed search then
    let whenLost := info.sentTime + a.lossDelay search
    some (if search.time < whenLost then .lostAt whenLost else .lost)
  else do
    let acked ← search.unackedPackets.getTransmissionInfo search.largestNewlyAcked
    return if info.sentTime + search.rttStats.smoothedRtt < acked.sentTime then .lost
      else .inFlight

/-- What the loop changes. -/
structure Found where
  packetsLost : List LostPacket
  lossDetectionTimeout : Int
  leastInFlight : Nat
deriving DecidableEq

/-- A packet in flight is not lost: the first such packet is remembered. -/
def Found.keep (found : Found) (packetNumber : Nat) : Found :=
  if found.leastInFlight = 0 then {found with leastInFlight := packetNumber} else found

/-- The loop, over the packets from `packetNumber` on. -/
def searchFrom : List (QuicTransmissionInfo φ) → Nat → Found → Option Found
  | [], _, found => some found
  | info :: rest, packetNumber, found =>
    if search.largestNewlyAcked < packetNumber then some found
    else if info.inFlight then do
      match ← a.judge search packetNumber info with
      | .lost =>
        searchFrom rest (packetNumber + 1) {found with
          packetsLost := found.packetsLost ++ [⟨packetNumber, info.bytesSent.toNat⟩]}
      | .lostAt whenLost => some ({found with lossDetectionTimeout := whenLost}.keep packetNumber)
      | .inFlight => searchFrom rest (packetNumber + 1) (found.keep packetNumber)
    else searchFrom rest (packetNumber + 1) found

/-- Where the search begins. -/
def searchStart : Nat :=
  let least := search.unackedPackets.getLeastUnacked
  let sent := search.unackedPackets.largestSentPacket
  if a.fasterDetectLoss then
    if least ≤ a.leastInFlight ∧ a.leastInFlight ≤ sent + 1 then a.leastInFlight else least
  else if least ≤ a.largestLost ∧ a.largestLost ≤ sent then a.largestLost + 1 else least

/-- The packets from a number on. -/
def packetsFrom (packetNumber : Nat) : List (QuicTransmissionInfo φ) :=
  search.unackedPackets.unackedPackets.items.drop
    (packetNumber - search.unackedPackets.getLeastUnacked)

/-- The end of `DetectLosses`: the search and what is remembered of it. -/
def searchLosses : Option (GeneralLossAlgorithm × List LostPacket) := do
  let start := a.searchStart search
  let found ← a.searchFrom search (packetsFrom search start) start
    ⟨[], 0, if a.fasterDetectLoss then 0 else a.leastInFlight⟩
  return ({a with
    lossDetectionTimeout := found.lossDetectionTimeout
    leastInFlight :=
      if found.leastInFlight = 0 then search.largestNewlyAcked + 1 else found.leastInFlight
    largestPreviouslyAcked := search.largestNewlyAcked
    largestLost := (found.packetsLost.getLast?.map LostPacket.packetNumber).getD a.largestLost},
    found.packetsLost)

/-- The loop over the acked packets that moves `least_in_flight_` up to the first hole. -/
def firstHole : List AckedPacket → Nat → Nat
  | [], leastInFlight => leastInFlight
  | acked :: rest, leastInFlight =>
    if acked.packetNumber ≠ leastInFlight then leastInFlight else firstHole rest (leastInFlight + 1)

def detectLosses (packetsAcked : List AckedPacket) :
    Option (GeneralLossAlgorithm × List LostPacket) :=
  match packetsAcked with
  | [] => a.searchLosses search
  | front :: _ =>
    if a.fasterDetectLoss ∧ front.packetNumber = a.leastInFlight then
      if a.leastInFlight + packetsAcked.length - 1 = search.largestNewlyAcked then
        -- No packet is missing.
        some ({a with
          lossDetectionTimeout := 0
          leastInFlight := search.largestNewlyAcked + 1
          largestPreviouslyAcked := search.largestNewlyAcked}, [])
      else
        {a with leastInFlight := firstHole packetsAcked a.leastInFlight}.searchLosses search
    else a.searchLosses search

end Search

/-! ### Spurious retransmissions -/

/-- The loop of the fixed version: the shift goes down until the time would have been enough. -/
def shiftFor (maxRtt extraTimeNeeded : Int) : Nat → Nat
  | 0 => 0
  | shift + 1 =>
    if maxRtt >>> (shift + 1) ≤ extraTimeNeeded then shiftFor maxRtt extraTimeNeeded shift
    else shift + 1

/-- The loop of the first version, which tests after it has gone down. -/
def shiftAfter (maxRtt extraTimeNeeded : Int) : Nat → Nat
  | 0 => 0
  | shift + 1 =>
    if maxRtt >>> (shift + 1) < extraTimeNeeded ∧ 0 < shift then
      shiftAfter maxRtt extraTimeNeeded shift
    else shift

/-- `fixAdaptiveTime` is the flag `quic_fix_adaptive_time_loss`. -/
def spuriousRetransmitDetected {φ : Type} (fixAdaptiveTime : Bool) (a : GeneralLossAlgorithm)
    (unackedPackets : QuicUnackedPacketMap φ) (time : Int) (rttStats : RttStats)
    (spuriousRetransmission : Nat) : Option GeneralLossAlgorithm :=
  if a.lossType ≠ .adaptiveTime ∨ a.reorderingShift = 0 then some a
  else do
    let info ← unackedPackets.getTransmissionInfo spuriousRetransmission
    let extraTimeNeeded := time - info.sentTime
    if fixAdaptiveTime then
      return {a with
        reorderingShift := shiftFor (maxRtt rttStats) extraTimeNeeded a.reorderingShift}
    if spuriousRetransmission ≤ a.largestSentOnSpuriousRetransmit then return a
    return {a with
      largestSentOnSpuriousRetransmit := unackedPackets.largestSentPacket
      reorderingShift := shiftAfter (maxRtt rttStats) extraTimeNeeded a.reorderingShift}

/-! ### What is found -/

section Spec
variable {φ : Type} {a a' : GeneralLossAlgorithm} {search : Search φ}
  {items : List (QuicTransmissionInfo φ)} {n : Nat} {found found' : Found} {lost : List LostPacket}

/-- The items are the packets from a number on. -/
def Follows (m : QuicUnackedPacketMap φ) (items : List (QuicTransmissionInfo φ)) (n : Nat) : Prop :=
  ∀ (i : Nat) (info : QuicTransmissionInfo φ), items[i]? = some info →
    m.getTransmissionInfo (n + i) = some info

theorem Follows.head {m : QuicUnackedPacketMap φ} {info : QuicTransmissionInfo φ}
    (h : Follows m (info :: items) n) : m.getTransmissionInfo n = some info := h 0 info rfl

theorem Follows.tail {m : QuicUnackedPacketMap φ} {info : QuicTransmissionInfo φ}
    (h : Follows m (info :: items) n) : Follows m items (n + 1) := by
  intro i info' hi
  rw [Nat.add_assoc, Nat.add_comm 1 i]
  exact h (i + 1) info' hi

theorem follows_packetsFrom (hn : search.unackedPackets.getLeastUnacked ≤ n) :
    Follows search.unackedPackets (packetsFrom search n) n := by
  intro i info hi
  rw [packetsFrom, List.getElem?_drop] at hi
  have hle : search.unackedPackets.unackedPackets.first ≤ n + i :=
    Nat.le_trans hn (Nat.le_add_right n i)
  have hindex : n + i - search.unackedPackets.unackedPackets.first =
      n - search.unackedPackets.getLeastUnacked + i := Nat.sub_add_comm hn
  rw [QuicUnackedPacketMap.getTransmissionInfo, Lib.NumberedQueue.get?, if_pos hle, hindex]
  exact hi

theorem least_le_searchStart (a : GeneralLossAlgorithm) (search : Search φ) :
    search.unackedPackets.getLeastUnacked ≤ a.searchStart search := by
  unfold searchStart
  dsimp only
  split
  · split
    · rename_i h
      exact h.1
    · exact Nat.le_refl _
  · split
    · rename_i h
      exact Nat.le_succ_of_le h.1
    · exact Nat.le_refl _

theorem packetsLost_keep (found : Found) (n : Nat) :
    (found.keep n).packetsLost = found.packetsLost := by
  unfold Found.keep
  split <;> rfl

/-- The packets the loop adds are in flight. -/
theorem packetsLost_searchFrom (hitems : Follows search.unackedPackets items n)
    (hrun : a.searchFrom search items n found = some found') :
    ∃ lost, found'.packetsLost = found.packetsLost ++ lost ∧ search.unackedPackets.InFlight lost ∧
      ∀ p ∈ lost, n ≤ p.packetNumber ∧ p.packetNumber ≤ search.largestNewlyAcked := by
  have hnone : search.unackedPackets.InFlight [] :=
    ⟨List.Pairwise.nil, fun _ hp => absurd hp List.not_mem_nil⟩
  induction items generalizing n found with
  | nil =>
    cases hrun
    exact ⟨[], (List.append_nil _).symm, hnone, fun _ hp => absurd hp List.not_mem_nil⟩
  | cons info rest ih =>
    -- What the rest of the loop adds lies further up.
    have hlater : ∀ found₁, a.searchFrom search rest (n + 1) found₁ = some found' →
        ∃ lost, found'.packetsLost = found₁.packetsLost ++ lost ∧
          search.unackedPackets.InFlight lost ∧
          ∀ p ∈ lost, n ≤ p.packetNumber ∧ p.packetNumber ≤ search.largestNewlyAcked := by
      intro found₁ hrun₁
      obtain ⟨lost, heq, hin, hbounds⟩ := ih hitems.tail hrun₁
      exact ⟨lost, heq, hin, fun p hp => ⟨Nat.le_of_succ_le (hbounds p hp).1, (hbounds p hp).2⟩⟩
    unfold searchFrom at hrun
    split at hrun
    · cases hrun
      exact ⟨[], (List.append_nil _).symm, hnone, fun _ hp => absurd hp List.not_mem_nil⟩
    · rename_i hacked
      split at hrun
      · rename_i hin
        obtain ⟨verdict, -, hrun⟩ := Option.bind_eq_some_iff.mp hrun
        cases verdict with
        | lost =>
          obtain ⟨lost, heq, hflight, hbounds⟩ := ih hitems.tail hrun
          refine ⟨⟨n, info.bytesSent.toNat⟩ :: lost, ?_, ⟨?_, ?_⟩, ?_⟩
          · rw [heq, List.append_assoc]
            rfl
          · exact List.pairwise_cons.mpr ⟨fun p hp => (hbounds p hp).1, hflight.sorted⟩
          · exact List.forall_mem_cons.mpr ⟨⟨info, hitems.head, hin, rfl⟩, hflight.inFlight⟩
          · refine List.forall_mem_cons.mpr ⟨⟨Nat.le_refl n, Nat.not_lt.mp hacked⟩, fun p hp => ?_⟩
            exact ⟨Nat.le_of_succ_le (hbounds p hp).1, (hbounds p hp).2⟩
        | lostAt whenLost =>
          cases hrun
          refine ⟨[], ?_, hnone, fun _ hp => absurd hp List.not_mem_nil⟩
          rw [packetsLost_keep, List.append_nil]
        | inFlight =>
          obtain ⟨lost, heq, hlost⟩ := hlater _ hrun
          rw [packetsLost_keep] at heq
          exact ⟨lost, heq, hlost⟩
      · exact hlater _ hrun

/-- The packets that are found to be lost are in flight. -/
theorem inFlight_detectLosses {packetsAcked : List AckedPacket}
    (hrun : a.detectLosses search packetsAcked = some (a', lost)) :
    search.unackedPackets.InFlight lost ∧
      ∀ p ∈ lost, p.packetNumber ≤ search.largestNewlyAcked := by
  have hsearch : ∀ b : GeneralLossAlgorithm, b.searchLosses search = some (a', lost) →
      search.unackedPackets.InFlight lost ∧
        ∀ p ∈ lost, p.packetNumber ≤ search.largestNewlyAcked := by
    intro b hb
    obtain ⟨found, hfound, heq⟩ := Option.bind_eq_some_iff.mp hb
    cases heq
    obtain ⟨lost, hlost, hin, hbounds⟩ :=
      packetsLost_searchFrom (follows_packetsFrom (least_le_searchStart b search)) hfound
    rw [hlost, List.nil_append]
    exact ⟨hin, fun p hp => (hbounds p hp).2⟩
  unfold detectLosses at hrun
  split at hrun
  · exact hsearch a hrun
  · split at hrun
    · split at hrun
      · cases hrun
        exact ⟨⟨List.Pairwise.nil, fun _ hp => absurd hp List.not_mem_nil⟩,
          fun _ hp => absurd hp List.not_mem_nil⟩
      · exact hsearch _ hrun
    · exact hsearch a hrun

theorem exists_searchFrom
    (hacked : n ≤ search.largestNewlyAcked → ∃ acked,
      search.unackedPackets.getTransmissionInfo search.largestNewlyAcked = some acked) :
    ∃ found', a.searchFrom search items n found = some found' := by
  induction items generalizing n found with
  | nil => exact ⟨found, rfl⟩
  | cons info rest ih =>
    unfold searchFrom
    split
    · exact ⟨found, rfl⟩
    · rename_i hle
      have hnext : ∀ found, ∃ found', a.searchFrom search rest (n + 1) found = some found' :=
        fun found => ih fun hle => hacked (Nat.le_of_succ_le hle)
      split
      · obtain ⟨acked, hget⟩ := hacked (Nat.not_lt.mp hle)
        obtain ⟨verdict, hverdict⟩ : ∃ verdict, a.judge search n info = some verdict := by
          unfold judge
          rw [hget]
          split
          · exact ⟨_, rfl⟩
          · split <;> exact ⟨_, rfl⟩
        rw [hverdict]
        cases verdict with
        | lost => exact hnext _
        | lostAt whenLost => exact ⟨_, rfl⟩
        | inFlight => exact hnext _
      · exact hnext _

/-- The detection has a result, as no packet that was not sent is acked. -/
theorem exists_detectLosses (h : search.unackedPackets.Tracks)
    (hsent : search.largestNewlyAcked ≤ search.unackedPackets.largestSentPacket)
    (a : GeneralLossAlgorithm) (packetsAcked : List AckedPacket) :
    ∃ a' lost, a.detectLosses search packetsAcked = some (a', lost) := by
  have hsearch : ∀ b : GeneralLossAlgorithm, ∃ a' lost,
      b.searchLosses search = some (a', lost) := by
    intro b
    obtain ⟨found, hfound⟩ : ∃ found, b.searchFrom search
        (packetsFrom search (b.searchStart search)) (b.searchStart search)
        ⟨[], 0, if b.fasterDetectLoss then 0 else b.leastInFlight⟩ = some found :=
      exists_searchFrom fun hle =>
        h.exists_info (Nat.le_trans (least_le_searchStart b search) hle) hsent
    exact ⟨_, _, by rw [searchLosses, hfound]; rfl⟩
  unfold detectLosses
  split
  · exact hsearch a
  · split
    · split
      · exact ⟨_, _, rfl⟩
      · exact hsearch _
    · exact hsearch a

end Spec
end GeneralLossAlgorithm
end CongestionResponse.SentPackets
