import CongestionResponse.SentPackets.AckFrames

/-! Both ways to remember where the search for losses ended find what a search of all packets
finds.

With `faster_detect_loss_` the search begins at `least_in_flight_`, and is left out where the
acked packets show that no packet is missing; without it the search begins behind
`largest_lost_`. Neither place has a packet in flight before it (`Keeps`). For `largest_lost_`
this needs that packets were sent in the order of their times: then the packets that are lost are
the oldest in flight. -/
namespace CongestionResponse.SentPackets
open Lib Quic QuicUnackedPacketMap QuicSentPacketManager

variable {φ : Type}

namespace GeneralLossAlgorithm

/-! ### One search -/

section Search
variable {a : GeneralLossAlgorithm} {search : Search φ} {items : List (QuicTransmissionInfo φ)}
  {n : Nat} {found found' : Found}

/-- Packets that are not in flight are passed over. -/
theorem searchFrom_drop {j : Nat}
    (hout : ∀ (i : Nat) (info : QuicTransmissionInfo φ), i < j → items[i]? = some info →
      info.inFlight = false) :
    a.searchFrom search items n found = a.searchFrom search (items.drop j) (n + j) found := by
  induction j generalizing items n with
  | zero => rfl
  | succ j ih =>
    cases items with
    | nil => rfl
    | cons info rest =>
      have hinfo : info.inFlight = false := hout 0 info (Nat.succ_pos j) rfl
      have hrest : a.searchFrom search rest (n + 1) found =
          a.searchFrom search (rest.drop j) (n + 1 + j) found :=
        ih fun i info' hi hget => hout (i + 1) info' (Nat.succ_lt_succ hi) hget
      rw [List.drop_succ_cons, show n + (j + 1) = n + 1 + j by omega, ← hrest]
      rw [searchFrom, hinfo]
      split
      · rename_i hlt
        -- Behind the largest newly acked packet nothing is looked at.
        cases rest with
        | nil => rfl
        | cons info' rest' => rw [searchFrom, if_pos (Nat.lt_succ_of_lt hlt)]
      · rfl

theorem keep_leastInFlight (found : Found) (leastInFlight n : Nat) : ∃ leastInFlight',
    {found with leastInFlight := leastInFlight}.keep n =
      {found.keep n with leastInFlight := leastInFlight'} := by
  unfold Found.keep
  split <;> split <;> exact ⟨_, rfl⟩

/-- What the search remembers of the first packet in flight has no influence on what is lost. -/
theorem searchFrom_leastInFlight (h : a.searchFrom search items n found = some found')
    (leastInFlight : Nat) :
    ∃ leastInFlight', a.searchFrom search items n {found with leastInFlight := leastInFlight} =
      some {found' with leastInFlight := leastInFlight'} := by
  induction items generalizing n found leastInFlight with
  | nil =>
    cases h
    exact ⟨leastInFlight, rfl⟩
  | cons info rest ih =>
    rw [searchFrom] at h ⊢
    by_cases hlt : search.largestNewlyAcked < n
    · rw [if_pos hlt] at h ⊢
      cases h
      exact ⟨leastInFlight, rfl⟩
    · rw [if_neg hlt] at h ⊢
      by_cases hin : info.inFlight = true
      · rw [if_pos hin] at h ⊢
        obtain ⟨verdict, hverdict, h⟩ := Option.bind_eq_some_iff.mp h
        rw [hverdict]
        cases verdict with
        | lost => exact ih h leastInFlight
        | lostAt whenLost =>
          cases h
          obtain ⟨leastInFlight', hkeep⟩ := keep_leastInFlight
            {found with lossDetectionTimeout := whenLost} leastInFlight n
          exact ⟨leastInFlight', congrArg some hkeep⟩
        | inFlight =>
          obtain ⟨leastInFlight', hkeep⟩ := keep_leastInFlight found leastInFlight n
          obtain ⟨leastInFlight'', hrun⟩ := ih h leastInFlight'
          rw [← hkeep] at hrun
          exact ⟨leastInFlight'', hrun⟩
      · rw [if_neg hin] at h ⊢
        exact ih h leastInFlight

theorem keep_of_ne (found : Found) (hne : found.leastInFlight ≠ 0) (n : Nat) :
    found.keep n = found := if_neg hne

/-- The first packet in flight is remembered for good. -/
theorem leastInFlight_searchFrom (h : a.searchFrom search items n found = some found')
    (hne : found.leastInFlight ≠ 0) : found'.leastInFlight = found.leastInFlight := by
  induction items generalizing n found with
  | nil =>
    cases h
    rfl
  | cons info rest ih =>
    unfold searchFrom at h
    split at h
    · cases h
      rfl
    · split at h
      · obtain ⟨verdict, -, h⟩ := Option.bind_eq_some_iff.mp h
        cases verdict with
        | lost =>
          have hrest := ih h
          exact hrest hne
        | lostAt whenLost =>
          cases h
          rw [keep_of_ne {found with lossDetectionTimeout := whenLost} hne]
        | inFlight =>
          rw [keep_of_ne found hne] at h
          exact ih h hne
      · exact ih h hne

/-- A packet in flight that the search has passed is lost, or not before the first one that is
remembered as being in flight. -/
theorem searchFrom_inFlight (hitems : Follows search.unackedPackets items n)
    (h : a.searchFrom search items n found = some found') (hn : 1 ≤ n)
    (hzero : found.leastInFlight = 0) :
    found'.leastInFlight ≤ search.largestNewlyAcked ∧
    ∀ (i : Nat) (info : QuicTransmissionInfo φ), items[i]? = some info → info.inFlight = true →
      n + i ≤ search.largestNewlyAcked → n + i ∈ found'.packetsLost.map LostPacket.packetNumber ∨
        found'.leastInFlight ≠ 0 ∧ found'.leastInFlight ≤ n + i := by
  have hkept : ∀ found₁ : Found, found₁.leastInFlight = 0 → (found₁.keep n).leastInFlight = n := by
    intro found₁ hzero₁
    rw [Found.keep, if_pos hzero₁]
  induction items generalizing n found with
  | nil =>
    cases h
    refine ⟨hzero ▸ Nat.zero_le _, fun i info hi => ?_⟩
    cases hi
  | cons info rest ih =>
    have hnext := fun (found₁ : Found)
        (hrun : a.searchFrom search rest (n + 1) found₁ = some found')
        (hzero₁ : found₁.leastInFlight = 0) => ih hitems.tail hrun (Nat.le_succ_of_le hn) hzero₁
      (fun found₂ hzero₂ => by rw [Found.keep, if_pos hzero₂])
    unfold searchFrom at h
    split at h
    · rename_i hlt
      cases h
      refine ⟨hzero ▸ Nat.zero_le _, fun i _ _ _ hle => ?_⟩
      omega
    · rename_i hle
      split at h
      · obtain ⟨verdict, -, h⟩ := Option.bind_eq_some_iff.mp h
        cases verdict with
        | lost =>
          obtain ⟨hbound, hrest⟩ := hnext _ h hzero
          refine ⟨hbound, fun i info' hi hin hacked => ?_⟩
          cases i with
          | zero =>
            obtain ⟨lost, heq, -, -⟩ := packetsLost_searchFrom hitems.tail h
            refine .inl ?_
            rw [heq, List.map_append, List.map_append]
            exact List.mem_append_left _ (List.mem_append_right _ (List.mem_singleton_self _))
          | succ i =>
            rw [show n + (i + 1) = n + 1 + i by omega] at hacked ⊢
            exact hrest i info' hi hin hacked
        | lostAt whenLost =>
          cases h
          have hfirst := hkept {found with lossDetectionTimeout := whenLost} hzero
          rw [hfirst]
          exact ⟨Nat.not_lt.mp hle, fun i _ _ _ _ => .inr ⟨by omega, Nat.le_add_right n i⟩⟩
        | inFlight =>
          have hfirst := leastInFlight_searchFrom h (by rw [hkept found hzero]; omega)
          rw [hkept found hzero] at hfirst
          rw [hfirst]
          exact ⟨Nat.not_lt.mp hle, fun i _ _ _ _ => .inr ⟨by omega, Nat.le_add_right n i⟩⟩
      · rename_i hout
        obtain ⟨hbound, hrest⟩ := hnext _ h hzero
        refine ⟨hbound, fun i info' hi hin hacked => ?_⟩
        cases i with
        | zero =>
          cases hi
          exact absurd hin hout
        | succ i =>
          rw [show n + (i + 1) = n + 1 + i by omega] at hacked ⊢
          exact hrest i info' hi hin hacked

/-! ### Packets in the order of their times -/

/-- Packets in flight were sent in the order of their numbers. -/
def InOrder (items : List (QuicTransmissionInfo φ)) : Prop :=
  items.Pairwise fun info info' =>
    info.inFlight = true → info'.inFlight = true → info.sentTime ≤ info'.sentTime

theorem outrun_mono {k : Nat} (hle : k ≤ n) (h : a.outrun search n = true) :
    a.outrun search k = true := by
  unfold outrun at h ⊢
  split at h
  · have h := of_decide_eq_true h
    exact decide_eq_true (by omega)
  · have h := of_decide_eq_true h
    exact decide_eq_true (by omega)
  · cases h

theorem judge_eq_inFlight {info : QuicTransmissionInfo φ} :
    a.judge search n info = some .inFlight ↔ a.outrun search n = false ∧ a.timed search = false ∧
      ∃ acked, search.unackedPackets.getTransmissionInfo search.largestNewlyAcked = some acked ∧
        acked.sentTime ≤ info.sentTime + search.rttStats.smoothedRtt := by
  unfold judge
  cases a.outrun search n <;> cases a.timed search
  · cases search.unackedPackets.getTransmissionInfo search.largestNewlyAcked <;> simp
  · simp
    split <;> simp
  · simp
  · simp

/-- Behind a packet that is neither lost nor waiting to be, none is lost. -/
theorem packetsLost_after {kept : QuicTransmissionInfo φ} {k : Nat} (hle : k ≤ n)
    (hkept : a.judge search k kept = some .inFlight)
    (hlater : ∀ info ∈ items, info.inFlight = true → kept.sentTime ≤ info.sentTime)
    (h : a.searchFrom search items n found = some found') :
    found'.packetsLost = found.packetsLost := by
  induction items generalizing n found with
  | nil =>
    cases h
    rfl
  | cons info rest ih =>
    obtain ⟨hinfo, hrest⟩ := List.forall_mem_cons.mp hlater
    have hnext := fun (found₁ : Found)
        (hrun : a.searchFrom search rest (n + 1) found₁ = some found') =>
      ih (Nat.le_succ_of_le hle) hrest hrun
    unfold searchFrom at h
    split at h
    · cases h
      rfl
    · split at h
      · rename_i hin
        obtain ⟨verdict, hverdict, h⟩ := Option.bind_eq_some_iff.mp h
        -- It came later than the one that is kept, and has a larger number.
        have hkeeps : a.judge search n info = some .inFlight := by
          obtain ⟨houtrun, htimed, acked, hacked, htime⟩ := judge_eq_inFlight.mp hkept
          refine judge_eq_inFlight.mpr ⟨?_, htimed, acked, hacked, ?_⟩
          · exact Bool.eq_false_iff.mpr fun h =>
              Bool.eq_false_iff.mp houtrun (outrun_mono hle h)
          · have := hinfo hin
            omega
        rw [hkeeps] at hverdict
        cases hverdict
        rw [hnext _ h, packetsLost_keep]
      · exact hnext _ h

/-- The packets that are lost are the oldest in flight. -/
theorem searchFrom_oldest (hitems : Follows search.unackedPackets items n) (horder : InOrder items)
    (h : a.searchFrom search items n found = some found') {lost : List LostPacket}
    (hlost : found'.packetsLost = found.packetsLost ++ lost) (i : Nat)
    {info : QuicTransmissionInfo φ} (hi : items[i]? = some info) (hin : info.inFlight = true)
    {p : LostPacket} (hp : p ∈ lost) (hle : n + i ≤ p.packetNumber) :
    n + i ∈ lost.map LostPacket.packetNumber := by
  induction items generalizing n found lost i with
  | nil => cases hi
  | cons first rest ih =>
    obtain ⟨hfirst, hrest⟩ := List.pairwise_cons.mp horder
    unfold searchFrom at h
    split at h
    · cases h
      rw [List.self_eq_append_right.mp hlost] at hp
      exact absurd hp List.not_mem_nil
    · split at h
      · rename_i hfirstIn
        obtain ⟨verdict, hverdict, h⟩ := Option.bind_eq_some_iff.mp h
        cases verdict with
        | lost =>
          obtain ⟨lost₁, heq, -, -⟩ := packetsLost_searchFrom hitems.tail h
          have hlost₁ : lost = ⟨n, first.bytesSent.toNat⟩ :: lost₁ := by
            rw [heq, List.append_assoc] at hlost
            exact (List.append_cancel_left hlost).symm
          subst hlost₁
          cases i with
          | zero => exact List.mem_cons_self ..
          | succ i =>
            rw [show n + (i + 1) = n + 1 + i by omega] at hle ⊢
            rcases List.mem_cons.mp hp with rfl | hp
            · have : n + 1 + i ≤ n := hle
              omega
            · exact List.mem_cons_of_mem _ (ih hitems.tail hrest h heq i hi hp hle)
        | lostAt whenLost =>
          cases h
          rw [packetsLost_keep] at hlost
          rw [List.self_eq_append_right.mp hlost] at hp
          exact absurd hp List.not_mem_nil
        | inFlight =>
          have hsame := packetsLost_after (Nat.le_succ n) hverdict
            (fun info' hinfo' hin' => hfirst info' hinfo' hfirstIn hin') h
          rw [packetsLost_keep] at hsame
          rw [hsame] at hlost
          rw [List.self_eq_append_right.mp hlost] at hp
          exact absurd hp List.not_mem_nil
      · rename_i hout
        cases i with
        | zero =>
          cases hi
          exact absurd hin hout
        | succ i =>
          rw [show n + (i + 1) = n + 1 + i by omega] at hle ⊢
          exact ih hitems.tail hrest h hlost i hi hp hle

end Search

/-! ### Where the search begins -/

/-- What is remembered of the last search, and which of it counts. -/
structure Places where
  largestLost : Nat
  leastInFlight : Nat
  fasterDetectLoss : Bool

/-- The number before which no packet should be in flight. -/
def Places.start (p : Places) : Nat :=
  if p.fasterDetectLoss then p.leastInFlight else p.largestLost + 1

def places (a : GeneralLossAlgorithm) : Places :=
  ⟨a.largestLost, a.leastInFlight, a.fasterDetectLoss⟩

def placed (p : Places) (a : GeneralLossAlgorithm) : GeneralLossAlgorithm :=
  {a with
    largestLost := p.largestLost
    leastInFlight := p.leastInFlight
    fasterDetectLoss := p.fasterDetectLoss}

/-- No packet before the remembered place is in flight. -/
structure Keeps (m : QuicUnackedPacketMap φ) (p : Places) : Prop where
  clear : ∀ n info, m.getTransmissionInfo n = some info → info.inFlight = true → p.start ≤ n
  sent : p.start ≤ m.largestSentPacket + 1

/-- The packets in flight were sent in the order of their numbers. -/
def Ordered (m : QuicUnackedPacketMap φ) : Prop :=
  ∀ n k info info', m.getTransmissionInfo n = some info → m.getTransmissionInfo k = some info' →
    n < k → info.inFlight = true → info'.inFlight = true → info.sentTime ≤ info'.sentTime

section Places
variable {a : GeneralLossAlgorithm} {search : Search φ} {n start : Nat} {found found' : Found}
  {info : QuicTransmissionInfo φ}

/-- The packet `n` among those from `start` on. -/
theorem getElem?_packetsFrom (hn : search.unackedPackets.getTransmissionInfo n = some info)
    (hstart : search.unackedPackets.getLeastUnacked ≤ start) (hle : start ≤ n) :
    (packetsFrom search start)[n - start]? = some info := by
  have hfirst : search.unackedPackets.unackedPackets.first ≤ n := (NumberedQueue.bounds hn).1
  rw [getTransmissionInfo, NumberedQueue.get?, if_pos hfirst] at hn
  rw [packetsFrom, List.getElem?_drop, ← hn]
  congr 1
  show start - search.unackedPackets.unackedPackets.first + (n - start) = _
  have : search.unackedPackets.unackedPackets.first ≤ start := hstart
  omega

theorem follows_items (search : Search φ) :
    Follows search.unackedPackets search.unackedPackets.unackedPackets.items
      search.unackedPackets.getLeastUnacked := by
  have hfollows : Follows search.unackedPackets
      (packetsFrom search search.unackedPackets.getLeastUnacked)
      search.unackedPackets.getLeastUnacked := follows_packetsFrom (Nat.le_refl _)
  rw [packetsFrom, Nat.sub_self, List.drop_zero] at hfollows
  exact hfollows

/-- The search may begin anywhere as long as no packet before is in flight. -/
theorem searchFrom_start (hstart : search.unackedPackets.getLeastUnacked ≤ start)
    (hclear : ∀ n info, search.unackedPackets.getTransmissionInfo n = some info →
      info.inFlight = true → start ≤ n) (found : Found) :
    a.searchFrom search (packetsFrom search start) start found =
      a.searchFrom search search.unackedPackets.unackedPackets.items
        search.unackedPackets.getLeastUnacked found := by
  have hout : ∀ (i : Nat) (info : QuicTransmissionInfo φ),
      i < start - search.unackedPackets.getLeastUnacked →
      search.unackedPackets.unackedPackets.items[i]? = some info → info.inFlight = false := by
    intro i info hi hget
    refine Bool.eq_false_iff.mpr fun hin => ?_
    have := hclear _ info (follows_items search i info hget) hin
    omega
  rw [packetsFrom, searchFrom_drop hout, Nat.add_sub_cancel' hstart]

theorem clear_searchStart (h : Keeps search.unackedPackets a.places)
    (hn : search.unackedPackets.getTransmissionInfo n = some info) (hin : info.inFlight = true) :
    a.searchStart search ≤ n := by
  have hplace := h.clear n info hn hin
  have hleast : search.unackedPackets.getLeastUnacked ≤ n := (NumberedQueue.bounds hn).1
  unfold Places.start places at hplace
  unfold searchStart
  dsimp only at hplace ⊢
  split at hplace
  · rename_i hfaster
    rw [if_pos hfaster]
    split <;> assumption
  · rename_i hfaster
    rw [if_neg hfaster]
    split <;> assumption

/-- Packets in flight from a number on are in order. -/
theorem Ordered.inOrder (h : Ordered search.unackedPackets)
    (hstart : search.unackedPackets.getLeastUnacked ≤ start) :
    InOrder (packetsFrom search start) := by
  have hfollows := follows_packetsFrom hstart
  refine List.pairwise_iff_getElem.mpr fun i j hi hj hlt hin hin' => ?_
  exact h (start + i) (start + j) _ _ (hfollows i _ (List.getElem?_eq_getElem hi))
    (hfollows j _ (List.getElem?_eq_getElem hj)) (by omega) hin hin'

end Places

/-! ### All packets -/

/-- A search of all packets. -/
def searchAll (a : GeneralLossAlgorithm) (search : Search φ) : Option Found :=
  a.searchFrom search search.unackedPackets.unackedPackets.items
    search.unackedPackets.getLeastUnacked ⟨[], 0, 0⟩

/-- The result of a search, but for the places. -/
def concluded (a : GeneralLossAlgorithm) (search : Search φ) (found : Found) :
    GeneralLossAlgorithm :=
  {a with
    lossDetectionTimeout := found.lossDetectionTimeout
    largestPreviouslyAcked := search.largestNewlyAcked}

theorem searchFrom_placed (a : GeneralLossAlgorithm) (p : Places) (search : Search φ)
    (items : List (QuicTransmissionInfo φ)) (n : Nat) (found : Found) :
    (a.placed p).searchFrom search items n found = a.searchFrom search items n found := by
  induction items generalizing n found with
  | nil => rfl
  | cons info rest ih =>
    rw [searchFrom, searchFrom,
      show (a.placed p).judge search n info = a.judge search n info from rfl]
    simp only [ih]

/-- Once the lost packets have left the flight, a place is kept. -/
def KeepsAfter (m : QuicUnackedPacketMap φ) (lost : List LostPacket) (p : Places) : Prop :=
  ∀ m', Changed (leave (lost.map LostPacket.packetNumber)) m m' → Keeps m' p

section All
variable {a : GeneralLossAlgorithm} {search : Search φ} {found : Found}
  {packetsAcked : List AckedPacket}

theorem keepsAfter {m : QuicUnackedPacketMap φ} {lost : List LostPacket} {p : Places}
    (hclear : ∀ n info, m.getTransmissionInfo n = some info → info.inFlight = true →
      n ∉ lost.map LostPacket.packetNumber → p.start ≤ n)
    (hsent : p.start ≤ m.largestSentPacket + 1) : KeepsAfter m lost p := by
  intro m' hchanged
  refine ⟨fun n info' hn hin => ?_, by rw [hchanged.largestSent]; exact hsent⟩
  rw [hchanged.infos] at hn
  obtain ⟨info, hinfo, rfl⟩ := Option.map_eq_some_iff.mp hn
  unfold leave at hin
  split at hin
  · cases hin
  · rename_i hnot
    exact hclear n info hinfo hin hnot

/-- What `searchLosses` needs to know of the packets. -/
structure Searchable (search : Search φ) : Prop where
  tracks : search.unackedPackets.Tracks
  ordered : Ordered search.unackedPackets
  acked : search.largestNewlyAcked ≤ search.unackedPackets.largestSentPacket

theorem searchLosses_faster (hsearch : Searchable search) (hfaster : a.fasterDetectLoss = true)
    (hkeeps : Keeps search.unackedPackets a.places) (hfound : a.searchAll search = some found) :
    ∃ p, a.searchLosses search =
        some ((a.concluded search found).placed p, found.packetsLost) ∧
      KeepsAfter search.unackedPackets found.packetsLost p := by
  have hleast := least_le_searchStart a search
  have hrun := searchFrom_start (a := a) hleast (fun _ _ => clear_searchStart hkeeps) ⟨[], 0, 0⟩
  rw [show a.searchFrom search _ _ _ = some found from hfound] at hrun
  obtain ⟨hbound, hpassed⟩ := searchFrom_inFlight (follows_packetsFrom hleast) hrun
    (Nat.le_trans hsearch.tracks.start hleast) rfl
  refine ⟨⟨(found.packetsLost.getLast?.map LostPacket.packetNumber).getD a.largestLost,
    if found.leastInFlight = 0 then search.largestNewlyAcked + 1 else found.leastInFlight,
    a.fasterDetectLoss⟩, ?_, keepsAfter (fun n info hn hin hnot => ?_) ?_⟩
  · rw [searchLosses, hfaster]
    simp only [if_true, hrun, Option.bind_eq_bind, Option.bind_some]
    rfl
  · have hstart := clear_searchStart hkeeps hn hin
    have hpassed := hpassed _ info (getElem?_packetsFrom hn hleast hstart) hin
    rw [Nat.add_sub_cancel' hstart] at hpassed
    unfold Places.start
    rw [if_pos hfaster]
    dsimp only
    by_cases hle : n ≤ search.largestNewlyAcked
    · have hfirst := (hpassed hle).resolve_left hnot
      rw [if_neg hfirst.1]
      exact hfirst.2
    · split <;> omega
  · have := hsearch.acked
    unfold Places.start
    rw [if_pos hfaster]
    dsimp only
    split <;> omega

theorem searchLosses_plain (hsearch : Searchable search) (hfaster : a.fasterDetectLoss = false)
    (hkeeps : Keeps search.unackedPackets a.places) (hfound : a.searchAll search = some found) :
    ∃ p, a.searchLosses search =
        some ((a.concluded search found).placed p, found.packetsLost) ∧
      KeepsAfter search.unackedPackets found.packetsLost p := by
  have hleast := least_le_searchStart a search
  have hrun := searchFrom_start (a := a) hleast (fun _ _ => clear_searchStart hkeeps) ⟨[], 0, 0⟩
  rw [show a.searchFrom search _ _ _ = some found from hfound] at hrun
  obtain ⟨lost, hlost, hflight, -⟩ := packetsLost_searchFrom (follows_packetsFrom hleast) hrun
  have hlost : found.packetsLost = lost := hlost
  obtain ⟨leastInFlight, hrun'⟩ := searchFrom_leastInFlight hrun a.leastInFlight
  refine ⟨⟨(found.packetsLost.getLast?.map LostPacket.packetNumber).getD a.largestLost,
    if leastInFlight = 0 then search.largestNewlyAcked + 1 else leastInFlight,
    a.fasterDetectLoss⟩, ?_, keepsAfter (fun n info hn hin hnot => ?_) ?_⟩
  · rw [searchLosses, hfaster]
    simp only [Bool.false_eq_true, if_false, hrun', Option.bind_eq_bind, Option.bind_some]
    rfl
  · have hstart := clear_searchStart hkeeps hn hin
    have holdest := fun p => searchFrom_oldest (p := p) (follows_packetsFrom hleast)
      (hsearch.ordered.inOrder hleast) hrun rfl _ (getElem?_packetsFrom hn hleast hstart) hin
    rw [Nat.add_sub_cancel' hstart] at holdest
    have hbefore := hkeeps.clear n info hn hin
    unfold Places.start places at hbefore
    rw [hfaster] at hbefore
    unfold Places.start
    rw [hfaster]
    cases hlast : found.packetsLost.getLast? with
    | none => exact hbefore
    | some p =>
      refine Nat.succ_le_of_lt (Nat.lt_of_not_le fun hle => hnot ?_)
      exact holdest p (List.mem_of_getLast? hlast) hle
  · have hbefore := hkeeps.sent
    unfold Places.start places at hbefore
    rw [hfaster] at hbefore
    unfold Places.start
    rw [hfaster]
    cases hlast : found.packetsLost.getLast? with
    | none => exact hbefore
    | some p =>
      obtain ⟨info, hinfo, -⟩ := hflight.inFlight p (hlost ▸ List.mem_of_getLast? hlast)
      exact Nat.succ_le_succ (hsearch.tracks.bounds hinfo).2

theorem searchLosses_eq (hsearch : Searchable search)
    (hkeeps : Keeps search.unackedPackets a.places) (hfound : a.searchAll search = some found) :
    ∃ p, a.searchLosses search =
        some ((a.concluded search found).placed p, found.packetsLost) ∧
      KeepsAfter search.unackedPackets found.packetsLost p := by
  cases hfaster : a.fasterDetectLoss with
  | true => exact searchLosses_faster hsearch hfaster hkeeps hfound
  | false => exact searchLosses_plain hsearch hfaster hkeeps hfound

/-! ### The acked packets -/

/-- The acked packets, in ascending order, are out of flight and end with the one the detection
goes by. -/
structure Acks (search : Search φ) (packetsAcked : List AckedPacket) : Prop where
  sorted : (packetsAcked.map AckedPacket.packetNumber).Pairwise (· < ·)
  bounded : ∀ n ∈ packetsAcked.map AckedPacket.packetNumber, n ≤ search.largestNewlyAcked
  settled : ∀ n ∈ packetsAcked.map AckedPacket.packetNumber, ∀ info,
    search.unackedPackets.getTransmissionInfo n = some info → info.inFlight = false

/-- The hole is behind the acked packets it is above of. -/
theorem mem_of_lt_firstHole {n leastInFlight : Nat} (hle : leastInFlight ≤ n)
    (hlt : n < firstHole packetsAcked leastInFlight) :
    n ∈ packetsAcked.map AckedPacket.packetNumber := by
  induction packetsAcked generalizing leastInFlight with
  | nil => exact absurd (Nat.lt_of_le_of_lt hle hlt) (Nat.lt_irrefl _)
  | cons acked rest ih =>
    rw [firstHole] at hlt
    split at hlt
    · exact absurd (Nat.lt_of_le_of_lt hle hlt) (Nat.lt_irrefl _)
    · rename_i heq
      have heq := not_not.mp heq
      rcases Nat.lt_or_eq_of_le hle with hgt | rfl
      · exact List.mem_cons_of_mem _ (ih hgt hlt)
      · rw [List.map_cons, heq]
        exact List.mem_cons_self ..

/-- As many ascending numbers as fit into a range fill it. -/
theorem mem_of_filled {numbers : List Nat} (hsorted : numbers.Pairwise (· < ·)) {first n : Nat}
    (hbounds : ∀ k ∈ numbers, first ≤ k ∧ k < first + numbers.length) (hle : first ≤ n)
    (hlt : n < first + numbers.length) : n ∈ numbers := by
  induction numbers generalizing first n with
  | nil => exact absurd hlt (Nat.not_lt.mpr hle)
  | cons k rest ih =>
    obtain ⟨hless, hrest⟩ := List.pairwise_cons.mp hsorted
    obtain ⟨⟨hk, hklt⟩, hbounds⟩ := List.forall_mem_cons.mp hbounds
    rw [List.length_cons] at hlt hbounds hklt
    have hfill : ∀ {n}, first + 1 ≤ n → n < first + 1 + rest.length → n ∈ rest := by
      intro n hle hlt
      refine ih hrest (fun k' hk' => ?_) hle hlt
      have := hless k' hk'
      have := hbounds k' hk'
      omega
    rcases Nat.lt_or_eq_of_le hle with hgt | rfl
    · exact List.mem_cons_of_mem _ (hfill hgt (by omega))
    · -- The first number is below the next one, which is in the rest, if there is one.
      have hfirst : k = first := by
        cases hlength : rest.length with
        | zero => omega
        | succ l =>
          have := hless _ (hfill (Nat.le_refl (first + 1)) (by omega))
          omega
      rw [hfirst]
      exact List.mem_cons_self ..

/-- Where no packet up to the largest newly acked one is in flight, a search finds nothing. -/
theorem searchFrom_nothing {items : List (QuicTransmissionInfo φ)} {n : Nat}
    (hitems : Follows search.unackedPackets items n)
    (hout : ∀ n info, search.unackedPackets.getTransmissionInfo n = some info →
      info.inFlight = true → search.largestNewlyAcked < n) :
    a.searchFrom search items n found = some found := by
  induction items generalizing n with
  | nil => rfl
  | cons info rest ih =>
    rw [searchFrom]
    split
    · rfl
    · rename_i hle
      split
      · rename_i hin
        exact absurd (hout n info hitems.head hin) hle
      · exact ih hitems.tail

/-- Where the acked packets leave no hole, no packet up to the last of them is in flight. -/
theorem out_of_filled (hacks : Acks search packetsAcked) {leastInFlight : Nat}
    (hclear : ∀ n info, search.unackedPackets.getTransmissionInfo n = some info →
      info.inFlight = true → leastInFlight ≤ n) {front : AckedPacket} {rest : List AckedPacket}
    (hlist : packetsAcked = front :: rest) (hfront : front.packetNumber = leastInFlight)
    (hfilled : leastInFlight + packetsAcked.length - 1 = search.largestNewlyAcked) {n : Nat}
    {info : QuicTransmissionInfo φ}
    (hn : search.unackedPackets.getTransmissionInfo n = some info) (hin : info.inFlight = true) :
    search.largestNewlyAcked < n := by
  refine Nat.lt_of_not_le fun hle => ?_
  have hlength : 1 ≤ packetsAcked.length := by
    rw [hlist, List.length_cons]
    omega
  have hfirst : ∀ k ∈ packetsAcked.map AckedPacket.packetNumber, leastInFlight ≤ k := by
    have hsorted := hacks.sorted
    rw [hlist, List.map_cons, hfront] at hsorted ⊢
    exact List.forall_mem_cons.mpr
      ⟨Nat.le_refl _, fun k hk => Nat.le_of_lt (List.rel_of_pairwise_cons hsorted hk)⟩
  have hmem : n ∈ packetsAcked.map AckedPacket.packetNumber := by
    refine mem_of_filled hacks.sorted (fun k hk => ?_) (hclear n info hn hin) ?_
    · have := hacks.bounded k hk
      rw [List.length_map]
      exact ⟨hfirst k hk, by omega⟩
    · rw [List.length_map]
      omega
  rw [hacks.settled n hmem info hn] at hin
  cases hin

/-- **Whatever is remembered, the detection finds what a search of all packets finds.** -/
theorem detectLosses_eq (hsearch : Searchable search) (hacks : Acks search packetsAcked)
    (hkeeps : Keeps search.unackedPackets a.places) (hfound : a.searchAll search = some found) :
    ∃ p, a.detectLosses search packetsAcked =
        some ((a.concluded search found).placed p, found.packetsLost) ∧
      KeepsAfter search.unackedPackets found.packetsLost p := by
  have hplain := searchLosses_eq hsearch hkeeps hfound
  unfold detectLosses
  split
  · exact hplain
  · rename_i front rest
    split
    · rename_i hfaster
      have hclear := hkeeps.clear
      have hsent := hkeeps.sent
      unfold Places.start places at hclear hsent
      simp only [hfaster.1, if_true] at hclear hsent
      split
      · rename_i hfilled
        have hout : ∀ n info, search.unackedPackets.getTransmissionInfo n = some info →
            info.inFlight = true → search.largestNewlyAcked < n :=
          fun n info => out_of_filled hacks hclear rfl hfaster.2 hfilled
        rw [searchAll, searchFrom_nothing (follows_items search) hout] at hfound
        cases hfound
        refine ⟨⟨a.largestLost, search.largestNewlyAcked + 1, a.fasterDetectLoss⟩, rfl,
          keepsAfter (fun n info hn hin _ => ?_) ?_⟩
        · unfold Places.start
          rw [if_pos hfaster.1]
          exact hout n info hn hin
        · unfold Places.start
          rw [if_pos hfaster.1]
          exact Nat.succ_le_succ hsearch.acked
      · refine searchLosses_eq (a := {a with leastInFlight := _}) hsearch ⟨?_, ?_⟩ ?_
        · intro n info hn hin
          unfold Places.start places
          rw [if_pos hfaster.1]
          refine Nat.le_of_not_lt fun hlt => ?_
          rw [hacks.settled n (mem_of_lt_firstHole (hclear n info hn hin) hlt) info hn] at hin
          cases hin
        · unfold Places.start places
          rw [if_pos hfaster.1]
          refine Nat.le_of_not_lt fun hlt => ?_
          have := hacks.bounded _ (mem_of_lt_firstHole hsent hlt)
          have := hsearch.acked
          omega
        · rw [← hfound]
          exact searchFrom_placed a ⟨a.largestLost, _, a.fasterDetectLoss⟩ search _ _ _
    · exact hplain

/-- Two detections that differ in what they remember find the same. -/
theorem detectLosses_placed (hsearch : Searchable search) (hacks : Acks search packetsAcked)
    (hkeeps : Keeps search.unackedPackets a.places) {q : Places}
    (hq : Keeps search.unackedPackets q) :
    ∃ a' q' lost, a.detectLosses search packetsAcked = some (a', lost) ∧
      (a.placed q).detectLosses search packetsAcked = some (a'.placed q', lost) ∧
      KeepsAfter search.unackedPackets lost a'.places ∧
      KeepsAfter search.unackedPackets lost q' := by
  obtain ⟨found, hfound⟩ : ∃ found, a.searchAll search = some found :=
    exists_searchFrom fun hle => hsearch.tracks.exists_info hle hsearch.acked
  obtain ⟨p, hrun, hp⟩ := detectLosses_eq hsearch hacks hkeeps hfound
  obtain ⟨q', hrun', hq'⟩ := detectLosses_eq (a := a.placed q) hsearch hacks hq
    ((searchFrom_placed a q search _ _ _).trans hfound)
  exact ⟨_, q', _, hrun, hrun', hp, hq'⟩

end All
end GeneralLossAlgorithm
end CongestionResponse.SentPackets
