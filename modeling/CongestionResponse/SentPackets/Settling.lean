import CongestionResponse.SentPackets.Manager

/-! What the manager does to one packet: it is acked, it is lost, or its data is sent again.

Each step has one lemma, from which everything else about it follows: that it has a result as
long as the packet is tracked, what becomes of every packet, and which bytes leave the flight. -/
namespace CongestionResponse.SentPackets
open Quic Framer

variable {φ σ : Type}

namespace QuicUnackedPacketMap
variable {m : QuicUnackedPacketMap φ} {n : Nat} {info : QuicTransmissionInfo φ}

/-- There are as many links to follow as packets at most. -/
theorem Tracks.length_items (h : m.Tracks) (hn : m.getLeastUnacked ≤ n) :
    m.largestSentPacket + 1 - n ≤ m.unackedPackets.items.length := by
  have hspan := h.span
  unfold Lib.NumberedQueue.next at hspan
  unfold getLeastUnacked at hn
  omega

theorem Tracks.exists_newestRetransmission (h : m.Tracks)
    (hn : m.getTransmissionInfo n = some info) :
    ∃ newest, m.getNewestRetransmission n = some newest ∧
      Relation.ReflTransGen m.Linked n newest ∧ n ≤ newest ∧ newest ≤ m.largestSentPacket :=
  h.exists_newest (h.bounds hn) (h.length_items (h.bounds hn).1)

/-- A packet that is not linked is its own newest transmission. -/
theorem Tracks.newest_eq_self_iff (h : m.Tracks) (hn : m.getTransmissionInfo n = some info)
    {newest : Nat} (hnewest : m.getNewestRetransmission n = some newest) :
    newest = n ↔ info.retransmission = 0 := by
  have hbounds := h.bounds hn
  have hlength := h.length_items hbounds.1
  obtain ⟨rounds, hrounds⟩ : ∃ rounds, m.unackedPackets.items.length = rounds + 1 :=
    Nat.exists_eq_succ_of_ne_zero (by omega)
  rw [getNewestRetransmission, hrounds, newestRetransmissionFrom_succ rounds hn] at hnewest
  split at hnewest
  · rename_i hne
    obtain ⟨hlt, hle, -⟩ := (h.sound n info hn).link hne
    have hnext : m.getLeastUnacked ≤ info.retransmission ∧
        info.retransmission ≤ m.largestSentPacket := ⟨by omega, hle⟩
    have hleft : m.largestSentPacket + 1 - info.retransmission ≤ rounds := by omega
    obtain ⟨newest', hfound, -, hge, -⟩ := h.exists_newest hnext hleft
    have := Option.some.inj (hfound.symm.trans hnewest)
    exact iff_of_false (by omega) hne
  · rename_i hzero
    exact iff_of_true (Option.some.inj hnewest).symm (not_not.mp hzero)

/-- What becomes of the packet `k` when the packet `n` is acked, whose data is in `newest`. -/
def handled (cut : Nat → Bool) (newest n k : Nat) (info : QuicTransmissionInfo φ) :
    QuicTransmissionInfo φ :=
  {info with
    inFlight := if k = n then false else info.inFlight
    state := if k = n then .acked else info.state
    retransmission := if cut k then 0 else info.retransmission
    retransmittableFrames := if k = newest then [] else info.retransmittableFrames}

/-- Where the packet itself was acked, nothing is left to be sent again. -/
theorem sound_handled (h : m.Tracks) (hn : m.getTransmissionInfo n = some info) {newest : Nat}
    (hnewest : m.getNewestRetransmission n = some newest) {cut : Nat → Bool}
    (hcut : cut n = true ∨ newest = n) {k : Nat} {info' : QuicTransmissionInfo φ}
    (hk : m.getTransmissionInfo k = some info') :
    Sound m.largestSentPacket k (handled cut newest n k info') := by
  have hsound := h.sound k info' hk
  refine ⟨fun hne => ?_, fun hacked => ?_⟩
  · have hcutk : cut k ≠ true := fun hcutk => hne (if_pos hcutk)
    have hlink : (handled cut newest n k info').retransmission = info'.retransmission :=
      if_neg hcutk
    rw [hlink] at hne ⊢
    obtain ⟨hlt, hle, hframes⟩ := hsound.link hne
    refine ⟨hlt, hle, ?_⟩
    show (if k = newest then [] else info'.retransmittableFrames) = []
    rw [hframes, ite_self]
  · by_cases hkn : k = n
    · subst hkn
      obtain rfl := Option.some.inj (hn.symm.trans hk)
      have hself := h.newest_eq_self_iff hn hnewest
      refine ⟨if_pos rfl, ?_, ?_⟩
      · show (if cut k then 0 else info.retransmission) = 0
        split
        · rfl
        · rename_i hcutk
          exact hself.mp (hcut.resolve_left hcutk)
      · show (if k = newest then [] else info.retransmittableFrames) = []
        split
        · rfl
        · rename_i hne
          exact (hsound.link fun hzero => hne (hself.mpr hzero).symm).2.2
    · have hstate : (handled cut newest n k info').state = info'.state := if_neg hkn
      rw [hstate] at hacked
      obtain ⟨hin, hlink, hframes⟩ := hsound.settled hacked
      refine ⟨?_, ?_, ?_⟩
      · show (if k = n then false else info'.inFlight) = false
        rw [hin, ite_self]
      · show (if cut k then 0 else info'.retransmission) = 0
        rw [hlink, ite_self]
      · show (if k = newest then [] else info'.retransmittableFrames) = []
        rw [hframes, ite_self]

/-- The part of `MarkPacketHandled` that changes the packets. -/
theorem Tracks.exists_handled (h : m.Tracks) (hn : m.getTransmissionInfo n = some info)
    {newest : Nat} (hnewest : m.getNewestRetransmission n = some newest) :
    ∃ cut forgotten, (m.removeFromInFlight n).removeRetransmittability n = some forgotten ∧
      Changed (handled cut newest n) m (forgotten.modify n QuicSentPacketManager.settled) ∧
      (forgotten.modify n QuicSentPacketManager.settled).Tracks ∧
      (forgotten.modify n QuicSentPacketManager.settled).inFlightBytes + flightWeight info =
        m.inFlightBytes := by
  have hremoved := changed_removeFromInFlight hn
  have htracks := h.removeFromInFlight hn
  -- The links are those before, so the same newest transmission is found.
  have hlinks : SameLinks n m (m.removeFromInFlight n) := by
    intro k _
    rw [hremoved.infos, Option.map_map]
    congr 1
    funext info'
    show (atNumber n outOfFlight k info').retransmission = info'.retransmission
    unfold atNumber
    split <;> rfl
  have hbounds : (m.removeFromInFlight n).getLeastUnacked ≤ n ∧
      n ≤ (m.removeFromInFlight n).largestSentPacket := by
    rw [hremoved.least, hremoved.largestSent]
    exact h.bounds hn
  have hnewest' := hnewest
  rw [getNewestRetransmission, ← newestRetransmissionFrom_congr h _ hlinks, ← hremoved.length]
    at hnewest'
  obtain ⟨cut, forgotten, hforgotten, hchanged, hbytes, htotal, -, hcut⟩ :=
    htracks.exists_forgotten hbounds hnewest'
  have hall : Changed (handled cut newest n) m
      (forgotten.modify n QuicSentPacketManager.settled) := by
    refine ((hremoved.trans hchanged).trans (changed_modify forgotten n _)).congr
      fun k info' _ => ?_
    show atNumber n QuicSentPacketManager.settled k
      (QuicUnackedPacketMap.forgotten cut newest k (atNumber n outOfFlight k info')) = _
    unfold atNumber
    by_cases hk : k = n
    · simp [hk, handled, QuicUnackedPacketMap.forgotten, outOfFlight,
        QuicSentPacketManager.settled]
    · simp [hk, handled, QuicUnackedPacketMap.forgotten]
  obtain ⟨after, hafter⟩ : ∃ after, forgotten.getTransmissionInfo n = some after := by
    rw [hchanged.infos, hremoved.infos, hn]
    exact ⟨_, rfl⟩
  have hweight : (forgotten.modify n QuicSentPacketManager.settled).inFlightBytes =
      (m.removeFromInFlight n).inFlightBytes := by
    rw [inFlightBytes_modify hafter, htotal]
    rfl
  refine ⟨cut, forgotten, hforgotten, hall, hall.tracks h ?_ fun k info' hk _ =>
    sound_handled h hn hnewest hcut hk, ?_⟩
  · rw [hweight]
    exact hbytes.trans htracks.flight
  · rw [hweight]
    exact inFlightBytes_removeFromInFlight hn

end QuicUnackedPacketMap

/-! ### Tuning the loss detection -/

/-- Only what `SpuriousRetransmitDetected` adapts has changed. -/
def GeneralLossAlgorithm.Tuned (a a' : GeneralLossAlgorithm) : Prop :=
  a' = {a with
    reorderingShift := a'.reorderingShift
    largestSentOnSpuriousRetransmit := a'.largestSentOnSpuriousRetransmit}

theorem GeneralLossAlgorithm.Tuned.refl (a : GeneralLossAlgorithm) : a.Tuned a := rfl

theorem GeneralLossAlgorithm.Tuned.trans {a a' a'' : GeneralLossAlgorithm} (h : a.Tuned a')
    (h' : a'.Tuned a'') : a.Tuned a'' := by
  unfold Tuned at h h' ⊢
  rw [h] at h'
  exact h'

theorem GeneralLossAlgorithm.exists_spuriousRetransmitDetected {fix : Bool}
    {a : GeneralLossAlgorithm} {m : QuicUnackedPacketMap φ} {time : Int} {rttStats : RttStats}
    {n : Nat} {info : QuicTransmissionInfo φ} (hn : m.getTransmissionInfo n = some info) :
    ∃ a', a.spuriousRetransmitDetected fix m time rttStats n = some a' ∧ a.Tuned a' := by
  unfold spuriousRetransmitDetected
  split
  · exact ⟨a, rfl, .refl a⟩
  · rw [hn]
    simp only [Option.bind_eq_bind, Option.bind_some]
    split
    · exact ⟨_, rfl, rfl⟩
    · split
      · exact ⟨a, rfl, .refl a⟩
      · exact ⟨_, rfl, rfl⟩

namespace QuicSentPacketManager
open QuicUnackedPacketMap
variable {c : Config φ σ} {s : QuicSentPacketManager φ σ} {n : Nat} {info : QuicTransmissionInfo φ}

/-! ### A packet is acked -/

theorem exists_recordSpuriousRetransmissions (h : s.unackedPackets.Tracks) (now : Int)
    (hn : s.unackedPackets.getTransmissionInfo n = some info) (hlink : info.retransmission ≠ 0) :
    ∃ a, s.recordSpuriousRetransmissions c now info = some a ∧ s.lossAlgorithm.Tuned a := by
  obtain ⟨hlt, hle, -⟩ := (h.sound n info hn).link hlink
  obtain ⟨next, hnext⟩ := h.exists_info (n := info.retransmission)
    (Nat.le_trans (h.bounds hn).1 (Nat.le_of_lt hlt)) hle
  rw [recordSpuriousRetransmissions, hnext]
  simp only [Option.bind_eq_bind, Option.bind_some]
  split
  · exact GeneralLossAlgorithm.exists_spuriousRetransmitDetected hnext
  · exact ⟨_, rfl, .refl _⟩

/-- What `MarkPacketHandled` does. -/
structure Handled (s s' : QuicSentPacketManager φ σ) (n : Nat) (info : QuicTransmissionInfo φ)
    (newest : Nat) (cut : Nat → Bool) : Prop where
  eq : s' = {s with
    pendingRetransmissions := erasePending newest s.pendingRetransmissions
    lossAlgorithm := s'.lossAlgorithm
    unackedPackets := s'.unackedPackets}
  tuned : s.lossAlgorithm.Tuned s'.lossAlgorithm
  tracks : s'.unackedPackets.Tracks
  changed : Changed (handled cut newest n) s.unackedPackets s'.unackedPackets
  bytes : s'.unackedPackets.inFlightBytes + flightWeight info = s.unackedPackets.inFlightBytes
  leads : Relation.ReflTransGen s.unackedPackets.Linked n newest

theorem exists_markPacketHandled (h : s.unackedPackets.Tracks) (now : Int)
    (hn : s.unackedPackets.getTransmissionInfo n = some info) :
    ∃ s' newest cut, s.markPacketHandled c now n = some s' ∧ Handled s s' n info newest cut := by
  obtain ⟨newest, hnewest, hleads, -, -⟩ := h.exists_newestRetransmission hn
  obtain ⟨cut, forgotten, hforgotten, hchanged, htracks, hbytes⟩ := h.exists_handled hn hnewest
  have hself := h.newest_eq_self_iff hn hnewest
  obtain ⟨a, ha, htuned⟩ : ∃ a, s.checkSpurious c now n newest info = some a ∧
      s.lossAlgorithm.Tuned a := by
    unfold checkSpurious
    split
    · exact ⟨_, rfl, .refl _⟩
    · rename_i hne
      exact exists_recordSpuriousRetransmissions h now hn fun hzero => hne (hself.mpr hzero)
  refine ⟨{s with
    pendingRetransmissions := erasePending newest s.pendingRetransmissions
    lossAlgorithm := a
    unackedPackets := forgotten.modify n settled}, newest, cut, ?_, rfl, htuned, htracks, hchanged,
    hbytes, hleads⟩
  rw [markPacketHandled, hn, hnewest]
  simp only [Option.bind_eq_bind, Option.bind_some, ha, hforgotten]
  rfl

/-! ### A packet is lost -/

def withPackets (s : QuicSentPacketManager φ σ) (unackedPackets : QuicUnackedPacketMap φ)
    (pending : List (Nat × TransmissionType)) : QuicSentPacketManager φ σ :=
  {s with unackedPackets := unackedPackets, pendingRetransmissions := pending}

/-- A lost packet leaves the flight, and its data waits to be sent again. The flag
`quic_fix_mark_for_loss_retransmission` makes no difference. -/
theorem handleLoss_eq (c : Config φ σ) (hn : s.unackedPackets.getTransmissionInfo n = some info)
    (bytes : Nat) :
    s.handleLoss c ⟨n, bytes⟩ = some (s.withPackets (s.unackedPackets.removeFromInFlight n)
      (if hasRetransmittableFrames info then
        addPending n .lossRetransmission s.pendingRetransmissions
      else s.pendingRetransmissions)) := by
  have hleaves : retransmissionLeavesBytesInFlight .lossRetransmission = false := rfl
  cases hflag : c.fixMarkForLossRetransmission <;> cases hframes : hasRetransmittableFrames info <;>
    simp [handleLoss, markForRetransmission, hn, hflag, hframes, hleaves, withPackets, setUnacked]

/-- A packet with data that stays in flight waits to be sent again. -/
theorem markForRetransmission_eq (c : Config φ σ)
    (hn : s.unackedPackets.getTransmissionInfo n = some info)
    (hframes : hasRetransmittableFrames info)
    {transmissionType : TransmissionType}
    (hleaves : retransmissionLeavesBytesInFlight transmissionType = true) :
    s.markForRetransmission c n transmissionType = some (s.withPackets s.unackedPackets
      (addPending n transmissionType s.pendingRetransmissions)) := by
  simp [markForRetransmission, hn, hframes, hleaves, withPackets]

/-! ### Pending packets -/

theorem mem_erasePending {pending : List (Nat × TransmissionType)}
    {entry : Nat × TransmissionType} :
    entry ∈ erasePending n pending ↔ entry ∈ pending ∧ entry.1 ≠ n := by
  simp [erasePending]

theorem mem_addPending_fst {pending : List (Nat × TransmissionType)} {k : Nat}
    {transmissionType : TransmissionType} :
    k ∈ (addPending n transmissionType pending).map Prod.fst ↔
      k ∈ pending.map Prod.fst ∨ k = n := by
  unfold addPending
  split
  · rename_i hany
    refine (or_iff_left_of_imp ?_).symm
    rintro rfl
    obtain ⟨entry, hentry, heq⟩ := List.any_eq_true.mp hany
    exact List.mem_map.mpr ⟨entry, hentry, beq_iff_eq.mp heq⟩
  · rw [List.map_append, List.mem_append, List.map_singleton, List.mem_singleton]

theorem nodup_addPending {pending : List (Nat × TransmissionType)}
    {transmissionType : TransmissionType} (h : (pending.map Prod.fst).Nodup) :
    ((addPending n transmissionType pending).map Prod.fst).Nodup := by
  unfold addPending
  split
  · exact h
  · rename_i hany
    rw [List.map_append, List.map_singleton, List.nodup_append]
    refine ⟨h, List.pairwise_singleton _ _, ?_⟩
    intro k hk k' hk' heq
    obtain ⟨entry, hentry, rfl⟩ := List.mem_map.mp hk
    rw [List.mem_singleton.mp hk'] at heq
    exact hany (List.any_eq_true.mpr ⟨entry, hentry, beq_iff_eq.mpr heq⟩)

theorem nodup_erasePending {pending : List (Nat × TransmissionType)}
    (h : (pending.map Prod.fst).Nodup) : ((erasePending n pending).map Prod.fst).Nodup :=
  h.sublist (List.filter_sublist.map Prod.fst)

end QuicSentPacketManager
end CongestionResponse.SentPackets
