import CongestionResponse.SentPackets.UnackedMap
import Mathlib.Logic.Relation

/-! What every operation of `QuicUnackedPacketMap` keeps.

`Tracks` is the invariant: the deque holds a slot for every number from `least_unacked_` to the
largest sent one, the bytes in flight are those of the packets in flight, and links go up and
start at packets without frames. So following links stays inside the deque and ends. Each
operation has one lemma that says what it does to the packets. -/
namespace CongestionResponse.SentPackets
open Lib Quic

variable {φ : Type}

/-- What holds of the packet with number `n`. -/
structure Sound (largestSent n : Nat) (info : QuicTransmissionInfo φ) : Prop where
  link : info.retransmission ≠ 0 →
    n < info.retransmission ∧ info.retransmission ≤ largestSent ∧ info.retransmittableFrames = []
  settled : info.state = .acked →
    info.inFlight = false ∧ info.retransmission = 0 ∧ info.retransmittableFrames = []

theorem Sound.mono {largestSent largestSent' n : Nat} {info : QuicTransmissionInfo φ}
    (h : Sound largestSent n info) (hle : largestSent ≤ largestSent') :
    Sound largestSent' n info := by
  refine ⟨fun hne => ?_, h.settled⟩
  obtain ⟨hlt, hsent, hframes⟩ := h.link hne
  exact ⟨hlt, Nat.le_trans hsent hle, hframes⟩

namespace QuicUnackedPacketMap

/-- The bytes of a packet that are in flight. -/
def flightWeight (info : QuicTransmissionInfo φ) : Nat :=
  if info.inFlight then info.bytesSent.toNat else 0

def inFlightBytes (m : QuicUnackedPacketMap φ) : Nat := m.unackedPackets.total flightWeight

structure Tracks (m : QuicUnackedPacketMap φ) : Prop where
  start : 1 ≤ m.getLeastUnacked
  span : m.unackedPackets.next = m.largestSentPacket + 1
  flight : m.bytesInFlight = m.inFlightBytes % 2 ^ 64
  sound : ∀ n info, m.getTransmissionInfo n = some info → Sound m.largestSentPacket n info

/-- A packet was sent again as another one. -/
def Linked (m : QuicUnackedPacketMap φ) (n k : Nat) : Prop :=
  ∃ info, m.getTransmissionInfo n = some info ∧ info.retransmission ≠ 0 ∧ info.retransmission = k

section Basics
variable {m : QuicUnackedPacketMap φ} {n k : Nat} {info : QuicTransmissionInfo φ}

theorem tracks_new : (new : QuicUnackedPacketMap φ).Tracks := by
  refine ⟨Nat.le_refl 1, rfl, rfl, fun n info h => ?_⟩
  have hbounds := NumberedQueue.bounds h
  exact absurd hbounds.2 (Nat.not_lt.mpr hbounds.1)

theorem Tracks.bounds (h : m.Tracks) (hn : m.getTransmissionInfo n = some info) :
    m.getLeastUnacked ≤ n ∧ n ≤ m.largestSentPacket := by
  have hbounds := NumberedQueue.bounds hn
  rw [h.span] at hbounds
  exact ⟨hbounds.1, Nat.le_of_lt_succ hbounds.2⟩

theorem Tracks.exists_info (h : m.Tracks) (hleast : m.getLeastUnacked ≤ n)
    (hsent : n ≤ m.largestSentPacket) : ∃ info, m.getTransmissionInfo n = some info := by
  refine NumberedQueue.exists_get? hleast ?_
  rw [h.span]
  exact Nat.lt_succ_of_le hsent

theorem Tracks.linked (h : m.Tracks) (hlink : m.Linked n k) :
    n < k ∧ k ≤ m.largestSentPacket := by
  obtain ⟨info, hn, hne, rfl⟩ := hlink
  have hsound := (h.sound n info hn).link hne
  exact ⟨hsound.1, hsound.2.1⟩

end Basics

/-! ### Changing packets in place -/

/-- `m'` is `m` with every packet changed as `g` says. -/
structure Changed (g : Nat → QuicTransmissionInfo φ → QuicTransmissionInfo φ)
    (m m' : QuicUnackedPacketMap φ) : Prop where
  largestSent : m'.largestSentPacket = m.largestSentPacket
  largestRetransmittable :
    m'.largestSentRetransmittablePacket = m.largestSentRetransmittablePacket
  largestAcked : m'.largestAcked = m.largestAcked
  least : m'.getLeastUnacked = m.getLeastUnacked
  next : m'.unackedPackets.next = m.unackedPackets.next
  infos : ∀ n, m'.getTransmissionInfo n = (m.getTransmissionInfo n).map (g n)

section Changed
variable {m m' m'' : QuicUnackedPacketMap φ}
  {g g' : Nat → QuicTransmissionInfo φ → QuicTransmissionInfo φ} {n : Nat}

theorem Changed.trans (h : Changed g m m') (h' : Changed g' m' m'') :
    Changed (fun n => g' n ∘ g n) m m'' where
  largestSent := h'.largestSent.trans h.largestSent
  largestRetransmittable := h'.largestRetransmittable.trans h.largestRetransmittable
  largestAcked := h'.largestAcked.trans h.largestAcked
  least := h'.least.trans h.least
  next := h'.next.trans h.next
  infos n := by rw [h'.infos, h.infos, Option.map_map]

theorem Changed.refl (m : QuicUnackedPacketMap φ) : Changed (fun _ => id) m m :=
  ⟨rfl, rfl, rfl, rfl, rfl, fun _ => (Option.map_id_fun ▸ rfl)⟩

theorem Changed.congr (h : Changed g m m')
    (hg : ∀ n info, m.getTransmissionInfo n = some info → g n info = g' n info) :
    Changed g' m m' := by
  refine ⟨h.largestSent, h.largestRetransmittable, h.largestAcked, h.least, h.next, fun n => ?_⟩
  rw [h.infos]
  cases hn : m.getTransmissionInfo n with
  | none => rfl
  | some info => rw [Option.map_some, Option.map_some, hg n info hn]

theorem Changed.length (h : Changed g m m') :
    m'.unackedPackets.items.length = m.unackedPackets.items.length := by
  have hleast : m'.unackedPackets.first = m.unackedPackets.first := h.least
  have hnext := h.next
  unfold NumberedQueue.next at hnext
  omega

/-- One packet is changed. -/
def atNumber (n : Nat) (f : QuicTransmissionInfo φ → QuicTransmissionInfo φ) (k : Nat) :
    QuicTransmissionInfo φ → QuicTransmissionInfo φ :=
  if k = n then f else id

theorem changed_modify (m : QuicUnackedPacketMap φ) (n : Nat)
    (f : QuicTransmissionInfo φ → QuicTransmissionInfo φ) :
    Changed (atNumber n f) m (m.modify n f) := by
  refine ⟨rfl, rfl, rfl, NumberedQueue.first_modify, NumberedQueue.next_modify, fun k => ?_⟩
  show (m.unackedPackets.modify n f).get? k = _
  rw [NumberedQueue.get?_modify]
  unfold atNumber
  split
  · rename_i hk
    rw [hk]
    rfl
  · rw [Option.map_id]
    rfl

theorem Changed.tracks (h : Changed g m m') (hm : m.Tracks)
    (hflight : m'.bytesInFlight = m'.inFlightBytes % 2 ^ 64)
    (hsound : ∀ n info, m.getTransmissionInfo n = some info → Sound m.largestSentPacket n info →
      Sound m.largestSentPacket n (g n info)) : m'.Tracks := by
  refine ⟨?_, ?_, hflight, fun n info hn => ?_⟩
  · rw [h.least]
    exact hm.start
  · rw [h.next, h.largestSent]
    exact hm.span
  · rw [h.infos] at hn
    obtain ⟨old, hold, rfl⟩ := Option.map_eq_some_iff.mp hn
    rw [h.largestSent]
    exact hsound n old hold (hm.sound n old hold)

end Changed

/-! ### Leaving the flight -/

def outOfFlight (info : QuicTransmissionInfo φ) : QuicTransmissionInfo φ :=
  {info with inFlight := false}

section Flight
variable {m : QuicUnackedPacketMap φ} {n : Nat} {info : QuicTransmissionInfo φ}

theorem removeFromInFlight_eq (hn : m.getTransmissionInfo n = some info) :
    m.removeFromInFlight n = if info.inFlight then
      {m.modify n outOfFlight with bytesInFlight := subU64 m.bytesInFlight info.bytesSent.toNat}
    else m := by
  rw [removeFromInFlight, hn]
  rfl

theorem changed_removeFromInFlight (hn : m.getTransmissionInfo n = some info) :
    Changed (atNumber n outOfFlight) m (m.removeFromInFlight n) := by
  rw [removeFromInFlight_eq hn]
  split
  · obtain ⟨hsent, hretransmittable, hacked, hleast, hnext, hinfos⟩ :=
      changed_modify m n outOfFlight
    exact ⟨hsent, hretransmittable, hacked, hleast, hnext, hinfos⟩
  · rename_i hflight
    refine (Changed.refl m).congr fun k info' hk => ?_
    unfold atNumber
    split
    · rename_i heq
      subst heq
      obtain rfl := Option.some.inj (hn.symm.trans hk)
      have hout : info.inFlight = false := Bool.eq_false_iff.mpr hflight
      rw [outOfFlight, ← hout]
      rfl
    · rfl

/-- The bytes leave the flight with the packet. -/
theorem inFlightBytes_removeFromInFlight (hn : m.getTransmissionInfo n = some info) :
    (m.removeFromInFlight n).inFlightBytes + flightWeight info = m.inFlightBytes := by
  rw [removeFromInFlight_eq hn]
  split
  · rename_i hflight
    have htotal := NumberedQueue.total_modify (f := outOfFlight) flightWeight hn
    have hzero : flightWeight (outOfFlight info) = 0 := rfl
    rw [hzero, Nat.add_zero] at htotal
    exact htotal
  · rename_i hflight
    rw [flightWeight, if_neg hflight, Nat.add_zero]

theorem bytesInFlight_removeFromInFlight (hn : m.getTransmissionInfo n = some info) :
    (m.removeFromInFlight n).bytesInFlight =
      if info.inFlight then subU64 m.bytesInFlight info.bytesSent.toNat else m.bytesInFlight := by
  rw [removeFromInFlight_eq hn]
  split <;> rfl

theorem sound_outOfFlight {largestSent : Nat} (h : Sound largestSent n info) :
    Sound largestSent n (outOfFlight info) :=
  ⟨h.link, fun hacked => ⟨rfl, (h.settled hacked).2⟩⟩

theorem Tracks.removeFromInFlight (h : m.Tracks) (hn : m.getTransmissionInfo n = some info) :
    (m.removeFromInFlight n).Tracks := by
  refine (changed_removeFromInFlight hn).tracks h ?_ fun k info' _ hsound => ?_
  · have hbytes := inFlightBytes_removeFromInFlight hn
    have hflight := h.flight
    have hsize : info.bytesSent.toNat < 2 ^ 16 := info.bytesSent.toNat_lt
    rw [bytesInFlight_removeFromInFlight hn]
    split
    · rename_i hin
      rw [flightWeight, if_pos hin] at hbytes
      unfold subU64
      split <;> omega
    · rename_i hout
      rw [flightWeight, if_neg hout, Nat.add_zero] at hbytes
      rw [hbytes]
      exact hflight
  · unfold atNumber
    split
    · exact sound_outOfFlight hsound
    · exact hsound

end Flight

/-! ### Following links -/

section Links
variable {m m' : QuicUnackedPacketMap φ} {n newest : Nat} {info : QuicTransmissionInfo φ}

/-- The links of the packets from `n` on are the same. -/
def SameLinks (n : Nat) (m m' : QuicUnackedPacketMap φ) : Prop :=
  ∀ k, n ≤ k → (m'.getTransmissionInfo k).map QuicTransmissionInfo.retransmission =
    (m.getTransmissionInfo k).map QuicTransmissionInfo.retransmission

theorem newestRetransmissionFrom_succ (rounds : Nat) (hn : m.getTransmissionInfo n = some info) :
    m.newestRetransmissionFrom (rounds + 1) n =
      if info.retransmission ≠ 0 then m.newestRetransmissionFrom rounds info.retransmission
      else some n := by
  rw [newestRetransmissionFrom, hn]
  rfl

/-- Following links only depends on the links. -/
theorem newestRetransmissionFrom_congr (h : m.Tracks) (rounds : Nat) (hlinks : SameLinks n m m') :
    m'.newestRetransmissionFrom rounds n = m.newestRetransmissionFrom rounds n := by
  induction rounds generalizing n with
  | zero => rfl
  | succ rounds ih =>
    have hsame := hlinks n (Nat.le_refl n)
    cases hn : m.getTransmissionInfo n with
    | none =>
      rw [hn, Option.map_none, Option.map_eq_none_iff] at hsame
      rw [newestRetransmissionFrom, newestRetransmissionFrom, hsame, hn]
      rfl
    | some info =>
      rw [hn, Option.map_some] at hsame
      obtain ⟨info', hn', hlink⟩ := Option.map_eq_some_iff.mp hsame
      rw [newestRetransmissionFrom_succ rounds hn', newestRetransmissionFrom_succ rounds hn, hlink]
      split
      · rename_i hne
        have hlt := ((h.sound n info hn).link hne).1
        exact ih fun k hk => hlinks k (Nat.le_trans (Nat.le_of_lt hlt) hk)
      · rfl

/-- From every packet the links lead to a newest one. -/
theorem Tracks.exists_newest (h : m.Tracks) {rounds : Nat}
    (hn : m.getLeastUnacked ≤ n ∧ n ≤ m.largestSentPacket)
    (hrounds : m.largestSentPacket + 1 - n ≤ rounds) :
    ∃ newest, m.newestRetransmissionFrom rounds n = some newest ∧
      Relation.ReflTransGen m.Linked n newest ∧ n ≤ newest ∧ newest ≤ m.largestSentPacket := by
  induction rounds generalizing n with
  | zero => omega
  | succ rounds ih =>
    obtain ⟨info, hinfo⟩ := h.exists_info hn.1 hn.2
    rw [newestRetransmissionFrom_succ rounds hinfo]
    split
    · rename_i hne
      obtain ⟨hlt, hle, -⟩ := (h.sound n info hinfo).link hne
      obtain ⟨newest, hfound, hleads, hge, hsent⟩ := ih (n := info.retransmission) ⟨by omega, hle⟩
        (by omega)
      exact ⟨newest, hfound, .head ⟨info, hinfo, hne, rfl⟩ hleads, by omega, hsent⟩
    · exact ⟨n, rfl, .refl, Nat.le_refl n, hn.2⟩

end Links

/-! ### Forgetting data -/

/-- What `RemoveRetransmittability` does to the packet with number `k`: it takes away the frames
of the newest transmission, and links along the chain. -/
def forgotten (cut : Nat → Bool) (newest k : Nat) (info : QuicTransmissionInfo φ) :
    QuicTransmissionInfo φ :=
  {info with
    retransmission := if cut k then 0 else info.retransmission
    retransmittableFrames := if k = newest then [] else info.retransmittableFrames}

section Forget
variable {m : QuicUnackedPacketMap φ} {n : Nat} {info : QuicTransmissionInfo φ}

theorem removeRetransmittabilityFrom_succ (rounds : Nat)
    (hn : m.getTransmissionInfo n = some info) :
    removeRetransmittabilityFrom (rounds + 1) m n =
      if info.retransmission ≠ 0 then
        removeRetransmittabilityFrom rounds
          (m.modify n fun info => {info with retransmission := 0}) info.retransmission
      else some (m.modify n fun info => {info with retransmittableFrames := []}) := by
  rw [removeRetransmittabilityFrom, hn]
  rfl

theorem sound_unlinked {largestSent k : Nat} (h : Sound largestSent k info) :
    Sound largestSent k {info with retransmission := 0} :=
  ⟨fun hne => absurd rfl hne, fun hacked =>
    ⟨(h.settled hacked).1, rfl, (h.settled hacked).2.2⟩⟩

/-- A change that leaves flights and sizes alone leaves the bytes in flight alone. -/
theorem inFlightBytes_modify {f : QuicTransmissionInfo φ → QuicTransmissionInfo φ}
    (hn : m.getTransmissionInfo n = some info) (hf : flightWeight (f info) = flightWeight info) :
    (m.modify n f).inFlightBytes = m.inFlightBytes := by
  have htotal := NumberedQueue.total_modify (f := f) flightWeight hn
  rw [hf] at htotal
  exact Nat.add_right_cancel htotal

theorem Tracks.unlink (h : m.Tracks) (hn : m.getTransmissionInfo n = some info) :
    (m.modify n fun info => {info with retransmission := 0}).Tracks := by
  refine (changed_modify m n _).tracks h ?_ fun k info' _ hsound => ?_
  · rw [inFlightBytes_modify hn rfl]
    exact h.flight
  · unfold atNumber
    split
    · exact sound_unlinked hsound
    · exact hsound

/-- The loop finds the newest transmission that `GetNewestRetransmission` finds, and forgets the
data there. -/
theorem Tracks.exists_forgotten (h : m.Tracks) {rounds newest : Nat}
    (hn : m.getLeastUnacked ≤ n ∧ n ≤ m.largestSentPacket)
    (hnewest : m.newestRetransmissionFrom rounds n = some newest) :
    ∃ cut m', removeRetransmittabilityFrom rounds m n = some m' ∧
      Changed (forgotten cut newest) m m' ∧ m'.bytesInFlight = m.bytesInFlight ∧
      m'.inFlightBytes = m.inFlightBytes ∧
      (∀ k, cut k = true → n ≤ k) ∧ (cut n = true ∨ newest = n) := by
  induction rounds generalizing m n with
  | zero => cases hnewest
  | succ rounds ih =>
    obtain ⟨info, hinfo⟩ := h.exists_info hn.1 hn.2
    rw [newestRetransmissionFrom_succ rounds hinfo] at hnewest
    rw [removeRetransmittabilityFrom_succ rounds hinfo]
    split at hnewest
    · rename_i hne
      rw [if_pos hne]
      obtain ⟨hlt, hle, -⟩ := (h.sound n info hinfo).link hne
      have hchanged := changed_modify m n fun info => {info with retransmission := 0}
      -- The link that was cut is not followed again.
      have hlinks : SameLinks info.retransmission m
          (m.modify n fun info => {info with retransmission := 0}) := by
        intro k hk
        rw [hchanged.infos, atNumber, if_neg (by omega), Option.map_id]
        rfl
      have hbounds : (m.modify n fun info => {info with retransmission := 0}).getLeastUnacked ≤
          info.retransmission ∧ info.retransmission ≤ m.largestSentPacket := by
        rw [hchanged.least]
        omega
      rw [← newestRetransmissionFrom_congr h rounds hlinks] at hnewest
      obtain ⟨cut, m', hremove, hforgotten, hbytes, htotal, hcut, -⟩ :=
        ih (h.unlink hinfo) hbounds hnewest
      refine ⟨fun k => cut k || decide (k = n), m', hremove, ?_, hbytes, ?_, fun k hk => ?_, ?_⟩
      · refine (hchanged.trans hforgotten).congr fun k info' _ => ?_
        show forgotten cut newest k (atNumber n _ k info') = _
        unfold atNumber
        split
        · rename_i hk
          simp [forgotten, hk]
        · rename_i hk
          simp [forgotten, hk]
      · rw [htotal, inFlightBytes_modify hinfo rfl]
      · rcases Bool.or_eq_true_iff.mp hk with hk | hk
        · exact Nat.le_trans (Nat.le_of_lt hlt) (hcut k hk)
        · exact (of_decide_eq_true hk).ge
      · exact .inl (by simp)
    · rename_i hzero
      rw [if_neg hzero]
      obtain rfl := Option.some.inj hnewest
      refine ⟨fun _ => false, _, rfl, ?_, rfl, inFlightBytes_modify hinfo rfl, ?_, .inr rfl⟩
      · refine (changed_modify m n _).congr fun k info' _ => ?_
        unfold atNumber forgotten
        split <;> simp_all
      · exact fun k hk => (by cases hk)

end Forget

/-! ### Dropping packets -/

section Obsolete
variable {m : QuicUnackedPacketMap φ} {n : Nat} {info : QuicTransmissionInfo φ}

theorem least_le_removeObsoletePackets (m : QuicUnackedPacketMap φ) :
    m.getLeastUnacked ≤ m.removeObsoletePackets.getLeastUnacked :=
  NumberedQueue.first_le_dropWhile

theorem getTransmissionInfo_removeObsoletePackets (m : QuicUnackedPacketMap φ) (n : Nat) :
    m.removeObsoletePackets.getTransmissionInfo n =
      if m.removeObsoletePackets.getLeastUnacked ≤ n then m.getTransmissionInfo n else none :=
  NumberedQueue.get?_dropWhile ..

theorem of_removeObsoletePackets (h : m.removeObsoletePackets.getTransmissionInfo n = some info) :
    m.getTransmissionInfo n = some info :=
  NumberedQueue.get?_of_dropWhile h

/-- A packet that is of no use is out of flight and has no data. -/
theorem isPacketUseless_iff (m : QuicUnackedPacketMap φ) (n : Nat) (info : QuicTransmissionInfo φ) :
    m.isPacketUseless n info = true ↔ (isAckable info.state = true → n ≤ m.largestAcked) ∧
      info.inFlight = false ∧ info.retransmission ≤ m.largestAcked ∧
      info.retransmittableFrames = [] := by
  simp only [isPacketUseless, isPacketUsefulForMeasuringRtt, isPacketUsefulForCongestionControl,
    isPacketUsefulForRetransmittableData, hasRetransmittableFrames, Bool.and_eq_true,
    Bool.not_eq_true', Bool.or_eq_false_iff, Bool.and_eq_false_imp, decide_eq_false_iff_not,
    Nat.not_lt, Bool.not_eq_false', List.isEmpty_iff, and_assoc]

theorem useless_of_dropped (h : m.getTransmissionInfo n = some info)
    (hn : n < m.removeObsoletePackets.getLeastUnacked) : m.isPacketUseless n info = true :=
  NumberedQueue.of_dropped h hn

/-- The first packet that is kept is of use. -/
theorem first_removeObsoletePackets (h : m.removeObsoletePackets.getTransmissionInfo
    m.removeObsoletePackets.getLeastUnacked = some info) :
    m.isPacketUseless m.removeObsoletePackets.getLeastUnacked info = false :=
  NumberedQueue.of_first_dropWhile h

theorem flightWeight_of_useless (h : m.isPacketUseless n info = true) : flightWeight info = 0 := by
  rw [flightWeight, ((isPacketUseless_iff m n info).mp h).2.1]
  rfl

theorem inFlightBytes_removeObsoletePackets (m : QuicUnackedPacketMap φ) :
    m.removeObsoletePackets.inFlightBytes = m.inFlightBytes :=
  NumberedQueue.total_dropWhile fun _ _ => flightWeight_of_useless

theorem Tracks.removeObsoletePackets (h : m.Tracks) : m.removeObsoletePackets.Tracks where
  start := Nat.le_trans h.start (least_le_removeObsoletePackets m)
  span := NumberedQueue.next_dropWhile.trans h.span
  flight := by
    rw [inFlightBytes_removeObsoletePackets]
    exact h.flight
  sound n info hn := h.sound n info (of_removeObsoletePackets hn)

end Obsolete

/-! ### Sending -/

/-- The numbers below `n` that were not used are skipped. -/
def skipTo (m : QuicUnackedPacketMap φ) (n : Nat) : QuicUnackedPacketMap φ :=
  {m.skip n with largestSentPacket := n - 1}

/-- A packet as it enters, with the data it takes over or its own. -/
def carrying (packet : SerializedPacket φ) (transmissionType : TransmissionType) (sentTime : Int)
    (frames : List φ) : QuicTransmissionInfo φ :=
  {(.new transmissionType sentTime packet.encryptedLength : QuicTransmissionInfo φ) with
    retransmittableFrames := frames}

section Sending
variable {m : QuicUnackedPacketMap φ} {packet : SerializedPacket φ} {n k o : Nat}
  {transmissionType : TransmissionType} {sentTime : Int} {setInFlight : Bool}
  {info old : QuicTransmissionInfo φ}

theorem getTransmissionInfo_skipTo (m : QuicUnackedPacketMap φ) (n k : Nat) :
    (m.skipTo n).getTransmissionInfo k =
      if m.unackedPackets.next ≤ k ∧ k < n then some .neverSent else m.getTransmissionInfo k :=
  NumberedQueue.get?_fill ..

theorem inFlightBytes_skipTo (m : QuicUnackedPacketMap φ) (n : Nat) :
    (m.skipTo n).inFlightBytes = m.inFlightBytes :=
  NumberedQueue.total_fill rfl

theorem Tracks.skipTo (h : m.Tracks) (hn : m.largestSentPacket < n) : (m.skipTo n).Tracks where
  start := h.start
  span := by
    have hnext : (m.skipTo n).unackedPackets.next = n :=
      NumberedQueue.next_fill (by rw [h.span]; exact hn)
    rw [hnext]
    show n = n - 1 + 1
    omega
  flight := by
    rw [inFlightBytes_skipTo]
    exact h.flight
  sound k info hk := by
    rw [getTransmissionInfo_skipTo] at hk
    split at hk
    · cases hk
      exact ⟨fun hne => absurd rfl hne, fun hacked => by cases hacked⟩
    · exact (h.sound k info hk).mono (Nat.le_sub_one_of_lt hn)

theorem transferRetransmissionInfo_eq (hleast : m.getLeastUnacked ≤ o)
    (hsent : o ≤ m.largestSentPacket) (ho : m.getTransmissionInfo o = some old) :
    m.transferRetransmissionInfo o n transmissionType info =
      some ((m.modify o
        (handOver n transmissionType info.retransmittableFrames)).removeObsoletePackets,
        {info with retransmittableFrames := old.retransmittableFrames}) := by
  rw [transferRetransmissionInfo, if_neg (Nat.not_lt.mpr hleast), if_neg (Nat.not_lt.mpr hsent), ho]
  rfl

/-- A packet that takes over data enters where the old one has handed it over. -/
theorem addSentPacket_old (h : m.Tracks) (ho : m.getTransmissionInfo o = some old)
    (packet : SerializedPacket φ) (transmissionType : TransmissionType) (sentTime : Int)
    (setInFlight : Bool) :
    m.addSentPacket packet o transmissionType sentTime setInFlight =
      some ((((m.skipTo packet.packetNumber).modify o
        (handOver packet.packetNumber transmissionType [])).removeObsoletePackets).enter packet
          setInFlight (carrying packet transmissionType sentTime old.retransmittableFrames)) := by
  obtain ⟨hleast, hsent⟩ := h.bounds ho
  have hpos : 0 < o := Nat.lt_of_lt_of_le h.start hleast
  have hfound : (m.skip packet.packetNumber).getTransmissionInfo o = some old := by
    refine (getTransmissionInfo_skipTo m packet.packetNumber o).trans ?_
    rw [if_neg (by rw [h.span]; omega)]
    exact ho
  rw [addSentPacket, if_pos hpos,
    transferRetransmissionInfo_eq (m := m.skip packet.packetNumber) hleast hsent hfound]
  simp only [Option.bind_eq_bind, Option.bind_some, if_neg (Nat.ne_of_gt hpos)]
  rfl

theorem getTransmissionInfo_enter (m : QuicUnackedPacketMap φ) (packet : SerializedPacket φ)
    (setInFlight : Bool) (info : QuicTransmissionInfo φ) (k : Nat) :
    (m.enter packet setInFlight info).getTransmissionInfo k =
      if k = m.unackedPackets.next then some {info with inFlight := setInFlight}
      else m.getTransmissionInfo k :=
  NumberedQueue.get?_push ..

theorem inFlightBytes_enter (m : QuicUnackedPacketMap φ) (packet : SerializedPacket φ)
    (setInFlight : Bool) (frames : List φ) :
    (m.enter packet setInFlight
      (carrying packet transmissionType sentTime frames)).inFlightBytes =
        m.inFlightBytes + if setInFlight then packet.encryptedLength.toNat else 0 :=
  NumberedQueue.total_push flightWeight

/-- A packet enters behind a map that keeps the invariant, but for links to that packet. -/
theorem tracks_enter {frames : List φ} (hstart : 1 ≤ m.getLeastUnacked)
    (hnext : m.unackedPackets.next = packet.packetNumber)
    (hflight : m.bytesInFlight = m.inFlightBytes % 2 ^ 64)
    (hsound : ∀ k info, m.getTransmissionInfo k = some info →
      Sound packet.packetNumber k info) :
    (m.enter packet setInFlight (carrying packet transmissionType sentTime frames)).Tracks where
  start := hstart
  span := by
    refine NumberedQueue.next_push.trans ?_
    rw [hnext]
    rfl
  flight := by
    rw [inFlightBytes_enter]
    show (if setInFlight then (m.bytesInFlight + _) % 2 ^ 64 else m.bytesInFlight) = _
    cases setInFlight
    · exact hflight
    · simp only [if_true]
      rw [hflight, Nat.mod_add_mod]
  sound k info hk := by
    rw [getTransmissionInfo_enter] at hk
    split at hk
    · cases hk
      exact ⟨fun hne => absurd rfl hne, fun hacked => by cases hacked⟩
    · exact hsound k info hk

theorem handOver_inFlight (n : Nat) (transmissionType : TransmissionType) (frames : List φ)
    (old : QuicTransmissionInfo φ) :
    (handOver n transmissionType frames old).inFlight = old.inFlight ∧
      (handOver n transmissionType frames old).bytesSent = old.bytesSent ∧
      (handOver n transmissionType frames old).retransmittableFrames = frames := by
  unfold handOver
  dsimp only
  split <;> exact ⟨rfl, rfl, rfl⟩

theorem sound_handOver (h : Sound n o old) (hlt : o < n) (hacked : old.state ≠ .acked) :
    Sound n o (handOver n transmissionType [] old) := by
  unfold handOver
  dsimp only
  split
  · refine ⟨fun hne => ?_, fun hstate => by cases hstate⟩
    obtain ⟨hlink, hle, -⟩ := h.link hne
    exact ⟨hlink, hle, rfl⟩
  · exact ⟨fun _ => ⟨hlt, Nat.le_refl n, rfl⟩, fun hstate => absurd hstate hacked⟩

/-- A packet that is not settled may hand its data over to the one that enters. -/
theorem Tracks.handOver (h : m.Tracks) (hn : m.largestSentPacket < packet.packetNumber)
    (ho : m.getTransmissionInfo o = some old) (hacked : old.state ≠ .acked) {frames : List φ} :
    ((((m.skipTo packet.packetNumber).modify o
      (handOver packet.packetNumber transmissionType [])).removeObsoletePackets).enter packet
        setInFlight (carrying packet transmissionType sentTime frames)).Tracks := by
  have hskip := h.skipTo hn
  have hfound : (m.skipTo packet.packetNumber).getTransmissionInfo o = some old := by
    rw [getTransmissionInfo_skipTo, if_neg (by have := h.span; have := h.bounds ho; omega)]
    exact ho
  have hchanged := changed_modify (m.skipTo packet.packetNumber) o
    (QuicUnackedPacketMap.handOver packet.packetNumber transmissionType [])
  obtain ⟨hin, hsize, -⟩ := handOver_inFlight packet.packetNumber transmissionType [] old
  refine tracks_enter ?_ ?_ ?_ fun k info hk => ?_
  · refine Nat.le_trans ?_ (least_le_removeObsoletePackets _)
    rw [hchanged.least]
    exact hskip.start
  · refine NumberedQueue.next_dropWhile.trans (hchanged.next.trans (hskip.span.trans ?_))
    show packet.packetNumber - 1 + 1 = packet.packetNumber
    omega
  · rw [inFlightBytes_removeObsoletePackets, inFlightBytes_modify hfound]
    · exact hskip.flight
    · rw [flightWeight, flightWeight, hin, hsize]
  · have hk := of_removeObsoletePackets hk
    rw [hchanged.infos] at hk
    obtain ⟨before, hbefore, rfl⟩ := Option.map_eq_some_iff.mp hk
    have hsound := (hskip.sound k before hbefore).mono (Nat.sub_le packet.packetNumber 1)
    unfold atNumber
    split
    · rename_i heq
      subst heq
      obtain rfl := Option.some.inj (hfound.symm.trans hbefore)
      exact sound_handOver hsound (Nat.lt_of_le_of_lt (h.bounds ho).2 hn) hacked
    · exact hsound

end Sending
end QuicUnackedPacketMap
end CongestionResponse.SentPackets
