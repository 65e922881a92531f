import CongestionResponse.SentPackets.AckFrames

/-! Sending, and what the timers do.

A packet enters the map with data of its own or with the data of a packet that waits. The timers
only let packets wait that have data, or abandon packets without. -/
namespace CongestionResponse.SentPackets
open Quic Framer QuicUnackedPacketMap

variable {φ σ : Type}

namespace QuicSentPacketManager
variable {c : Config φ σ} {s s' : QuicSentPacketManager φ σ} {n k o : Nat}
  {info old : QuicTransmissionInfo φ} {packet : SerializedPacket φ} {sentTime : Int}
  {transmissionType : TransmissionType} {hasData : Bool}

/-! ### Sending -/

/-- Data that is sent again in this way is not linked to the packet it was in. -/
def unlinks (transmissionType : TransmissionType) : Bool :=
  decide (transmissionType = .allInitialRetransmission ∨
    transmissionType = .allUnackedRetransmission)

/-- What sending a packet does: `o` is the packet whose data it takes over, or 0. -/
structure Sends (s s' : QuicSentPacketManager φ σ) (packet : SerializedPacket φ) (o : Nat)
    (sentTime : Int) (transmissionType : TransmissionType) (hasData : Bool) : Prop where
  managed : s'.Managed
  largestSent : s'.unackedPackets.largestSentPacket = packet.packetNumber
  least : s.getLeastUnacked ≤ s'.getLeastUnacked
  entered : ∃ info, s'.unackedPackets.getTransmissionInfo packet.packetNumber = some info ∧
    info.retransmittableFrames = packet.retransmittableFrames ∧ info.retransmission = 0
  infos : ∀ n info', s'.unackedPackets.getTransmissionInfo n = some info' →
    n = packet.packetNumber ∨
    s.unackedPackets.largestSentPacket < n ∧ info'.retransmittableFrames = [] ∧
      info'.retransmission = 0 ∨
    ∃ info, s.unackedPackets.getTransmissionInfo n = some info ∧
      (info' = info ∨ n = o ∧ info'.retransmittableFrames = [] ∧
        (info'.retransmission = info.retransmission ∨
          info'.retransmission = packet.packetNumber))
  flight : ∀ n info', s'.unackedPackets.getTransmissionInfo n = some info' →
    info'.inFlight = true →
    n = packet.packetNumber ∧ info'.sentTime = sentTime ∧ info'.state = .outstanding ∨
    ∃ info, s.unackedPackets.getTransmissionInfo n = some info ∧ info.inFlight = true ∧
      info'.sentTime = info.sentTime ∧
      (info'.state = info.state ∨ unlinks transmissionType = true)
  states : ∀ n info', s'.unackedPackets.getTransmissionInfo n = some info' →
    n = packet.packetNumber ∧ info'.state = .outstanding ∨
    s.unackedPackets.largestSentPacket < n ∧ n ≠ packet.packetNumber ∨
    ∃ info, s.unackedPackets.getTransmissionInfo n = some info ∧
      (info'.state = info.state ∨ unlinks transmissionType = true)
  kept : ∀ n info, s.unackedPackets.getTransmissionInfo n = some info →
    info.retransmittableFrames ≠ [] → n ≠ o →
    s'.unackedPackets.getTransmissionInfo n = some info
  account : s'.account = s.account + if hasData then packet.encryptedLength.toNat else 0
  packetsAcked : s'.packetsAcked = s.packetsAcked
  events : s'.congestionEvents = s.congestionEvents
  rto : s'.consecutiveRtoCount = s.consecutiveRtoCount
  largestNewlyAcked : s'.largestNewlyAcked = s.largestNewlyAcked

/-- The map a packet enters: numbers were skipped, and a packet `o` has handed over its data. -/
structure Readied (s : QuicSentPacketManager φ σ) (packet : SerializedPacket φ) (o : Nat)
    (transmissionType : TransmissionType) (m : QuicUnackedPacketMap φ) : Prop where
  least : s.getLeastUnacked ≤ m.getLeastUnacked
  next : m.unackedPackets.next = packet.packetNumber
  infos : ∀ n info', m.getTransmissionInfo n = some info' →
    s.unackedPackets.largestSentPacket < n ∧ info' = .neverSent ∨
    ∃ info, s.unackedPackets.getTransmissionInfo n = some info ∧
      (n ≠ o ∧ info' = info ∨
        n = o ∧ info.state ≠ .acked ∧ info' = handOver packet.packetNumber transmissionType [] info)
  kept : ∀ n info, s.unackedPackets.getTransmissionInfo n = some info →
    info.retransmittableFrames ≠ [] → n ≠ o → m.getTransmissionInfo n = some info
  largestAcked : m.largestAcked = s.unackedPackets.largestAcked
  bytes : m.inFlightBytes = s.unackedPackets.inFlightBytes

theorem handOver_link (old : QuicTransmissionInfo φ) (n : Nat)
    (transmissionType : TransmissionType) (frames : List φ) :
    (handOver n transmissionType frames old).retransmission = old.retransmission ∨
      (handOver n transmissionType frames old).retransmission = n := by
  unfold handOver
  dsimp only
  split
  · exact .inl rfl
  · exact .inr rfl

theorem handOver_state (n : Nat) (transmissionType : TransmissionType) (frames : List φ)
    (hold : old.state ≠ .acked) : (handOver n transmissionType frames old).state ≠ .acked := by
  unfold handOver
  dsimp only
  split
  · exact fun hstate => by cases hstate
  · exact hold

theorem handOver_flight (n : Nat) (frames : List φ) (old : QuicTransmissionInfo φ) :
    (handOver n transmissionType frames old).sentTime = old.sentTime ∧
      ((handOver n transmissionType frames old).state = old.state ∨
        unlinks transmissionType = true) := by
  unfold handOver
  dsimp only
  split
  · rename_i hunlinks
    exact ⟨rfl, .inr (decide_eq_true hunlinks)⟩
  · exact ⟨rfl, .inl rfl⟩

section Enter
variable {m : QuicUnackedPacketMap φ} {frames : List φ}

/-- What is found once the packet has entered. -/
theorem Readied.cases (h : Readied s packet o transmissionType m) {info' : QuicTransmissionInfo φ}
    (hn : (m.enter packet hasData
      (carrying packet transmissionType sentTime frames)).getTransmissionInfo n = some info') :
    n = packet.packetNumber ∧ info' = {carrying packet transmissionType sentTime frames with
        inFlight := hasData} ∨
    n ≠ packet.packetNumber ∧ m.getTransmissionInfo n = some info' := by
  rw [getTransmissionInfo_enter, h.next] at hn
  split at hn
  · rename_i heq
    exact .inl ⟨heq, (Option.some.inj hn).symm⟩
  · rename_i hne
    exact .inr ⟨hne, hn⟩

theorem Readied.sends (h : s.Managed) (hm : Readied s packet o transmissionType m) (sentTime : Int)
    (pending : List (Nat × TransmissionType))
    (hsent : s.unackedPackets.largestSentPacket < packet.packetNumber)
    (hframes : frames = packet.retransmittableFrames)
    (hdata : packet.retransmittableFrames ≠ [] → hasData = true)
    (hpending : ∀ entry, entry ∈ pending ↔ entry ∈ s.pendingRetransmissions ∧ entry.1 ≠ o)
    (hnodup : (pending.map Prod.fst).Nodup)
    (htracks : (m.enter packet hasData (carrying packet transmissionType sentTime frames)).Tracks)
    (hunacked : s'.unackedPackets =
      m.enter packet hasData (carrying packet transmissionType sentTime frames))
    (hpending' : s'.pendingRetransmissions = pending)
    (hlast : s'.lastAckFrame = s.lastAckFrame) (hevents : s'.congestionEvents = s.congestionEvents)
    (hacked : s'.packetsAcked = s.packetsAcked)
    (hrto : s'.consecutiveRtoCount = s.consecutiveRtoCount)
    (hnewly : s'.largestNewlyAcked = s.largestNewlyAcked) :
    Sends s s' packet o sentTime transmissionType hasData := by
  have hkept : ∀ n info, s.unackedPackets.getTransmissionInfo n = some info →
      info.retransmittableFrames ≠ [] → n ≠ o →
      s'.unackedPackets.getTransmissionInfo n = some info := by
    intro n info hn hne hno
    have hle := (h.tracks.bounds hn).2
    rw [hunacked, getTransmissionInfo_enter, hm.next, if_neg (by omega)]
    exact hm.kept n info hn hne hno
  refine ⟨⟨?_, ?_, ?_, ?_, ?_, ?_, ?_⟩, ?_, ?_, ?_, ?_, ?_, ?_, hkept, ?_, hacked, hevents, hrto,
    hnewly⟩
  · exact hunacked ▸ htracks
  · intro n info' hn
    rw [hunacked] at hn
    rw [hlast]
    rcases hm.cases hn with ⟨rfl, rfl⟩ | ⟨-, hn⟩
    · refine iff_of_false (fun hmem => ?_) (fun hstate => by cases hstate)
      exact absurd (h.sent _ hmem) (Nat.not_le.mpr hsent)
    · rcases hm.infos n info' hn with ⟨hlt, rfl⟩ | ⟨info, hinfo, ⟨-, rfl⟩ | ⟨-, hstate, rfl⟩⟩
      · refine iff_of_false (fun hmem => ?_) (fun hstate => by cases hstate)
        exact absurd (h.sent _ hmem) (Nat.not_le.mpr hlt)
      · exact h.acked n info' hinfo
      · rw [h.acked n info hinfo]
        exact iff_of_false hstate (handOver_state _ _ _ hstate)
  · intro n hn
    rw [hlast] at hn
    rw [hunacked]
    exact Nat.le_of_lt (Nat.lt_of_le_of_lt (h.sent n hn) hsent)
  · intro entry hentry
    rw [hpending', hpending] at hentry
    obtain ⟨info, hinfo, hne⟩ := h.pending entry hentry.1
    exact ⟨info, hkept entry.1 info hinfo hne hentry.2, hne⟩
  · rw [hpending']
    exact hnodup
  · intro n info' hn hne
    rw [hunacked] at hn
    rcases hm.cases hn with ⟨rfl, rfl⟩ | ⟨-, hn⟩
    · exact .inl (hdata (hframes ▸ hne))
    · rcases hm.infos n info' hn with ⟨-, rfl⟩ | ⟨info, hinfo, ⟨hno, rfl⟩ | ⟨-, -, rfl⟩⟩
      · exact absurd rfl hne
      · refine (h.held n info' hinfo hne).imp_right fun hmem => ?_
        obtain ⟨entry, hentry, rfl⟩ := List.mem_map.mp hmem
        rw [hpending']
        exact List.mem_map_of_mem ((hpending entry).mpr ⟨hentry, hno⟩)
      · exact absurd (handOver_inFlight _ _ _ _).2.2 hne
  · rw [Level, hlast, hunacked]
    exact h.level.trans hm.largestAcked.symm
  · rw [hunacked]
    rfl
  · show _ ≤ s'.unackedPackets.getLeastUnacked
    rw [hunacked]
    exact hm.least
  · rw [hunacked, getTransmissionInfo_enter, hm.next, if_pos rfl]
    exact ⟨_, rfl, hframes, rfl⟩
  · intro n info' hn
    rw [hunacked] at hn
    rcases hm.cases hn with ⟨rfl, rfl⟩ | ⟨-, hn⟩
    · exact .inl rfl
    · rcases hm.infos n info' hn with ⟨hlt, rfl⟩ | ⟨info, hinfo, ⟨-, rfl⟩ | ⟨hno, -, rfl⟩⟩
      · exact .inr (.inl ⟨hlt, rfl, rfl⟩)
      · exact .inr (.inr ⟨info', hinfo, .inl rfl⟩)
      · exact .inr (.inr ⟨info, hinfo,
          .inr ⟨hno, (handOver_inFlight _ _ _ _).2.2, handOver_link info _ _ _⟩⟩)
  · intro n info' hn hin
    rw [hunacked] at hn
    rcases hm.cases hn with ⟨rfl, rfl⟩ | ⟨-, hn⟩
    · exact .inl ⟨rfl, rfl, rfl⟩
    · rcases hm.infos n info' hn with ⟨-, rfl⟩ | ⟨info, hinfo, ⟨-, rfl⟩ | ⟨-, -, rfl⟩⟩
      · cases hin
      · exact .inr ⟨info', hinfo, hin, rfl, .inl rfl⟩
      · rw [(handOver_inFlight _ _ _ _).1] at hin
        exact .inr ⟨info, hinfo, hin, handOver_flight _ _ info⟩
  · intro n info' hn
    rw [hunacked] at hn
    rcases hm.cases hn with ⟨rfl, rfl⟩ | ⟨hne, hn⟩
    · exact .inl ⟨rfl, rfl⟩
    · rcases hm.infos n info' hn with ⟨hlt, -⟩ | ⟨info, hinfo, ⟨-, rfl⟩ | ⟨-, -, rfl⟩⟩
      · exact .inr (.inl ⟨hlt, hne⟩)
      · exact .inr (.inr ⟨info', hinfo, .inl rfl⟩)
      · exact .inr (.inr ⟨info, hinfo, (handOver_flight _ _ info).2⟩)
  · rw [account, account, hunacked, hevents, inFlightBytes_enter, hm.bytes]
    omega

end Enter

/-- Numbers are skipped. -/
theorem readied_skipTo (transmissionType : TransmissionType) (h : s.Managed)
    (hn : s.unackedPackets.largestSentPacket < packet.packetNumber) :
    Readied s packet 0 transmissionType (s.unackedPackets.skipTo packet.packetNumber) where
  least := Nat.le_refl _
  next := by
    rw [(h.tracks.skipTo hn).span]
    show packet.packetNumber - 1 + 1 = _
    omega
  infos k info' hk := by
    rw [getTransmissionInfo_skipTo] at hk
    have hspan := h.tracks.span
    split at hk
    · rename_i hskipped
      exact .inl ⟨by omega, (Option.some.inj hk).symm⟩
    · have hstart := h.tracks.start
      have hleast := (h.tracks.bounds hk).1
      exact .inr ⟨info', hk, .inl ⟨by omega, rfl⟩⟩
  kept k info hk _ _ := by
    have hspan := h.tracks.span
    have hbounds := h.tracks.bounds hk
    rw [getTransmissionInfo_skipTo, if_neg (by omega)]
    exact hk
  largestAcked := rfl
  bytes := inFlightBytes_skipTo _ _

/-- A packet with data hands it over. -/
theorem readied_handOver (transmissionType : TransmissionType) (h : s.Managed)
    (hn : s.unackedPackets.largestSentPacket < packet.packetNumber)
    (ho : s.unackedPackets.getTransmissionInfo o = some old)
    (hframes : old.retransmittableFrames ≠ []) :
    Readied s packet o transmissionType (((s.unackedPackets.skipTo packet.packetNumber).modify o
      (handOver packet.packetNumber transmissionType [])).removeObsoletePackets) := by
  have hskip := readied_skipTo transmissionType h hn
  have hchanged := changed_modify (s.unackedPackets.skipTo packet.packetNumber) o
    (handOver packet.packetNumber transmissionType [])
  have hstate : old.state ≠ .acked := fun hacked =>
    hframes ((h.tracks.sound o old ho).settled hacked).2.2
  have hstart := h.tracks.start
  have holeast := (h.tracks.bounds ho).1
  have hfound := hskip.kept o old ho hframes (by omega)
  obtain ⟨hin, hsize, -⟩ := handOver_inFlight packet.packetNumber transmissionType [] old
  refine ⟨?_, ?_, fun k info' hk => ?_, fun k info hk hne hko => ?_, hchanged.largestAcked, ?_⟩
  · refine Nat.le_trans (Nat.le_of_eq ?_) (least_le_removeObsoletePackets _)
    exact hchanged.least.symm
  · exact Lib.NumberedQueue.next_dropWhile.trans (hchanged.next.trans hskip.next)
  · have hk := of_removeObsoletePackets hk
    rw [hchanged.infos] at hk
    obtain ⟨before, hbefore, rfl⟩ := Option.map_eq_some_iff.mp hk
    unfold atNumber
    split
    · rename_i heq
      subst heq
      obtain rfl := Option.some.inj (hfound.symm.trans hbefore)
      exact .inr ⟨old, ho, .inr ⟨rfl, hstate, rfl⟩⟩
    · rename_i hne
      rcases hskip.infos k before hbefore with hskipped | ⟨info, hinfo, ⟨-, rfl⟩ | ⟨hzero, -, -⟩⟩
      · exact .inl hskipped
      · exact .inr ⟨before, hinfo, .inl ⟨hne, rfl⟩⟩
      · have := (h.tracks.bounds hinfo).1
        omega
  · have hkleast := (h.tracks.bounds hk).1
    have hmodified : ((s.unackedPackets.skipTo packet.packetNumber).modify o
        (handOver packet.packetNumber transmissionType [])).getTransmissionInfo k = some info := by
      rw [hchanged.infos, hskip.kept k info hk hne (by omega), atNumber, if_neg hko]
      rfl
    rw [getTransmissionInfo_removeObsoletePackets]
    split
    · exact hmodified
    · rename_i hdropped
      have huseless := useless_of_dropped hmodified (Nat.not_le.mp hdropped)
      exact absurd ((isPacketUseless_iff _ _ _).mp huseless).2.2.2 hne
  · rw [inFlightBytes_removeObsoletePackets, inFlightBytes_modify hfound]
    · exact hskip.bytes
    · rw [flightWeight, flightWeight, hin, hsize]

/-- A packet can be sent with data of its own. -/
theorem exists_onPacketSent_new (h : s.Managed)
    (hn : s.unackedPackets.largestSentPacket < packet.packetNumber)
    (hdata : packet.retransmittableFrames ≠ [] → hasData = true) :
    ∃ s', s.onPacketSent c packet 0 sentTime transmissionType hasData = some s' ∧
      Sends s s' packet 0 sentTime transmissionType hasData := by
  have hready := readied_skipTo transmissionType h hn
  have hskip := h.tracks.skipTo hn
  refine ⟨_, rfl, hready.sends h sentTime s.pendingRetransmissions hn rfl hdata
    (fun entry => ?_) h.nodup ?_ rfl rfl rfl rfl rfl rfl rfl⟩
  · refine (and_iff_left_of_imp fun hentry => ?_).symm
    obtain ⟨info, hinfo, -⟩ := h.pending entry hentry
    have := (h.tracks.bounds hinfo).1
    have := h.tracks.start
    omega
  · refine tracks_enter hskip.start hready.next hskip.flight fun k info hk => ?_
    exact (hskip.sound k info hk).mono (Nat.sub_le _ 1)

/-- The data of a packet that waits can be sent again. -/
theorem exists_onPacketSent_old (h : s.Managed)
    (hn : s.unackedPackets.largestSentPacket < packet.packetNumber)
    (hdata : packet.retransmittableFrames ≠ [] → hasData = true)
    (ho : s.unackedPackets.getTransmissionInfo o = some old)
    (hframes : old.retransmittableFrames ≠ [])
    (hsame : packet.retransmittableFrames = old.retransmittableFrames) :
    ∃ s', s.onPacketSent c packet o sentTime transmissionType hasData = some s' ∧
      Sends s s' packet o sentTime transmissionType hasData := by
  have hready := readied_handOver transmissionType h hn ho hframes
  have hstate : old.state ≠ .acked := fun hacked =>
    hframes ((h.tracks.sound o old ho).settled hacked).2.2
  have hpos : o ≠ 0 := by
    have := (h.tracks.bounds ho).1
    have := h.tracks.start
    omega
  have hadded := addSentPacket_old h.tracks ho packet transmissionType sentTime hasData
  obtain ⟨s', hrun⟩ :
      ∃ s', s.onPacketSent c packet o sentTime transmissionType hasData = some s' := by
    rw [onPacketSent, hadded]
    exact ⟨_, rfl⟩
  refine ⟨s', hrun, hready.sends h sentTime (erasePending o s.pendingRetransmissions) hn hsame.symm
    hdata (fun entry => mem_erasePending)
    (nodup_erasePending h.nodup) (h.tracks.handOver hn ho hstate) ?_ ?_ ?_ ?_ ?_ ?_ ?_⟩
  all_goals
    rw [onPacketSent, hadded] at hrun
    cases hrun
  · rfl
  · exact if_pos hpos
  all_goals rfl

/-! ### Timers -/

/-- What the timers do: nothing is reported as acked, and bytes may leave the flight without a
report. -/
structure Times (s s' : QuicSentPacketManager φ σ) : Prop where
  recedes : Recedes (fun _ => False) s s'
  least : s'.getLeastUnacked = s.getLeastUnacked
  account : s'.account ≤ s.account
  packetsAcked : s'.packetsAcked = s.packetsAcked ∨ s'.packetsAcked = []
  largestNewlyAcked : s.packetsAcked = [] → s'.largestNewlyAcked = s.largestNewlyAcked
  credits : ackedNumbers s'.congestionEvents ++ s'.packetsAcked.map AckedPacket.packetNumber =
    ackedNumbers s.congestionEvents ++ s.packetsAcked.map AckedPacket.packetNumber

theorem Times.trans {s'' : QuicSentPacketManager φ σ} (h : Times s s') (h' : Times s' s'') :
    Times s s'' where
  recedes := h.recedes.trans h'.recedes
  least := h'.least.trans h.least
  account := Nat.le_trans h'.account h.account
  packetsAcked := by
    rcases h'.packetsAcked with heq | heq
    · exact h.packetsAcked.imp heq.trans heq.trans
    · exact .inr heq
  largestNewlyAcked hnil := by
    have hnil' : s'.packetsAcked = [] := h.packetsAcked.elim (·.trans hnil) id
    exact (h'.largestNewlyAcked hnil').trans (h.largestNewlyAcked hnil)
  credits := h'.credits.trans h.credits

/-- Other records of the manager may change. -/
theorem times_of_eq (h : s.Managed) (hunacked : s'.unackedPackets = s.unackedPackets)
    (hpending : s'.pendingRetransmissions = s.pendingRetransmissions)
    (hlast : s'.lastAckFrame = s.lastAckFrame)
    (hevents : s'.congestionEvents = s.congestionEvents)
    (hpacketsAcked : s'.packetsAcked = s.packetsAcked)
    (hnewly : s'.largestNewlyAcked = s.largestNewlyAcked) : Times s s' where
  recedes := recedes_of_eq _ h hunacked hpending (by rw [hlast]) (by rw [hlast])
  least := congrArg QuicUnackedPacketMap.getLeastUnacked hunacked
  account := Nat.le_of_eq (account_eq hunacked hevents)
  packetsAcked := .inl hpacketsAcked
  largestNewlyAcked _ := hnewly
  credits := by rw [hevents, hpacketsAcked]

/-- A packet with data waits as well as being in flight. -/
theorem times_withPending (h : s.Managed) (hn : s.unackedPackets.getTransmissionInfo n = some info)
    (hframes : info.retransmittableFrames ≠ []) (transmissionType : TransmissionType) :
    Times s (s.withPackets s.unackedPackets
      (addPending n transmissionType s.pendingRetransmissions)) where
  recedes := ⟨h.withPending hn hframes transmissionType, rfl, Nat.le_refl _, Nat.le_refl _,
    fun _ info' hk => ⟨info', hk, Wanes.refl info'⟩, fun _ info' hk _ => .inl ⟨info', hk, rfl⟩⟩
  least := rfl
  account := Nat.le_refl _
  packetsAcked := .inl rfl
  largestNewlyAcked _ := rfl
  credits := rfl

/-- A packet without data is abandoned. -/
theorem times_abandon (h : s.Managed) (hn : s.unackedPackets.getTransmissionInfo n = some info)
    (hframes : info.retransmittableFrames = []) :
    Times s (s.setUnacked (s.unackedPackets.removeFromInFlight n)) := by
  have hfades := fades_removeFromInFlight hn
  have hbytes := inFlightBytes_removeFromInFlight hn
  refine ⟨⟨?_, hfades.largestSent, Nat.le_of_eq hfades.largestAcked.symm,
    Nat.le_of_eq hfades.least.symm, ?_, ?_⟩, hfades.least, ?_,
    .inl rfl, fun _ => rfl, rfl⟩
  · exact h.removeFromInFlight hn h.pending h.nodup (fun _ hk => hk) fun hne => absurd hframes hne
  · exact fun _ _ hk => hfades.exists_before hk
  · intro k info' hk hne
    have hkn : k ≠ n := by
      rintro rfl
      obtain rfl := Option.some.inj (hn.symm.trans hk)
      exact hne hframes
    refine .inl ⟨info', ?_, rfl⟩
    show (s.unackedPackets.removeFromInFlight n).getTransmissionInfo k = some info'
    rw [(changed_removeFromInFlight hn).infos, hk, atNumber, if_neg hkn]
    rfl
  · show (s.unackedPackets.removeFromInFlight n).inFlightBytes +
      reportedBytes s.congestionEvents ≤ s.account
    unfold account
    omega

theorem exists_handleRto (h : s.Managed) (hn : s.unackedPackets.getTransmissionInfo n = some info) :
    ∃ s', s.handleRto c n = some s' ∧ Times s s' := by
  have hleaves : retransmissionLeavesBytesInFlight .rtoRetransmission = true := rfl
  have hrefl : Times s s := times_of_eq h rfl rfl rfl rfl rfl rfl
  unfold handleRto
  simp only [hn, Option.bind_eq_bind, Option.bind_some]
  cases hframes : hasRetransmittableFrames info with
  | true =>
    have hne := hasRetransmittableFrames_iff.mp hframes
    simp only [Bool.true_and, Bool.not_true, Bool.and_false, Bool.false_eq_true, if_false]
    split
    · rw [markForRetransmission_eq c hn hframes hleaves]
      refine ⟨_, rfl, ?_⟩
      have hmarked := times_withPending h hn hne .rtoRetransmission
      exact hmarked.trans (times_of_eq hmarked.recedes.managed rfl rfl rfl rfl rfl rfl)
    · exact ⟨s, rfl, hrefl⟩
  | false =>
    have hnil : info.retransmittableFrames = [] := by
      by_contra hne
      rw [hasRetransmittableFrames_iff.mpr hne] at hframes
      cases hframes
    simp only [Bool.false_and, Bool.false_eq_true, if_false, Bool.not_false, Bool.and_true]
    rw [show (pure s : Option (QuicSentPacketManager φ σ)) = some s from rfl, Option.bind_some]
    split
    · exact ⟨_, rfl, times_abandon h hn hnil⟩
    · exact ⟨s, rfl, hrefl⟩

theorem exists_handleRtos {numbers : List Nat} (h : s.Managed)
    (hall : ∀ n ∈ numbers, ∃ info, s.unackedPackets.getTransmissionInfo n = some info) :
    ∃ s', numbers.foldlM (handleRto c) s = some s' ∧ Times s s' := by
  induction numbers generalizing s with
  | nil => exact ⟨s, rfl, times_of_eq h rfl rfl rfl rfl rfl rfl⟩
  | cons n rest ih =>
    obtain ⟨⟨info, hn⟩, hrest⟩ := List.forall_mem_cons.mp hall
    obtain ⟨s₁, hstep, htimes⟩ := exists_handleRto (c := c) h hn
    have hmanaged := htimes.recedes.managed
    have hrest₁ : ∀ k ∈ rest, ∃ info, s₁.unackedPackets.getTransmissionInfo k = some info := by
      intro k hk
      obtain ⟨info, hinfo⟩ := hrest k hk
      have hbounds := h.tracks.bounds hinfo
      refine hmanaged.tracks.exists_info ?_ ?_
      · exact Nat.le_trans (Nat.le_of_eq htimes.least) hbounds.1
      · exact Nat.le_trans hbounds.2 (Nat.le_of_eq htimes.recedes.largestSent.symm)
    obtain ⟨s', hrun, htimes'⟩ := ih hmanaged hrest₁
    refine ⟨s', ?_, htimes.trans htimes'⟩
    rw [List.foldlM_cons, hstep]
    exact hrun

/-- The packets of the map have numbers one after the other. -/
theorem tracked_packetNumbers {m : QuicUnackedPacketMap φ} (h : m.Tracks) :
    ∀ n ∈ packetNumbers m, ∃ info, m.getTransmissionInfo n = some info := by
  intro n hn
  have hbounds := List.mem_range'_1.mp hn
  have hspan := h.span
  unfold Lib.NumberedQueue.next at hspan
  have hfirst : m.unackedPackets.first = m.getLeastUnacked := rfl
  exact h.exists_info hbounds.1 (by omega)

theorem exists_retransmitRtoPackets (h : s.Managed) :
    ∃ s', s.retransmitRtoPackets c = some s' ∧ Times s s' := by
  obtain ⟨s₁, hrun, htimes⟩ := exists_handleRtos (c := c) h (tracked_packetNumbers h.tracks)
  unfold retransmitRtoPackets
  rw [hrun]
  simp only [Option.bind_eq_bind, Option.bind_some]
  split
  · refine ⟨_, rfl, htimes.trans ?_⟩
    exact times_of_eq htimes.recedes.managed rfl rfl rfl rfl rfl rfl
  · exact ⟨s₁, rfl, htimes⟩

theorem exists_maybeRetransmitTailLossProbe (h : s.Managed) :
    ∃ probed s', s.maybeRetransmitTailLossProbe c = some (probed, s') ∧ Times s s' := by
  have hleaves : retransmissionLeavesBytesInFlight .tlpRetransmission = true := rfl
  have hrefl : Times s s := times_of_eq h rfl rfl rfl rfl rfl rfl
  unfold maybeRetransmitTailLossProbe
  split
  · exact ⟨false, s, rfl, hrefl⟩
  · split
    · rename_i n holdest
      have hfound := List.find?_some holdest
      split at hfound
      · rename_i info hn
        have hframes := (Bool.and_eq_true _ _ ▸ hfound).2
        rw [markForRetransmission_eq c hn hframes hleaves]
        exact ⟨true, _, rfl, times_withPending h hn (hasRetransmittableFrames_iff.mp hframes) _⟩
      · cases hfound
    · split
      · obtain ⟨s₁, hrun, htimes⟩ := exists_retransmitRtoPackets (c := c)
          (s := {s with pendingTimerTransmissionCount := 0}) (h.congr rfl rfl rfl rfl)
        rw [hrun]
        refine ⟨false, s₁, rfl, Times.trans (times_of_eq h ?_ ?_ ?_ ?_ ?_ ?_) htimes⟩ <;> rfl
      · exact ⟨false, s, rfl, hrefl⟩

/-- A timeout, where the packets acked by a frame that did not end have no bytes. -/
theorem of_onRetransmissionTimeout (h : s.Managed) (hzero : ackedBytes s.packetsAcked = 0)
    {now : Int} (hrun : s.onRetransmissionTimeout c now = some s') : Times s s' := by
  unfold onRetransmissionTimeout at hrun
  split at hrun
  · obtain ⟨⟨s₁, lost⟩, hdetected, hrun⟩ := Option.bind_eq_some_iff.mp hrun
    obtain ⟨a', hloses⟩ := of_invokeLossDetection h hdetected
    have hacked : s₁.packetsAcked = s.packetsAcked := by rw [hloses.eq]; rfl
    have hevents : s₁.congestionEvents = s.congestionEvents := by rw [hloses.eq]; rfl
    have hnewly : s₁.largestNewlyAcked = s.largestOf := by rw [hloses.eq]; rfl
    have hbytes : s₁.unackedPackets.inFlightBytes + lostBytes lost =
      s.unackedPackets.inFlightBytes := hloses.bytes
    have hdetects : Recedes (fun _ => False) s s₁ := by
      refine Recedes.trans (recedes_of_eq _ h ?_ ?_ ?_ ?_) hloses.recedes <;> rfl
    have hreported := reportedBytes_maybeInvokeCongestionEvent (c := c) s₁ false
      s.unackedPackets.bytesInFlight now lost
    have hcredits := ackedNumbers_maybeInvokeCongestionEvent (c := c) s₁ false
      s.unackedPackets.bytesInFlight now lost
    obtain ⟨sendAlgorithm, events, htold⟩ := maybeInvokeCongestionEvent_eq (c := c) s₁ false
      s.unackedPackets.bytesInFlight now lost
    rw [← Option.some.inj hrun]
    rw [hevents, hacked, hzero] at hreported
    rw [hevents, hacked] at hcredits
    refine ⟨?_, ?_, ?_, ?_, fun hnil => ?_, ?_⟩
    · refine hdetects.trans (recedes_of_eq _ hdetects.managed ?_ ?_ ?_ ?_) <;> rw [htold]
    · rw [htold]
      exact hloses.changed.least
    · rw [account, account, hreported, htold]
      dsimp only
      omega
    · rw [htold]
      exact .inr rfl
    · rw [htold]
      show s₁.largestNewlyAcked = _
      rw [hnewly, largestOf, hnil]
      rfl
    · rw [hcredits, htold]
      exact List.append_nil _
  · cases hrun
    exact times_of_eq h rfl rfl rfl rfl rfl rfl
  · obtain ⟨s₁, hrun₁, htimes⟩ := exists_retransmitRtoPackets (c := c) h
    obtain rfl := Option.some.inj (hrun.symm.trans hrun₁)
    exact htimes

theorem exists_onRetransmissionTimeout (h : s.Managed) (hnil : s.packetsAcked = [])
    (hnewly : s.largestNewlyAcked ≤ s.unackedPackets.largestSentPacket) (now : Int) :
    ∃ s', s.onRetransmissionTimeout c now = some s' := by
  unfold onRetransmissionTimeout
  split
  · have hlargest : s.largestOf = s.largestNewlyAcked := by
      rw [largestOf, hnil]
      rfl
    obtain ⟨s₁, lost, hdetected⟩ := exists_invokeLossDetection (c := c) h (hlargest ▸ hnewly) now
    rw [hdetected]
    exact ⟨_, rfl⟩
  · exact ⟨_, rfl⟩
  · obtain ⟨s', hrun, -⟩ := exists_retransmitRtoPackets (c := c) h
    exact ⟨s', hrun⟩

end QuicSentPacketManager
end CongestionResponse.SentPackets
