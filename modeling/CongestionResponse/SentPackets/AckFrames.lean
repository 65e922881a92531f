import CongestionResponse.SentPackets.Invariants

/-! A whole ack frame, from the acked packets to the packets that are lost by it.

`OnAckFrameEnd` settles the newly acked packets one by one, looks for losses, tells the congestion
controller and drops the packets that are of no use any more. What the first part does to the
packets is `Settles`, what the second does is `Loses`; from them come the manager's invariant,
the bytes the controller is told about, and what becomes of the data. -/
namespace CongestionResponse.SentPackets
open Quic Framer QuicUnackedPacketMap

variable {φ σ : Type}

namespace QuicSentPacketManager

/-! ### The acked packets -/

/-- What settling the packets with the given numbers does. -/
structure Settles (s s' : QuicSentPacketManager φ σ) (numbers : List Nat) : Prop where
  eq : s' = {s with
    unackedPackets := s'.unackedPackets
    pendingRetransmissions := s'.pendingRetransmissions
    lossAlgorithm := s'.lossAlgorithm
    largestNewlyAcked := s'.largestNewlyAcked
    lastAckFrame := {s.lastAckFrame with packets := s'.lastAckFrame.packets}}
  managed : s'.Managed
  fades : Fades s.unackedPackets s'.unackedPackets
  tuned : s.lossAlgorithm.Tuned s'.lossAlgorithm
  settled : ∀ n ∈ numbers, ∀ info', s'.unackedPackets.getTransmissionInfo n = some info' →
    isAckable info'.state = false
  recorded : ∀ n, n ∈ s'.lastAckFrame.packets → n ∈ s.lastAckFrame.packets ∨ n ∈ numbers
  kept : ∀ n info, s.unackedPackets.getTransmissionInfo n = some info →
    (∃ info', s'.unackedPackets.getTransmissionInfo n = some info' ∧
      info'.retransmittableFrames = info.retransmittableFrames) ∨
    ∃ k ∈ numbers, k ∈ s'.lastAckFrame.packets ∧ Relation.ReflTransGen s.unackedPackets.Linked k n
  newly : s'.largestNewlyAcked = s.largestNewlyAcked ∨ s'.largestNewlyAcked ∈ numbers

variable {c : Config φ σ} {s s' s'' : QuicSentPacketManager φ σ} {n : Nat}
  {info : QuicTransmissionInfo φ} {numbers numbers' : List Nat}

theorem Settles.refl (h : s.Managed) : Settles s s [] where
  eq := rfl
  managed := h
  fades := Fades.refl _
  tuned := .refl _
  settled _ hn := absurd hn List.not_mem_nil
  recorded _ hn := .inl hn
  kept _ info hn := .inl ⟨info, hn, rfl⟩
  newly := .inl rfl

/-- What is not ackable stays so. -/
theorem Wanes.not_isAckable {info info' : QuicTransmissionInfo φ} (h : Wanes info info')
    (hinfo : isAckable info.state = false) : isAckable info'.state = false := by
  rcases h.state with heq | heq
  · rw [heq]
    exact hinfo
  · rw [heq]
    rfl

theorem Settles.trans (h : Settles s s' numbers) (h' : Settles s' s'' numbers')
    (hgrows : ∀ n ∈ s'.lastAckFrame.packets, n ∈ s''.lastAckFrame.packets) :
    Settles s s'' (numbers ++ numbers') where
  eq := by
    have heq := h'.eq
    rw [h.eq] at heq
    exact heq
  managed := h'.managed
  fades := h.fades.trans h'.fades
  tuned := h.tuned.trans h'.tuned
  settled n hn info' hinfo' := by
    rcases List.mem_append.mp hn with hn | hn
    · obtain ⟨before, hbefore, hwanes⟩ := h'.fades.exists_before hinfo'
      exact hwanes.not_isAckable (h.settled n hn before hbefore)
    · exact h'.settled n hn info' hinfo'
  recorded n hn := by
    rcases h'.recorded n hn with hn | hn
    · exact (h.recorded n hn).imp_right (List.mem_append_left numbers')
    · exact .inr (List.mem_append_right numbers hn)
  kept n info hn := by
    rcases h.kept n info hn with ⟨info', hinfo', hframes⟩ | ⟨k, hk, hacked, hleads⟩
    · rcases h'.kept n info' hinfo' with ⟨info'', hinfo'', hframes'⟩ | ⟨k, hk, hacked, hleads⟩
      · exact .inl ⟨info'', hinfo'', hframes'.trans hframes⟩
      · refine .inr ⟨k, List.mem_append_right numbers hk, hacked, ?_⟩
        exact Relation.ReflTransGen.mono (fun _ _ => h.fades.linked) _ _ hleads
    · exact .inr ⟨k, List.mem_append_left numbers' hk, hgrows k hacked, hleads⟩
  newly := by
    rcases h'.newly with hsame | hmem
    · rw [hsame]
      exact h.newly.imp_right (List.mem_append_left numbers')
    · exact .inr (List.mem_append_right numbers hmem)

/-- The bytes a list of acked packets is credited with. -/
def ackedBytes (packets : List AckedPacket) : Nat := (packets.map AckedPacket.bytesAcked).sum

/-- The state in which an acked packet is handled. -/
def noteAcked (s : QuicSentPacketManager φ σ) (n : Nat) (inFlight : Bool) :
    QuicSentPacketManager φ σ :=
  if inFlight then s.addAcked n else {s.addAcked n with largestNewlyAcked := n}

theorem noteAcked_eq (s : QuicSentPacketManager φ σ) (n : Nat) (inFlight : Bool) :
    s.noteAcked n inFlight = {s with
      largestNewlyAcked := if inFlight then s.largestNewlyAcked else n
      lastAckFrame := {s.lastAckFrame with packets := s.lastAckFrame.packets.add n}} := by
  cases inFlight <;> rfl

theorem handleAcked_eq (c : Config φ σ) (now : Int) (done : List AckedPacket)
    (hn : s.unackedPackets.getTransmissionInfo n = some info) :
    handleAcked c now (s, done) ⟨n, 0⟩ =
      if isAckable info.state then
        ((s.noteAcked n info.inFlight).markPacketHandled c now n).map
          fun handled => (handled, done ++ [⟨n, flightWeight info⟩])
      else some (s, done ++ [⟨n, 0⟩]) := by
  have hbytes : (if info.inFlight then ⟨n, info.bytesSent.toNat⟩ else ⟨n, 0⟩ : AckedPacket) =
      ⟨n, flightWeight info⟩ := by
    unfold flightWeight
    split <;> rfl
  unfold handleAcked
  simp only [hn, Option.bind_eq_bind, Option.bind_some, hbytes]
  split
  · rw [Option.map_eq_bind]
    rfl
  · rfl

/-- A packet that can be acked is settled. -/
theorem Handled.settles (h : s.Managed) (hn : s.unackedPackets.getTransmissionInfo n = some info)
    {newest : Nat} {cut : Nat → Bool}
    (hhandled : Handled (s.noteAcked n info.inFlight) s' n info newest cut) : Settles s s' [n] := by
  have hnoted := noteAcked_eq s n info.inFlight
  have hunacked : (s.noteAcked n info.inFlight).unackedPackets = s.unackedPackets := by
    rw [hnoted]
  have heq := hhandled.eq
  have hpackets : s'.lastAckFrame.packets = s.lastAckFrame.packets.add n := by
    rw [heq, hnoted]
  have hmem : ∀ k, k ∈ s'.lastAckFrame.packets ↔ k = n ∨ k ∈ s.lastAckFrame.packets := by
    intro k
    rw [hpackets, PacketNumberQueue.mem_add]
  have hfades := hhandled.fades
  have hchanged := hhandled.changed
  have hleads := hhandled.leads
  rw [hunacked] at hfades hchanged hleads
  refine ⟨?_, ?_, hfades, ?_, ?_, ?_, ?_, ?_⟩
  · rw [heq, hnoted]
  · exact h.handled hunacked (by rw [hnoted]) (by rw [hnoted]) hn hhandled hmem
  · have htuned := hhandled.tuned
    rw [hnoted] at htuned
    exact htuned
  · intro k hk info' hinfo'
    rw [List.mem_singleton.mp hk, hchanged.infos, hn] at hinfo'
    obtain rfl := Option.some.inj hinfo'
    show isAckable (if n = n then SentPacketState.acked else info.state) = false
    rw [if_pos rfl]
    rfl
  · intro k hk
    rcases (hmem k).mp hk with rfl | hk
    · exact .inr (List.mem_singleton_self k)
    · exact .inl hk
  · intro k info' hk
    by_cases hnewest : k = newest
    · subst hnewest
      exact .inr ⟨n, List.mem_singleton_self n, (hmem n).mpr (.inl rfl), hleads⟩
    · refine .inl ⟨QuicUnackedPacketMap.handled cut newest n k info', ?_, if_neg hnewest⟩
      rw [hchanged.infos, hk]
      rfl
  · rw [heq, hnoted]
    dsimp only
    split
    · exact .inl rfl
    · exact .inr (List.mem_singleton_self n)

/-- An acked packet is credited with its bytes if it was in flight. -/
theorem exists_handleAcked (h : s.Managed) (now : Int) (done : List AckedPacket)
    (hn : s.unackedPackets.getTransmissionInfo n = some info) :
    ∃ s' bytes, handleAcked c now (s, done) ⟨n, 0⟩ = some (s', done ++ [⟨n, bytes⟩]) ∧
      Settles s s' [n] ∧ (∀ k ∈ s.lastAckFrame.packets, k ∈ s'.lastAckFrame.packets) ∧
      s'.unackedPackets.inFlightBytes + bytes = s.unackedPackets.inFlightBytes := by
  rw [handleAcked_eq c now done hn]
  split
  · have hunacked : (s.noteAcked n info.inFlight).unackedPackets = s.unackedPackets := by
      rw [noteAcked_eq]
    obtain ⟨s', newest, cut, hmark, hhandled⟩ := exists_markPacketHandled (c := c)
      (s := s.noteAcked n info.inFlight) (hunacked ▸ h.tracks) now (hunacked ▸ hn)
    have hsettles := hhandled.settles h hn
    refine ⟨s', flightWeight info, by rw [hmark]; rfl, hsettles, fun k hk => ?_, ?_⟩
    · rw [hhandled.eq, noteAcked_eq]
      exact PacketNumberQueue.mem_add.mpr (.inr hk)
    · rw [← hunacked]
      exact hhandled.bytes
  · rename_i hackable
    refine ⟨s, 0, rfl, ?_, fun _ hk => hk, rfl⟩
    have hrefl := Settles.refl h
    refine ⟨hrefl.eq, h, hrefl.fades, hrefl.tuned, fun k hk info' hinfo' => ?_,
      fun _ hk => .inl hk, fun _ info' hk => .inl ⟨info', hk, rfl⟩, .inl rfl⟩
    rw [List.mem_singleton.mp hk] at hinfo'
    obtain rfl := Option.some.inj (hn.symm.trans hinfo')
    exact Bool.eq_false_iff.mpr hackable

/-- The loop of `OnAckFrameEnd` over the numbers that were newly acked. -/
def handleAckeds (c : Config φ σ) (now : Int) (numbers : List Nat)
    (state : QuicSentPacketManager φ σ × List AckedPacket) :
    Option (QuicSentPacketManager φ σ × List AckedPacket) :=
  (numbers.map fun n => (⟨n, 0⟩ : AckedPacket)).foldlM (handleAcked c now) state

theorem exists_handleAckeds (h : s.Managed) (now : Int) {numbers : List Nat}
    (hall : ∀ n ∈ numbers, ∃ info, s.unackedPackets.getTransmissionInfo n = some info)
    (done : List AckedPacket) :
    ∃ s' credited, handleAckeds c now numbers (s, done) = some (s', done ++ credited) ∧
      credited.map AckedPacket.packetNumber = numbers ∧ Settles s s' numbers ∧
      (∀ k ∈ s.lastAckFrame.packets, k ∈ s'.lastAckFrame.packets) ∧
      s'.unackedPackets.inFlightBytes + ackedBytes credited = s.unackedPackets.inFlightBytes := by
  induction numbers generalizing s done with
  | nil => exact ⟨s, [], by rw [List.append_nil]; rfl, rfl, Settles.refl h, fun _ hk => hk, rfl⟩
  | cons n rest ih =>
    obtain ⟨⟨info, hn⟩, hrest⟩ := List.forall_mem_cons.mp hall
    obtain ⟨s₁, bytes, hstep, hsettles, hgrows, hbytes⟩ := exists_handleAcked (c := c) h now done hn
    have hrest₁ : ∀ k ∈ rest, ∃ info, s₁.unackedPackets.getTransmissionInfo k = some info := by
      intro k hk
      obtain ⟨info, hinfo⟩ := hrest k hk
      obtain ⟨info', hinfo', -⟩ := hsettles.fades.exists_after hinfo
      exact ⟨info', hinfo'⟩
    obtain ⟨s', credited, hrun, hnumbers, hsettles', hgrows', hbytes'⟩ :=
      ih hsettles.managed hrest₁ (done ++ [⟨n, bytes⟩])
    refine ⟨s', ⟨n, bytes⟩ :: credited, ?_, ?_, hsettles.trans hsettles' hgrows',
      fun k hk => hgrows' k (hgrows k hk), ?_⟩
    · rw [handleAckeds, List.map_cons, List.foldlM_cons, hstep]
      rw [List.append_assoc] at hrun
      exact hrun
    · rw [List.map_cons, hnumbers]
    · show s'.unackedPackets.inFlightBytes + (bytes + ackedBytes credited) = _
      omega

/-- Where the loop has a result, all the packets were tracked. -/
theorem tracked_of_handleAckeds (h : s.Managed) {now : Int} {numbers : List Nat}
    {done : List AckedPacket} {result : QuicSentPacketManager φ σ × List AckedPacket}
    (hrun : handleAckeds c now numbers (s, done) = some result) :
    ∀ n ∈ numbers, ∃ info, s.unackedPackets.getTransmissionInfo n = some info := by
  induction numbers generalizing s done with
  | nil => exact fun _ hn => absurd hn List.not_mem_nil
  | cons n rest ih =>
    rw [handleAckeds, List.map_cons, List.foldlM_cons] at hrun
    obtain ⟨state, hstep, hrun⟩ := Option.bind_eq_some_iff.mp hrun
    cases hn : s.unackedPackets.getTransmissionInfo n with
    | none =>
      simp only [handleAcked, hn] at hstep
      cases hstep
    | some info =>
      obtain ⟨s₁, bytes, hstep', hsettles, -, -⟩ := exists_handleAcked (c := c) h now done hn
      obtain rfl := Option.some.inj (hstep.symm.trans hstep')
      refine List.forall_mem_cons.mpr ⟨⟨info, hn⟩, fun k hk => ?_⟩
      obtain ⟨info', hinfo'⟩ := ih hsettles.managed hrun k hk
      obtain ⟨before, hbefore, -⟩ := hsettles.fades.exists_before hinfo'
      exact ⟨before, hbefore⟩

/-! ### The lost packets -/

/-- The packets with these numbers leave the flight. -/
def leave (numbers : List Nat) (k : Nat) (info : QuicTransmissionInfo φ) : QuicTransmissionInfo φ :=
  if k ∈ numbers then outOfFlight info else info

/-- What the loss of packets does. -/
structure Loses (s s' : QuicSentPacketManager φ σ) (packets : List LostPacket) : Prop where
  eq : s' = s.withPackets s'.unackedPackets s'.pendingRetransmissions
  managed : s'.Managed
  changed : Changed (leave (packets.map LostPacket.packetNumber)) s.unackedPackets s'.unackedPackets
  bytes : s'.unackedPackets.inFlightBytes + lostBytes packets = s.unackedPackets.inFlightBytes

theorem exists_handleLosses (h : s.Managed) {packets : List LostPacket}
    (hpackets : s.unackedPackets.InFlight packets) :
    ∃ s', packets.foldlM (handleLoss c) s = some s' ∧ Loses s s' packets := by
  induction packets generalizing s with
  | nil =>
    refine ⟨s, rfl, rfl, h, (Changed.refl _).congr fun k info _ => ?_, rfl⟩
    exact (if_neg List.not_mem_nil).symm
  | cons p rest ih =>
    obtain ⟨⟨info, hn, hin, hsize⟩, hrest⟩ := List.forall_mem_cons.mp hpackets.inFlight
    obtain ⟨hlt, hsorted⟩ := List.pairwise_cons.mp hpackets.sorted
    have hstep := handleLoss_eq c hn p.bytesLost
    have hmanaged := h.handleLoss hn
    generalize hs₁ : s.withPackets _ _ = s₁ at hstep hmanaged
    have hunacked : s₁.unackedPackets = s.unackedPackets.removeFromInFlight p.packetNumber := by
      rw [← hs₁]
      rfl
    have hchanged := changed_removeFromInFlight hn
    -- The other packets are still in flight.
    have hrest₁ : s₁.unackedPackets.InFlight rest := by
      refine ⟨hsorted, fun q hq => ?_⟩
      obtain ⟨info', hinfo', hflight⟩ := hrest q hq
      refine ⟨info', ?_, hflight⟩
      rw [hunacked, hchanged.infos, hinfo', atNumber, if_neg (Nat.ne_of_gt (hlt q hq))]
      rfl
    obtain ⟨s', hrun, hloses⟩ := ih hmanaged hrest₁
    have hbytes := inFlightBytes_removeFromInFlight hn
    rw [flightWeight, if_pos hin, ← hsize, ← hunacked] at hbytes
    refine ⟨s', ?_, ?_, hloses.managed, ?_, ?_⟩
    · rw [List.foldlM_cons, show p = ⟨p.packetNumber, p.bytesLost⟩ from rfl, hstep]
      exact hrun
    · rw [hloses.eq, ← hs₁]
      rfl
    · rw [← hunacked] at hchanged
      refine (hchanged.trans hloses.changed).congr fun k info' _ => ?_
      show leave _ k (atNumber p.packetNumber outOfFlight k info') = _
      unfold leave atNumber
      by_cases hk : k = p.packetNumber
      · by_cases hmem : k ∈ rest.map LostPacket.packetNumber
        · simp [hk, outOfFlight]
        · simp [hk, outOfFlight]
      · simp [hk]
    · have hrestBytes := hloses.bytes
      show s'.unackedPackets.inFlightBytes + (p.bytesLost + lostBytes rest) = _
      omega

/-! ### Everything but sending -/

/-- Nothing was sent: packets fade or are dropped, and data only goes where a packet that carried
it is one of those reported. -/
structure Recedes (reported : Nat → Prop) (s s' : QuicSentPacketManager φ σ) : Prop where
  managed : s'.Managed
  largestSent : s'.unackedPackets.largestSentPacket = s.unackedPackets.largestSentPacket
  largestAcked : s.unackedPackets.largestAcked ≤ s'.unackedPackets.largestAcked
  least : s.getLeastUnacked ≤ s'.getLeastUnacked
  infos : ∀ n info', s'.unackedPackets.getTransmissionInfo n = some info' →
    ∃ info, s.unackedPackets.getTransmissionInfo n = some info ∧ Wanes info info'
  kept : ∀ n info, s.unackedPackets.getTransmissionInfo n = some info →
    info.retransmittableFrames ≠ [] →
    (∃ info', s'.unackedPackets.getTransmissionInfo n = some info' ∧
      info'.retransmittableFrames = info.retransmittableFrames) ∨
    ∃ k, reported k ∧ Relation.ReflTransGen s.unackedPackets.Linked k n

section Recedes
variable {reported : Nat → Prop}

theorem Recedes.linked (h : Recedes reported s s') {k : Nat}
    (hlink : s'.unackedPackets.Linked n k) :
    s.unackedPackets.Linked n k := by
  obtain ⟨info', hn, hne, hk⟩ := hlink
  obtain ⟨info, hinfo, hwanes⟩ := h.infos n info' hn
  have hsame := hwanes.link.resolve_right hne
  exact ⟨info, hinfo, hsame ▸ hne, hsame ▸ hk⟩

theorem Recedes.mono {reported' : Nat → Prop} (h : Recedes reported s s')
    (himp : ∀ n, reported n → reported' n) : Recedes reported' s s' where
  managed := h.managed
  largestSent := h.largestSent
  largestAcked := h.largestAcked
  least := h.least
  infos := h.infos
  kept n info hn hframes := by
    rcases h.kept n info hn hframes with hkept | ⟨k, hk, hleads⟩
    · exact .inl hkept
    · exact .inr ⟨k, himp k hk, hleads⟩

theorem Recedes.trans (h : Recedes reported s s') (h' : Recedes reported s' s'') :
    Recedes reported s s'' where
  managed := h'.managed
  largestSent := h'.largestSent.trans h.largestSent
  largestAcked := Nat.le_trans h.largestAcked h'.largestAcked
  least := Nat.le_trans h.least h'.least
  infos n info'' hn := by
    obtain ⟨info', hinfo', hwanes'⟩ := h'.infos n info'' hn
    obtain ⟨info, hinfo, hwanes⟩ := h.infos n info' hinfo'
    exact ⟨info, hinfo, hwanes.trans hwanes'⟩
  kept n info hn hframes := by
    rcases h.kept n info hn hframes with ⟨info', hinfo', hsame⟩ | hgone
    · rcases h'.kept n info' hinfo' (hsame ▸ hframes) with ⟨info'', hinfo'', hsame'⟩ | hgone
      · exact .inl ⟨info'', hinfo'', hsame'.trans hsame⟩
      · obtain ⟨k, hk, hleads⟩ := hgone
        exact .inr ⟨k, hk, Relation.ReflTransGen.mono (fun _ _ => h.linked) _ _ hleads⟩
    · exact .inr hgone

/-- Other records of the manager may change. -/
theorem recedes_of_eq (reported : Nat → Prop) (h : s.Managed)
    (hunacked : s'.unackedPackets = s.unackedPackets)
    (hpending : s'.pendingRetransmissions = s.pendingRetransmissions)
    (hacked : s'.lastAckFrame.packets = s.lastAckFrame.packets)
    (hlargest : s'.lastAckFrame.largestAcked = s.lastAckFrame.largestAcked) :
    Recedes reported s s' where
  managed := h.congr hunacked hpending hacked hlargest
  largestSent := by rw [hunacked]
  largestAcked := by rw [hunacked]
  least := by
    show _ ≤ s'.unackedPackets.getLeastUnacked
    rw [hunacked]
    exact Nat.le_refl _
  infos n info' hn := ⟨info', hunacked ▸ hn, Wanes.refl info'⟩
  kept n info hn _ := .inl ⟨info, hunacked ▸ hn, rfl⟩

theorem Settles.recedes (h : Settles s s' numbers) (hnumbers : ∀ n ∈ numbers, reported n) :
    Recedes reported s s' where
  managed := h.managed
  largestSent := h.fades.largestSent
  largestAcked := Nat.le_of_eq h.fades.largestAcked.symm
  least := Nat.le_of_eq h.fades.least.symm
  infos _ _ hn := h.fades.exists_before hn
  kept n info hn _ := by
    rcases h.kept n info hn with hkept | ⟨k, hk, -, hleads⟩
    · exact .inl hkept
    · exact .inr ⟨k, hnumbers k hk, hleads⟩

theorem leave_frames (numbers : List Nat) (k : Nat) (info : QuicTransmissionInfo φ) :
    (leave numbers k info).retransmittableFrames = info.retransmittableFrames := by
  unfold leave
  split <;> rfl

theorem wanes_leave (numbers : List Nat) (k : Nat) (info : QuicTransmissionInfo φ) :
    Wanes info (leave numbers k info) := by
  unfold leave
  split
  · exact ⟨rfl, rfl, fun hin => absurd hin Bool.false_ne_true, .inl rfl, .inl rfl, .inl rfl⟩
  · exact Wanes.refl info

theorem Loses.recedes {packets : List LostPacket} (h : Loses s s' packets) :
    Recedes reported s s' where
  managed := h.managed
  largestSent := h.changed.largestSent
  largestAcked := Nat.le_of_eq h.changed.largestAcked.symm
  least := Nat.le_of_eq h.changed.least.symm
  infos n info' hn := by
    rw [h.changed.infos] at hn
    obtain ⟨info, hinfo, rfl⟩ := Option.map_eq_some_iff.mp hn
    exact ⟨info, hinfo, wanes_leave _ n info⟩
  kept n info hn _ := by
    refine .inl ⟨leave (packets.map LostPacket.packetNumber) n info, ?_, leave_frames _ n info⟩
    rw [h.changed.infos, hn]
    rfl

/-- Packets that are of no use are dropped. -/
theorem recedes_removeObsoletePackets (reported : Nat → Prop) (h : s.Managed) :
    Recedes reported s (s.setUnacked s.unackedPackets.removeObsoletePackets) := by
  -- A packet with data is kept.
  have hkept : ∀ n info, s.unackedPackets.getTransmissionInfo n = some info →
      info.retransmittableFrames ≠ [] →
      s.unackedPackets.removeObsoletePackets.getTransmissionInfo n = some info := by
    intro n info hn hframes
    rw [getTransmissionInfo_removeObsoletePackets]
    split
    · exact hn
    · rename_i hdropped
      have huseless := useless_of_dropped hn (Nat.not_le.mp hdropped)
      exact absurd ((isPacketUseless_iff _ _ _).mp huseless).2.2.2 hframes
  refine ⟨⟨h.tracks.removeObsoletePackets, ?_, h.sent, ?_, h.nodup, ?_, h.level⟩, rfl,
    Nat.le_refl _, least_le_removeObsoletePackets _, ?_, ?_⟩
  · exact fun n info hn => h.acked n info (of_removeObsoletePackets hn)
  · intro entry hentry
    obtain ⟨info, hinfo, hframes⟩ := h.pending entry hentry
    exact ⟨info, hkept entry.1 info hinfo hframes, hframes⟩
  · exact fun n info hn => h.held n info (of_removeObsoletePackets hn)
  · exact fun n info hn => ⟨info, of_removeObsoletePackets hn, Wanes.refl info⟩
  · exact fun n info hn hframes => .inl ⟨info, hkept n info hn hframes, rfl⟩

/-- Numbers below the least unacked one need not be remembered. -/
theorem recedes_removeUpTo (reported : Nat → Prop) (h : s.Managed) :
    Recedes reported s {s with lastAckFrame := {s.lastAckFrame with
      packets := (s.lastAckFrame.packets.removeUpTo s.getLeastUnacked).2}} := by
  refine ⟨⟨h.tracks, fun n info hn => ?_, fun n hn => ?_, h.pending, h.nodup, h.held, h.level⟩,
    rfl, Nat.le_refl _, Nat.le_refl _, fun n info hn => ⟨info, hn, Wanes.refl info⟩,
    fun n info hn _ => .inl ⟨info, hn, rfl⟩⟩
  · rw [← h.acked n info hn]
    show n ∈ (s.lastAckFrame.packets.removeUpTo s.getLeastUnacked).2 ↔ _
    rw [PacketNumberQueue.mem_removeUpTo]
    exact and_iff_left_of_imp fun _ => (h.tracks.bounds hn).1
  · exact h.sent n (PacketNumberQueue.mem_removeUpTo.mp hn).1

end Recedes

/-! ### The end of a frame -/

/-- The bytes the congestion controller was told about. -/
def reportedBytes (events : List CongestionEvent) : Nat :=
  (events.map fun e => ackedBytes e.ackedPackets + lostBytes e.lostPackets).sum

/-- The packets the congestion controller was told to be acked. -/
def ackedNumbers (events : List CongestionEvent) : List Nat :=
  events.flatMap fun e => e.ackedPackets.map AckedPacket.packetNumber

/-- The bytes in flight and those that have left the flight and were reported. -/
def account (s : QuicSentPacketManager φ σ) : Nat :=
  s.unackedPackets.inFlightBytes + reportedBytes s.congestionEvents

section End
variable {reported : Nat → Prop} {lost : List LostPacket}

/-- The losses that are detected leave the flight. -/
theorem of_invokeLossDetection (h : s.Managed) {time : Int}
    (hrun : s.invokeLossDetection c time = some (s', lost)) :
    ∃ a', Loses {s with largestNewlyAcked := s.largestOf, lossAlgorithm := a'} s' lost := by
  obtain ⟨detected, hdetected, hrun⟩ := Option.bind_eq_some_iff.mp hrun
  obtain ⟨handled, hhandled, hrun⟩ := Option.bind_eq_some_iff.mp hrun
  cases hrun
  have hflight := (GeneralLossAlgorithm.inFlight_detectLosses hdetected).1
  obtain ⟨s₁, hrun₁, hloses⟩ := exists_handleLosses (c := c)
    (s := {s with largestNewlyAcked := s.largestOf, lossAlgorithm := detected.1})
    (h.congr rfl rfl rfl rfl) hflight
  obtain rfl := Option.some.inj (hhandled.symm.trans hrun₁)
  exact ⟨detected.1, hloses⟩

theorem exists_invokeLossDetection (h : s.Managed)
    (hsent : s.largestOf ≤ s.unackedPackets.largestSentPacket) (time : Int) :
    ∃ s' lost, s.invokeLossDetection c time = some (s', lost) := by
  obtain ⟨a', lost, hdetected⟩ : ∃ a' lost, s.lossAlgorithm.detectLosses
      ⟨s.unackedPackets, time, s.rttStats, s.largestOf⟩ s.packetsAcked = some (a', lost) :=
    GeneralLossAlgorithm.exists_detectLosses h.tracks hsent _ _
  have hflight := (GeneralLossAlgorithm.inFlight_detectLosses hdetected).1
  obtain ⟨s', hrun, -⟩ := exists_handleLosses (c := c)
    (s := {s with largestNewlyAcked := s.largestOf, lossAlgorithm := a'}) (h.congr rfl rfl rfl rfl)
      hflight
  refine ⟨s', lost, ?_⟩
  rw [invokeLossDetection, hdetected]
  simp only [Option.bind_eq_bind, Option.bind_some, hrun]
  rfl

/-- The congestion controller is told of all that was acked and lost. -/
theorem reportedBytes_maybeInvokeCongestionEvent (s : QuicSentPacketManager φ σ) (rttUpdated : Bool)
    (priorInFlight : Nat) (eventTime : Int) (lost : List LostPacket) :
    reportedBytes (s.maybeInvokeCongestionEvent c rttUpdated priorInFlight eventTime
      lost).congestionEvents =
        reportedBytes s.congestionEvents + (ackedBytes s.packetsAcked + lostBytes lost) := by
  unfold maybeInvokeCongestionEvent
  split
  · rename_i hnothing
    simp only [Bool.and_eq_true, List.isEmpty_iff] at hnothing
    rw [hnothing.1.2, hnothing.2]
    rfl
  · simp [reportedBytes]

theorem ackedNumbers_maybeInvokeCongestionEvent (s : QuicSentPacketManager φ σ) (rttUpdated : Bool)
    (priorInFlight : Nat) (eventTime : Int) (lost : List LostPacket) :
    ackedNumbers (s.maybeInvokeCongestionEvent c rttUpdated priorInFlight eventTime
      lost).congestionEvents =
        ackedNumbers s.congestionEvents ++ s.packetsAcked.map AckedPacket.packetNumber := by
  unfold maybeInvokeCongestionEvent
  split
  · rename_i hnothing
    simp only [Bool.and_eq_true, List.isEmpty_iff] at hnothing
    rw [hnothing.1.2]
    exact (List.append_nil _).symm
  · simp [ackedNumbers]

/-- Telling the controller clears the acked packets and changes nothing else of the records. -/
theorem maybeInvokeCongestionEvent_eq (s : QuicSentPacketManager φ σ) (rttUpdated : Bool)
    (priorInFlight : Nat) (eventTime : Int) (lost : List LostPacket) :
    ∃ sendAlgorithm events, s.maybeInvokeCongestionEvent c rttUpdated priorInFlight eventTime
      lost = {s with
        sendAlgorithm := sendAlgorithm, packetsAcked := [], congestionEvents := events} := by
  unfold maybeInvokeCongestionEvent
  split
  · rename_i hnothing
    simp only [Bool.and_eq_true, List.isEmpty_iff] at hnothing
    exact ⟨s.sendAlgorithm, s.congestionEvents, by rw [← hnothing.1.2]⟩
  · exact ⟨_, _, rfl⟩

theorem resetTimeouts_eq (c : Config φ σ) (s : QuicSentPacketManager φ σ) :
    ∃ rttStats sendAlgorithm rtoCount tlpCount, rtoCount ≤ s.consecutiveRtoCount ∧
      s.resetTimeouts c = {s with
        rttStats := rttStats
        sendAlgorithm := sendAlgorithm
        consecutiveRtoCount := rtoCount
        consecutiveTlpCount := tlpCount} := by
  unfold resetTimeouts
  dsimp only
  split
  · split
    · split
      · exact ⟨_, _, _, _, Nat.zero_le _, rfl⟩
      · split <;> exact ⟨_, _, _, _, Nat.zero_le _, rfl⟩
    · exact ⟨_, _, _, _, Nat.zero_le _, rfl⟩
  · exact ⟨s.rttStats, s.sendAlgorithm, s.consecutiveRtoCount, s.consecutiveTlpCount, Nat.le_refl _,
      rfl⟩

theorem account_eq {s s' : QuicSentPacketManager φ σ}
    (hunacked : s'.unackedPackets = s.unackedPackets)
    (hevents : s'.congestionEvents = s.congestionEvents) : s'.account = s.account := by
  rw [account, account, hunacked, hevents]

/-- The first packet is of use. -/
def FirstUseful (s : QuicSentPacketManager φ σ) : Prop :=
  ∀ info, s.unackedPackets.getTransmissionInfo s.getLeastUnacked = some info →
    s.unackedPackets.isPacketUseless s.getLeastUnacked info = false

/-- What dropping packets that are of no use does; the account stays as it is. -/
structure Drops (reported : Nat → Prop) (s s' : QuicSentPacketManager φ σ) : Prop where
  recedes : Recedes reported s s'
  packetsAcked : s'.packetsAcked = s.packetsAcked
  account : s'.account = s.account
  rto : s'.consecutiveRtoCount ≤ s.consecutiveRtoCount
  largestNewlyAcked : s'.largestNewlyAcked = s.largestNewlyAcked
  events : s'.congestionEvents = s.congestionEvents
  first : s'.FirstUseful

theorem drops_dropObsolete (reported : Nat → Prop) (h : s.Managed) :
    Drops reported s (s.dropObsolete c) := by
  have hdrops := recedes_removeObsoletePackets reported h
  have hbytes := inFlightBytes_removeObsoletePackets s.unackedPackets
  obtain ⟨rttStats, sendAlgorithm, rtoCount, tlpCount, hle, hreset⟩ :=
    resetTimeouts_eq c (s.setUnacked s.unackedPackets.removeObsoletePackets)
  have hresets : Recedes reported s
      ((s.setUnacked s.unackedPackets.removeObsoletePackets).resetTimeouts c) := by
    refine hdrops.trans (recedes_of_eq reported hdrops.managed ?_ ?_ ?_ ?_) <;> rw [hreset]
  have hremoves := recedes_removeUpTo reported hresets.managed
  unfold dropObsolete
  rw [hreset] at hresets hremoves ⊢
  refine ⟨hresets.trans hremoves, rfl, ?_, hle, rfl, rfl, fun _ => first_removeObsoletePackets⟩
  exact congrArg (· + reportedBytes s.congestionEvents) hbytes

/-- What the end of a frame does once the acked packets are settled. -/
structure Concludes (reported : Nat → Prop) (s s' : QuicSentPacketManager φ σ)
    (credited : Nat) : Prop where
  recedes : Recedes reported s s'
  packetsAcked : s'.packetsAcked = []
  account_le : s'.account ≤ s.account + credited
  account_eq : s.consecutiveRtoCount = 0 → s'.account = s.account + credited
  rto : s'.consecutiveRtoCount ≤ s.consecutiveRtoCount
  credits : (ackedNumbers s'.congestionEvents).Perm
    (ackedNumbers s.congestionEvents ++ s.packetsAcked.map AckedPacket.packetNumber)
  first : s'.FirstUseful

theorem of_postProcess (reported : Nat → Prop) (h : s.Managed) {ackReceiveTime : Int} {prior : Nat}
    (hrun : s.postProcessAfterMarkingPacketHandled c ackReceiveTime prior = some s') :
    Concludes reported s s' (ackedBytes s.packetsAcked) ∧ s'.largestNewlyAcked = s.largestOf := by
  obtain ⟨⟨s₁, lost⟩, hdetected, hrun⟩ := Option.bind_eq_some_iff.mp hrun
  obtain ⟨a', hloses⟩ := of_invokeLossDetection h hdetected
  have hacked : s₁.packetsAcked = s.packetsAcked := by rw [hloses.eq]; rfl
  have hevents : s₁.congestionEvents = s.congestionEvents := by rw [hloses.eq]; rfl
  have hrto : s₁.consecutiveRtoCount = s.consecutiveRtoCount := by rw [hloses.eq]; rfl
  have hnewly : s₁.largestNewlyAcked = s.largestOf := by rw [hloses.eq]; rfl
  have hbytes : s₁.unackedPackets.inFlightBytes + lostBytes lost =
    s.unackedPackets.inFlightBytes := hloses.bytes
  have hdetects : Recedes reported s s₁ := by
    refine Recedes.trans (recedes_of_eq reported h ?_ ?_ ?_ ?_) hloses.recedes <;> rfl
  -- In a series of timeouts the losses are not reported.
  generalize hlost : (if 0 < s.consecutiveRtoCount ∧ !c.useNewRto then [] else lost) = lost' at hrun
  have hle : lostBytes lost' ≤ lostBytes lost := by
    rw [← hlost]
    split
    · exact Nat.zero_le _
    · exact Nat.le_refl _
  have hreported := reportedBytes_maybeInvokeCongestionEvent (c := c) s₁ s.rttUpdated prior
    ackReceiveTime lost'
  have hcredits := ackedNumbers_maybeInvokeCongestionEvent (c := c) s₁ s.rttUpdated prior
    ackReceiveTime lost'
  obtain ⟨sendAlgorithm, events, htold⟩ := maybeInvokeCongestionEvent_eq (c := c) s₁ s.rttUpdated
    prior ackReceiveTime lost'
  have hrun := Option.some.inj hrun
  generalize s₁.maybeInvokeCongestionEvent c s.rttUpdated prior ackReceiveTime lost' = told
    at hreported hcredits htold hrun
  have htells : Recedes reported s told := by
    refine hdetects.trans (recedes_of_eq reported hdetects.managed ?_ ?_ ?_ ?_) <;> rw [htold]
  have hdrops := drops_dropObsolete (c := c) reported htells.managed
  have htoldAccount : told.account = s₁.unackedPackets.inFlightBytes +
      (reportedBytes s.congestionEvents + (ackedBytes s.packetsAcked + lostBytes lost')) := by
    rw [hacked, hevents] at hreported
    rw [account, hreported, htold]
  rw [← hrun]
  refine ⟨⟨htells.trans hdrops.recedes, ?_, ?_, fun hzero => ?_, ?_, ?_, hdrops.first⟩, ?_⟩
  · rw [hdrops.packetsAcked, htold]
  · rw [hdrops.account, htoldAccount, account]
    omega
  · have hall : lost = lost' := by simpa [hzero] using hlost
    rw [hdrops.account, htoldAccount, account]
    rw [hall] at hbytes
    omega
  · refine Nat.le_trans hdrops.rto (Nat.le_of_eq ?_)
    rw [htold]
    exact hrto
  · rw [hdrops.events, hcredits, hacked, hevents]
  · rw [hdrops.largestNewlyAcked, htold]
    exact hnewly

theorem onAckFrameEnd_eq (c : Config φ σ) {numbers : List Nat}
    (hacked : s.packetsAcked = numbers.map fun n => ⟨n, 0⟩) (ackReceiveTime now : Int) :
    s.onAckFrameEnd c ackReceiveTime now =
      (handleAckeds c now numbers.reverse (s, [])).bind fun handled =>
        {handled.1 with packetsAcked := handled.2}.postProcessAfterMarkingPacketHandled c
          ackReceiveTime s.unackedPackets.bytesInFlight := by
  unfold onAckFrameEnd
  rw [hacked, ← List.map_reverse]
  rfl

/-- **The end of an ack frame**: the acked packets are settled, what is lost by them leaves the
flight, and every byte that leaves the flight is reported. -/
theorem of_onAckFrameEnd (h : s.Managed) {numbers : List Nat}
    (hacked : s.packetsAcked = numbers.map fun n => ⟨n, 0⟩) {ackReceiveTime now : Int}
    (hrun : s.onAckFrameEnd c ackReceiveTime now = some s') :
    Concludes (· ∈ numbers) s s' 0 ∧
      (s'.largestNewlyAcked = s.largestNewlyAcked ∨ s'.largestNewlyAcked ∈ numbers) ∧
      ∀ n ∈ numbers, ∀ info', s'.unackedPackets.getTransmissionInfo n = some info' →
        isAckable info'.state = false := by
  rw [onAckFrameEnd_eq c hacked] at hrun
  obtain ⟨⟨s₁, credited⟩, hhandled, hrun⟩ := Option.bind_eq_some_iff.mp hrun
  have htracked := tracked_of_handleAckeds (c := c) h hhandled
  obtain ⟨s₂, credited₂, hhandled₂, hnumbers, hsettles, -, hbytes⟩ :=
    exists_handleAckeds (c := c) h now htracked []
  obtain ⟨rfl, rfl⟩ := Prod.mk.inj (Option.some.inj (hhandled.symm.trans hhandled₂))
  have hrecedes : Recedes (· ∈ numbers) s s₁ := hsettles.recedes fun n hn => List.mem_reverse.mp hn
  have hevents : s₁.congestionEvents = s.congestionEvents := by rw [hsettles.eq]
  have hrto : s₁.consecutiveRtoCount = s.consecutiveRtoCount := by rw [hsettles.eq]
  have hmanaged : {s₁ with packetsAcked := credited}.Managed :=
    hsettles.managed.congr rfl rfl rfl rfl
  obtain ⟨hends, hnewly⟩ := of_postProcess (· ∈ numbers) hmanaged hrun
  have haccount : {s₁ with packetsAcked := credited}.account + ackedBytes credited = s.account := by
    show s₁.unackedPackets.inFlightBytes + reportedBytes s₁.congestionEvents + _ = _
    rw [hevents, account]
    omega
  refine ⟨⟨?_, hends.packetsAcked, Nat.le_trans hends.account_le (Nat.le_of_eq haccount),
    fun hzero => (hends.account_eq (hrto.trans hzero)).trans haccount,
    Nat.le_trans hends.rto (Nat.le_of_eq hrto), ?_, hends.first⟩, ?_, fun n hn info' hinfo' => ?_⟩
  · refine (hrecedes.trans (recedes_of_eq _ hsettles.managed ?_ ?_ ?_ ?_)).trans
      hends.recedes <;> rfl
  · have hcredits : (ackedNumbers s'.congestionEvents).Perm (ackedNumbers s₁.congestionEvents ++
        credited.map AckedPacket.packetNumber) := hends.credits
    rw [hevents, show credited.map AckedPacket.packetNumber = numbers.reverse from hnumbers]
      at hcredits
    have hsame : s.packetsAcked.map AckedPacket.packetNumber = numbers := by
      simp [hacked, Function.comp_def]
    rw [hsame]
    exact hcredits.trans ((List.reverse_perm numbers).append_left _)
  · rw [hnewly, largestOf]
    show (credited.getLast?.map AckedPacket.packetNumber).getD s₁.largestNewlyAcked = _ ∨ _
    rw [← List.getLast?_map,
      show credited.map AckedPacket.packetNumber = numbers.reverse from hnumbers]
    cases hlast : numbers.reverse.getLast? with
    | none => exact hsettles.newly.imp_right List.mem_reverse.mp
    | some n => exact .inr (List.mem_reverse.mp (List.mem_of_getLast? hlast))
  · obtain ⟨info, hinfo, hwanes⟩ := hends.recedes.infos n info' hinfo'
    exact hwanes.not_isAckable (hsettles.settled n (List.mem_reverse.mpr hn) info hinfo)

/-- The loss detection goes by a packet that was sent. -/
theorem largestOf_credited_le (h : s.Managed) {numbers : List Nat}
    (hall : ∀ n ∈ numbers, ∃ info, s.unackedPackets.getTransmissionInfo n = some info)
    (hnewly : s.largestNewlyAcked ≤ s.unackedPackets.largestSentPacket)
    {credited : List AckedPacket}
    (hnumbers : credited.map AckedPacket.packetNumber = numbers.reverse)
    (hsettles : Settles s s' numbers.reverse) :
    {s' with packetsAcked := credited}.largestOf ≤ s'.unackedPackets.largestSentPacket := by
  have hle : ∀ n ∈ numbers, n ≤ s'.unackedPackets.largestSentPacket := by
    intro n hn
    obtain ⟨info, hinfo⟩ := hall n hn
    exact Nat.le_trans (h.tracks.bounds hinfo).2 (Nat.le_of_eq hsettles.fades.largestSent.symm)
  show (credited.getLast?.map AckedPacket.packetNumber).getD s'.largestNewlyAcked ≤ _
  rw [← List.getLast?_map, hnumbers]
  cases hlast : numbers.reverse.getLast? with
  | none =>
    show s'.largestNewlyAcked ≤ _
    rcases hsettles.newly with heq | hmem
    · rw [heq, hsettles.fades.largestSent]
      exact hnewly
    · exact hle _ (List.mem_reverse.mp hmem)
  | some n => exact hle n (List.mem_reverse.mp (List.mem_of_getLast? hlast))

/-- A frame that acks tracked packets can be ended. -/
theorem exists_onAckFrameEnd (h : s.Managed) {numbers : List Nat}
    (hacked : s.packetsAcked = numbers.map fun n => ⟨n, 0⟩)
    (hall : ∀ n ∈ numbers, ∃ info, s.unackedPackets.getTransmissionInfo n = some info)
    (hnewly : s.largestNewlyAcked ≤ s.unackedPackets.largestSentPacket) (ackReceiveTime now : Int) :
    ∃ s', s.onAckFrameEnd c ackReceiveTime now = some s' := by
  have htracked : ∀ n ∈ numbers.reverse, ∃ info,
      s.unackedPackets.getTransmissionInfo n = some info :=
    fun n hn => hall n (List.mem_reverse.mp hn)
  obtain ⟨s₁, credited, hhandled, hnumbers, hsettles, -, -⟩ :=
    exists_handleAckeds (c := c) h now htracked []
  have hsent := largestOf_credited_le h hall hnewly hnumbers hsettles
  obtain ⟨s₂, lost, hdetected⟩ := exists_invokeLossDetection (c := c)
    (s := {s₁ with packetsAcked := [] ++ credited}) (hsettles.managed.congr rfl rfl rfl rfl) hsent
    ackReceiveTime
  rw [onAckFrameEnd_eq c hacked, hhandled]
  simp only [Option.bind_eq_bind, Option.bind_some, postProcessAfterMarkingPacketHandled, hdetected]
  exact ⟨_, rfl⟩

end End
end QuicSentPacketManager
end CongestionResponse.SentPackets
