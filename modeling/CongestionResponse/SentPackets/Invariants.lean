import CongestionResponse.SentPackets.NewlyAcked
import CongestionResponse.SentPackets.Settling

/-! What holds of the manager between any two of its calls.

`Managed` ties the manager's own records to the unacked packets: the numbers it has recorded as
acked are those of the packets that are settled, a packet that waits to be sent again has data,
and a packet with data is in flight or waits. Every call keeps it, and has a result as long as
the packets it is told about are tracked. -/
namespace CongestionResponse.SentPackets
open Quic Framer QuicUnackedPacketMap

variable {φ σ : Type}

namespace QuicSentPacketManager

structure Managed (s : QuicSentPacketManager φ σ) : Prop where
  tracks : s.unackedPackets.Tracks
  acked : ∀ n info, s.unackedPackets.getTransmissionInfo n = some info →
    (n ∈ s.lastAckFrame.packets ↔ info.state = .acked)
  sent : ∀ n ∈ s.lastAckFrame.packets, n ≤ s.unackedPackets.largestSentPacket
  pending : ∀ entry ∈ s.pendingRetransmissions, ∃ info,
    s.unackedPackets.getTransmissionInfo entry.1 = some info ∧ info.retransmittableFrames ≠ []
  nodup : (s.pendingRetransmissions.map Prod.fst).Nodup
  held : ∀ n info, s.unackedPackets.getTransmissionInfo n = some info →
    info.retransmittableFrames ≠ [] →
      info.inFlight = true ∨ n ∈ s.pendingRetransmissions.map Prod.fst
  level : s.Level

theorem managed_new (lossAlgorithm : GeneralLossAlgorithm) (sendAlgorithm : σ) :
    (new lossAlgorithm sendAlgorithm : QuicSentPacketManager φ σ).Managed := by
  have hnone : ∀ n info, (QuicUnackedPacketMap.new (φ := φ)).getTransmissionInfo n ≠ some info := by
    intro n info hn
    have hbounds := tracks_new.bounds hn
    have hstart := hbounds.1
    have hend : n ≤ 0 := hbounds.2
    have hfirst : (QuicUnackedPacketMap.new (φ := φ)).getLeastUnacked = 1 := rfl
    omega
  exact ⟨tracks_new, fun n info hn => absurd hn (hnone n info),
    fun n hn => absurd hn (PacketNumberQueue.not_mem_empty n),
    fun _ hentry => absurd hentry List.not_mem_nil, List.nodup_nil,
    fun n info hn => absurd hn (hnone n info), rfl⟩

variable {c : Config φ σ} {s s' : QuicSentPacketManager φ σ} {n : Nat}
  {info : QuicTransmissionInfo φ}

theorem hasRetransmittableFrames_iff :
    hasRetransmittableFrames info = true ↔ info.retransmittableFrames ≠ [] := by
  simp [hasRetransmittableFrames]

/-- `Managed` only speaks of the packets, of what waits, and of what was acked. -/
theorem Managed.congr (h : s.Managed) (hunacked : s'.unackedPackets = s.unackedPackets)
    (hpending : s'.pendingRetransmissions = s.pendingRetransmissions)
    (hacked : s'.lastAckFrame.packets = s.lastAckFrame.packets)
    (hlargest : s'.lastAckFrame.largestAcked = s.lastAckFrame.largestAcked) : s'.Managed := by
  refine ⟨?_, ?_, ?_, ?_, ?_, ?_, ?_⟩
  · exact hunacked ▸ h.tracks
  · rw [hunacked, hacked]
    exact h.acked
  · rw [hunacked, hacked]
    exact h.sent
  · rw [hunacked, hpending]
    exact h.pending
  · rw [hpending]
    exact h.nodup
  · rw [hunacked, hpending]
    exact h.held
  · rw [Level, hunacked, hlargest]
    exact h.level

/-! ### Losses -/

/-- A packet without data leaves the flight, or one whose data waits. -/
theorem Managed.removeFromInFlight (h : s.Managed)
    (hn : s.unackedPackets.getTransmissionInfo n = some info)
    {pending : List (Nat × TransmissionType)}
    (hpending : ∀ entry ∈ pending, ∃ info,
      s.unackedPackets.getTransmissionInfo entry.1 = some info ∧ info.retransmittableFrames ≠ [])
    (hnodup : (pending.map Prod.fst).Nodup)
    (hmono : ∀ k ∈ s.pendingRetransmissions.map Prod.fst, k ∈ pending.map Prod.fst)
    (hwaits : info.retransmittableFrames ≠ [] → n ∈ pending.map Prod.fst) :
    (s.withPackets (s.unackedPackets.removeFromInFlight n) pending).Managed := by
  have hchanged := changed_removeFromInFlight hn
  refine ⟨h.tracks.removeFromInFlight hn, fun k info' hk => ?_, fun k hk => ?_,
    fun entry hentry => ?_, hnodup, fun k info' hk hframes => ?_,
    h.level.trans hchanged.largestAcked.symm⟩
  · rw [show (s.withPackets (s.unackedPackets.removeFromInFlight n) pending).unackedPackets =
      s.unackedPackets.removeFromInFlight n from rfl, hchanged.infos] at hk
    obtain ⟨before, hbefore, rfl⟩ := Option.map_eq_some_iff.mp hk
    refine (h.acked k before hbefore).trans ?_
    unfold atNumber
    split <;> exact Iff.rfl
  · exact Nat.le_trans (h.sent k hk) (Nat.le_of_eq hchanged.largestSent.symm)
  · obtain ⟨before, hbefore, hframes⟩ := hpending entry hentry
    refine ⟨atNumber n outOfFlight entry.1 before, ?_, ?_⟩
    · exact (hchanged.infos entry.1).trans (congrArg (Option.map _) hbefore)
    · unfold atNumber
      split <;> exact hframes
  · rw [show (s.withPackets (s.unackedPackets.removeFromInFlight n) pending).unackedPackets =
      s.unackedPackets.removeFromInFlight n from rfl, hchanged.infos] at hk
    obtain ⟨before, hbefore, rfl⟩ := Option.map_eq_some_iff.mp hk
    unfold atNumber at hframes ⊢
    split at hframes
    · rename_i heq
      subst heq
      obtain rfl := Option.some.inj (hn.symm.trans hbefore)
      exact .inr (hwaits hframes)
    · rename_i hne
      rw [if_neg hne]
      exact (h.held k before hbefore hframes).imp_right (hmono k)

theorem Managed.addPending (h : s.Managed)
    (hn : s.unackedPackets.getTransmissionInfo n = some info)
    (hframes : info.retransmittableFrames ≠ []) (transmissionType : TransmissionType) :
    ∀ entry ∈ addPending n transmissionType s.pendingRetransmissions, ∃ info,
      s.unackedPackets.getTransmissionInfo entry.1 = some info ∧
        info.retransmittableFrames ≠ [] := by
  intro entry hentry
  have hfst := mem_addPending_fst.mp (List.mem_map_of_mem (f := Prod.fst) hentry)
  rcases hfst with hfst | hfst
  · obtain ⟨entry', hentry', heq⟩ := List.mem_map.mp hfst
    rw [← heq]
    exact h.pending entry' hentry'
  · rw [hfst]
    exact ⟨info, hn, hframes⟩

/-- A packet with data waits to be sent again while it stays in flight. -/
theorem Managed.withPending (h : s.Managed)
    (hn : s.unackedPackets.getTransmissionInfo n = some info)
    (hframes : info.retransmittableFrames ≠ []) (transmissionType : TransmissionType) :
    (s.withPackets s.unackedPackets
      (QuicSentPacketManager.addPending n transmissionType s.pendingRetransmissions)).Managed :=
  ⟨h.tracks, h.acked, h.sent, h.addPending hn hframes transmissionType, nodup_addPending h.nodup,
    fun k info' hk hframes' => (h.held k info' hk hframes').imp_right
      fun hk => mem_addPending_fst.mpr (.inl hk), h.level⟩

theorem Managed.handleLoss (h : s.Managed)
    (hn : s.unackedPackets.getTransmissionInfo n = some info) :
    (s.withPackets (s.unackedPackets.removeFromInFlight n)
      (if hasRetransmittableFrames info then
        QuicSentPacketManager.addPending n .lossRetransmission s.pendingRetransmissions
      else s.pendingRetransmissions)).Managed := by
  split
  · rename_i hframes
    have hframes := hasRetransmittableFrames_iff.mp hframes
    exact h.removeFromInFlight hn (h.addPending hn hframes _) (nodup_addPending h.nodup)
      (fun k hk => mem_addPending_fst.mpr (.inl hk)) fun _ => mem_addPending_fst.mpr (.inr rfl)
  · rename_i hframes
    exact h.removeFromInFlight hn h.pending h.nodup (fun _ hk => hk) fun hne =>
      absurd (hasRetransmittableFrames_iff.mpr hne) hframes

/-! ### Acks -/

/-- A packet that was handled is settled, and so it is recorded as acked. -/
theorem Managed.handled (h : s.Managed) {noted : QuicSentPacketManager φ σ}
    (hunacked : noted.unackedPackets = s.unackedPackets)
    (hpending : noted.pendingRetransmissions = s.pendingRetransmissions)
    (hlargest : noted.lastAckFrame.largestAcked = s.lastAckFrame.largestAcked)
    (hn : s.unackedPackets.getTransmissionInfo n = some info)
    {newest : Nat} {cut : Nat → Bool} (hhandled : Handled noted s' n info newest cut)
    (hpackets : ∀ k, k ∈ s'.lastAckFrame.packets ↔ k = n ∨ k ∈ s.lastAckFrame.packets) :
    s'.Managed := by
  have hpending' : s'.pendingRetransmissions = erasePending newest s.pendingRetransmissions := by
    rw [hhandled.eq, hpending]
  have hchanged := hhandled.changed
  rw [hunacked] at hchanged
  refine ⟨hhandled.tracks, fun k info' hk => ?_, fun k hk => ?_, fun entry hentry => ?_, ?_,
    fun k info' hk hframes => ?_, ?_⟩
  · rw [hchanged.infos] at hk
    obtain ⟨before, hbefore, rfl⟩ := Option.map_eq_some_iff.mp hk
    rw [hpackets, h.acked k before hbefore]
    show _ ↔ (if k = n then SentPacketState.acked else before.state) = _
    split
    · rename_i heq
      exact iff_of_true (.inl heq) rfl
    · rename_i hne
      exact or_iff_right hne
  · rw [hchanged.largestSent]
    rcases (hpackets k).mp hk with rfl | hk
    · exact (h.tracks.bounds hn).2
    · exact h.sent k hk
  · rw [hpending'] at hentry
    obtain ⟨hentry, hne⟩ := mem_erasePending.mp hentry
    obtain ⟨before, hbefore, hframes⟩ := h.pending entry hentry
    refine ⟨QuicUnackedPacketMap.handled cut newest n entry.1 before, ?_, ?_⟩
    · rw [hchanged.infos, hbefore]
      rfl
    · show (if entry.1 = newest then [] else before.retransmittableFrames) ≠ []
      rw [if_neg hne]
      exact hframes
  · rw [hpending']
    exact nodup_erasePending h.nodup
  · have hsound := hhandled.tracks.sound k info' hk
    rw [hchanged.infos] at hk
    obtain ⟨before, hbefore, rfl⟩ := Option.map_eq_some_iff.mp hk
    have hne : k ≠ newest := by
      rintro rfl
      exact hframes (if_pos rfl)
    have hsame : (QuicUnackedPacketMap.handled cut newest n k before).retransmittableFrames =
        before.retransmittableFrames := if_neg hne
    have hkn : k ≠ n := by
      rintro rfl
      exact hframes (hsound.settled (if_pos rfl)).2.2
    rw [hsame] at hframes
    rcases h.held k before hbefore hframes with hin | hwaits
    · refine .inl ?_
      show (if k = n then false else before.inFlight) = true
      rw [if_neg hkn]
      exact hin
    · refine .inr ?_
      rw [hpending']
      obtain ⟨entry, hentry, rfl⟩ := List.mem_map.mp hwaits
      exact List.mem_map_of_mem (mem_erasePending.mpr ⟨hentry, hne⟩)
  · rw [Level, hchanged.largestAcked, hhandled.eq]
    exact hlargest.trans h.level

/-! ### Packets on their way out

Apart from sending, nothing the manager does gives a packet data, a link or its flight back. -/

/-- A packet only loses what makes it useful. -/
structure Wanes (info info' : QuicTransmissionInfo φ) : Prop where
  bytesSent : info'.bytesSent = info.bytesSent
  sentTime : info'.sentTime = info.sentTime
  inFlight : info'.inFlight = true → info.inFlight = true
  frames : info'.retransmittableFrames = info.retransmittableFrames ∨
    info'.retransmittableFrames = []
  link : info'.retransmission = info.retransmission ∨ info'.retransmission = 0
  state : info'.state = info.state ∨ info'.state = .acked

theorem Wanes.refl (info : QuicTransmissionInfo φ) : Wanes info info :=
  ⟨rfl, rfl, id, .inl rfl, .inl rfl, .inl rfl⟩

theorem Wanes.trans {info info' info'' : QuicTransmissionInfo φ} (h : Wanes info info')
    (h' : Wanes info' info'') : Wanes info info'' where
  bytesSent := h'.bytesSent.trans h.bytesSent
  sentTime := h'.sentTime.trans h.sentTime
  inFlight := h.inFlight ∘ h'.inFlight
  frames := by
    rcases h'.frames with heq | heq
    · exact h.frames.imp heq.trans heq.trans
    · exact .inr heq
  link := by
    rcases h'.link with heq | heq
    · exact h.link.imp heq.trans heq.trans
    · exact .inr heq
  state := by
    rcases h'.state with heq | heq
    · exact h.state.imp heq.trans heq.trans
    · exact .inr heq

/-- Every packet of a map only loses what makes it useful. -/
def Fades (m m' : QuicUnackedPacketMap φ) : Prop :=
  ∃ g, Changed g m m' ∧ ∀ k info, Wanes info (g k info)

theorem Fades.refl (m : QuicUnackedPacketMap φ) : Fades m m :=
  ⟨fun _ => id, Changed.refl m, fun _ info => Wanes.refl info⟩

theorem Fades.trans {m m' m'' : QuicUnackedPacketMap φ} (h : Fades m m') (h' : Fades m' m'') :
    Fades m m'' := by
  obtain ⟨g, hchanged, hwanes⟩ := h
  obtain ⟨g', hchanged', hwanes'⟩ := h'
  exact ⟨_, hchanged.trans hchanged', fun k info => (hwanes k info).trans (hwanes' k _)⟩

theorem fades_removeFromInFlight {m : QuicUnackedPacketMap φ}
    (hn : m.getTransmissionInfo n = some info) : Fades m (m.removeFromInFlight n) := by
  refine ⟨_, changed_removeFromInFlight hn, fun k info' => ?_⟩
  unfold atNumber
  split
  · exact ⟨rfl, rfl, fun hin => absurd hin Bool.false_ne_true, .inl rfl, .inl rfl, .inl rfl⟩
  · exact Wanes.refl info'

theorem Handled.fades {newest : Nat} {cut : Nat → Bool} (h : Handled s s' n info newest cut) :
    Fades s.unackedPackets s'.unackedPackets := by
  refine ⟨_, h.changed, fun k info' => ⟨rfl, rfl, fun hin => ?_, ?_, ?_, ?_⟩⟩
  · unfold QuicUnackedPacketMap.handled at hin
    dsimp only at hin
    split at hin
    · cases hin
    · exact hin
  · unfold QuicUnackedPacketMap.handled
    dsimp only
    split
    · exact .inr rfl
    · exact .inl rfl
  · unfold QuicUnackedPacketMap.handled
    dsimp only
    split
    · exact .inr rfl
    · exact .inl rfl
  · unfold QuicUnackedPacketMap.handled
    dsimp only
    split
    · exact .inr rfl
    · exact .inl rfl

section Fades
variable {m m' : QuicUnackedPacketMap φ}

theorem Fades.least (h : Fades m m') : m'.getLeastUnacked = m.getLeastUnacked := by
  obtain ⟨_, hchanged, _⟩ := h
  exact hchanged.least

theorem Fades.largestSent (h : Fades m m') : m'.largestSentPacket = m.largestSentPacket := by
  obtain ⟨_, hchanged, _⟩ := h
  exact hchanged.largestSent

theorem Fades.largestAcked (h : Fades m m') : m'.largestAcked = m.largestAcked := by
  obtain ⟨_, hchanged, _⟩ := h
  exact hchanged.largestAcked

theorem Fades.exists_after (h : Fades m m') (hn : m.getTransmissionInfo n = some info) :
    ∃ info', m'.getTransmissionInfo n = some info' ∧ Wanes info info' := by
  obtain ⟨g, hchanged, hwanes⟩ := h
  exact ⟨g n info, by rw [hchanged.infos, hn]; rfl, hwanes n info⟩

theorem Fades.exists_before (h : Fades m m') {info' : QuicTransmissionInfo φ}
    (hn : m'.getTransmissionInfo n = some info') :
    ∃ info, m.getTransmissionInfo n = some info ∧ Wanes info info' := by
  obtain ⟨g, hchanged, hwanes⟩ := h
  rw [hchanged.infos] at hn
  obtain ⟨info, hinfo, rfl⟩ := Option.map_eq_some_iff.mp hn
  exact ⟨info, hinfo, hwanes n info⟩

/-- No link is new. -/
theorem Fades.linked (h : Fades m m') {k : Nat} (hlink : m'.Linked n k) : m.Linked n k := by
  obtain ⟨info', hn, hne, hk⟩ := hlink
  obtain ⟨info, hinfo, hwanes⟩ := h.exists_before hn
  have hsame := hwanes.link.resolve_right hne
  exact ⟨info, hinfo, hsame ▸ hne, hsame ▸ hk⟩

end Fades
end QuicSentPacketManager
end CongestionResponse.SentPackets
