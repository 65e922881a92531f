import CongestionResponse.SentPackets.Runs

/-! Every packet is credited once, and what is acked is let go.

A frame acks only packets that were not acked before, and it settles those. So no packet is
reported to the congestion controller as acked twice, as long as every tracked packet was really
sent: numbers that were skipped, and packets whose data was sent again without a link, are never
settled and would be reported with every frame that names them. When the packets up to some number
are acked, the least unacked packet is behind them; when all of them are, nothing is in flight and
nothing waits. -/
namespace CongestionResponse.SentPackets
open Lib Quic Framer QuicUnackedPacketMap

variable {φ σ : Type}

namespace QuicSentPacketManager

/-- The packets that were reported as acked, each once, are settled. -/
structure Credits (s : QuicSentPacketManager φ σ) : Prop where
  plain : ∀ n info, s.unackedPackets.getTransmissionInfo n = some info →
    info.state = .outstanding ∨ info.state = .acked
  nodup : (ackedNumbers s.congestionEvents).Nodup
  settled : ∀ n ∈ ackedNumbers s.congestionEvents, n ≤ s.unackedPackets.largestSentPacket ∧
    ∀ info, s.unackedPackets.getTransmissionInfo n = some info → info.state = .acked

theorem credits_new (a : GeneralLossAlgorithm) (sendAlgorithm : σ) :
    Credits (new a sendAlgorithm : QuicSentPacketManager φ σ) := by
  have hmanaged := managed_new (φ := φ) a sendAlgorithm
  refine ⟨fun n info hn => ?_, List.nodup_nil, fun _ hn => absurd hn List.not_mem_nil⟩
  have hbounds := hmanaged.tracks.bounds hn
  have hend : n ≤ 0 := hbounds.2
  have hstart := hmanaged.tracks.start
  omega

section Step
variable {c : Config φ σ} {s s' : QuicSentPacketManager φ σ} {inputs : List (Input φ)}
  {told reported : Nat → Prop} {frame : AckCalls}

theorem Wanes.acked {info info' : QuicTransmissionInfo φ} (h : Wanes info info')
    (hinfo : info.state = .acked) : info'.state = .acked :=
  h.state.elim (·.trans hinfo) id

theorem Credits.plain_of_recedes (h : Credits s) (hrecedes : Recedes reported s s') :
    ∀ n info, s'.unackedPackets.getTransmissionInfo n = some info →
      info.state = .outstanding ∨ info.state = .acked := by
  intro n info' hn
  obtain ⟨info, hinfo, hwanes⟩ := hrecedes.infos n info' hn
  rcases hwanes.state with hsame | hacked
  · exact hsame ▸ h.plain n info hinfo
  · exact .inr hacked

/-- What was settled stays so. -/
theorem Credits.settled_of_recedes (h : Credits s) (hrecedes : Recedes reported s s') {n : Nat}
    (hn : n ∈ ackedNumbers s.congestionEvents) : n ≤ s'.unackedPackets.largestSentPacket ∧
      ∀ info, s'.unackedPackets.getTransmissionInfo n = some info → info.state = .acked := by
  obtain ⟨hle, hsettled⟩ := h.settled n hn
  refine ⟨Nat.le_trans hle (Nat.le_of_eq hrecedes.largestSent.symm), fun info' hinfo' => ?_⟩
  obtain ⟨info, hinfo, hwanes⟩ := hrecedes.infos n info' hinfo'
  exact hwanes.acked (hsettled info hinfo)

theorem Credits.recedes (h : Credits s) (hrecedes : Recedes reported s s')
    (hevents : ackedNumbers s'.congestionEvents = ackedNumbers s.congestionEvents) :
    Credits s' := by
  refine ⟨h.plain_of_recedes hrecedes, ?_, fun n hn => ?_⟩
  · rw [hevents]
    exact h.nodup
  · rw [hevents] at hn
    exact h.settled_of_recedes hrecedes hn

theorem Credits.timer (h : Credits s) (hnil : s.packetsAcked = []) (htimes : Times s s') :
    Credits s' := by
  refine h.recedes htimes.recedes ?_
  have hcredits := htimes.credits
  have hnil' : s'.packetsAcked = [] := htimes.packetsAcked.elim (·.trans hnil) id
  rw [hnil, hnil', List.map_nil, List.append_nil, List.append_nil] at hcredits
  exact hcredits

/-- The packet with the next number is sent. -/
theorem Credits.sends (h : Credits s) {packet : SerializedPacket φ} {o : Nat} {sentTime : Int}
    {transmissionType : TransmissionType} {hasData : Bool}
    (hsends : Sends s s' packet o sentTime transmissionType hasData)
    (hnext : packet.packetNumber = s.unackedPackets.largestSentPacket + 1)
    (hlinks : unlinks transmissionType = false) : Credits s' := by
  -- No number is skipped, and no packet loses its state.
  have hstates : ∀ n info', s'.unackedPackets.getTransmissionInfo n = some info' →
      n = packet.packetNumber ∧ info'.state = .outstanding ∨
      ∃ info, s.unackedPackets.getTransmissionInfo n = some info ∧ info'.state = info.state := by
    intro n info' hn
    rcases hsends.states n info' hn with hentered | ⟨hlt, hne⟩ | ⟨info, hinfo, hstate⟩
    · exact .inl hentered
    · have hle := (hsends.managed.tracks.bounds hn).2
      rw [hsends.largestSent] at hle
      omega
    · refine .inr ⟨info, hinfo, hstate.resolve_right fun hunlinks => ?_⟩
      rw [hlinks] at hunlinks
      cases hunlinks
  refine ⟨fun n info' hn => ?_, hsends.events ▸ h.nodup, fun n hn => ?_⟩
  · rcases hstates n info' hn with ⟨-, hstate⟩ | ⟨info, hinfo, hsame⟩
    · exact .inl hstate
    · exact hsame ▸ h.plain n info hinfo
  · obtain ⟨hle, hsettled⟩ := h.settled n (hsends.events ▸ hn)
    rw [hsends.largestSent]
    refine ⟨by omega, fun info' hinfo' => ?_⟩
    rcases hstates n info' hinfo' with ⟨heq, -⟩ | ⟨info, hinfo, hsame⟩
    · omega
    · exact hsame.trans (hsettled info hinfo)

/-- What a frame that is handed on to its end acks. -/
structure Acknowledges (s s' : QuicSentPacketManager φ σ) (ranges : List (Nat × Nat)) : Prop where
  credits : Credits s'
  acked : ∀ n, InRanges ranges n → s.getLeastUnacked ≤ n →
    ∀ info, s'.unackedPackets.getTransmissionInfo n = some info → info.state = .acked
  largest : ∀ n, InRanges ranges n → n ≤ s'.unackedPackets.largestAcked
  recedes : Recedes (fun _ => True) s s'
  first : s'.FirstUseful

theorem Credits.ends (h : Credits s) (hready : Ready told inputs s) (hframe : Ranges frame.ranges)
    (hsent : ∀ r ∈ frame.ranges, r.2 ≤ s.unackedPackets.largestSentPacket + 1)
    (hrun : (s.openFrame c frame).onAckFrameEnd c frame.ackReceiveTime frame.now = some s') :
    Acknowledges s s' frame.ranges := by
  obtain ⟨numbers, hopened⟩ := hready.opened (c := c) hframe hsent
  obtain ⟨hends, -, hsettled⟩ :=
    of_onAckFrameEnd hopened.recedes.managed hopened.packetsAcked hrun
  have hrecedes : Recedes (· ∈ numbers) s s' :=
    (hopened.recedes.mono fun _ hfalse => hfalse.elim).trans hends.recedes
  have hplain := h.plain_of_recedes hrecedes
  -- Every packet that is newly acked is settled by the frame.
  have hnumbers : ∀ n ∈ numbers, ∀ info, s'.unackedPackets.getTransmissionInfo n = some info →
      info.state = .acked := by
    intro n hn info hinfo
    refine (hplain n info hinfo).resolve_left fun houtstanding => ?_
    have hnot := hsettled n hn info hinfo
    rw [houtstanding] at hnot
    cases hnot
  have hcredits : (ackedNumbers s'.congestionEvents).Perm
      (ackedNumbers s.congestionEvents ++ numbers) := by
    have hcredits := hends.credits
    rw [hopened.events, hopened.packetsAcked, List.map_map] at hcredits
    simpa [Function.comp_def] using hcredits
  refine ⟨⟨hplain, ?_, fun n hn => ?_⟩, fun n hn hleast info' hinfo' => ?_, ?_,
    hrecedes.mono fun _ _ => trivial, hends.first⟩
  · rw [hcredits.nodup_iff, List.nodup_append]
    refine ⟨h.nodup, hopened.sorted.imp fun hgt => Nat.ne_of_gt hgt, fun n hbefore k hk heq => ?_⟩
    subst heq
    -- A packet that was reported before is settled, and so not newly acked.
    obtain ⟨-, -, hnew⟩ := (hopened.mem n).mp hk
    obtain ⟨info, hinfo⟩ := hopened.tracked n hk
    obtain ⟨before, hbefore', -⟩ := hopened.recedes.infos n info hinfo
    exact hnew ((hready.ledger.managed.acked n before hbefore').mpr
      ((h.settled n hbefore).2 before hbefore'))
  · rcases List.mem_append.mp (hcredits.mem_iff.mp hn) with hn | hn
    · exact h.settled_of_recedes hrecedes hn
    · obtain ⟨info, hinfo⟩ := hopened.tracked n hn
      have hle := (hopened.recedes.managed.tracks.bounds hinfo).2
      rw [← hends.recedes.largestSent] at hle
      exact ⟨hle, hnumbers n hn⟩
  · by_cases hbefore : n ∈ s.lastAckFrame.packets
    · obtain ⟨info, hinfo, hwanes⟩ := hrecedes.infos n info' hinfo'
      exact hwanes.acked ((hready.ledger.managed.acked n info hinfo).mp hbefore)
    · exact hnumbers n ((hopened.mem n).mpr ⟨hn, hleast, hbefore⟩) info' hinfo'
  · rintro n ⟨r, hr, -, hlt⟩
    have hlargest := hopened.largest r hr
    have hmono := hends.recedes.largestAcked
    omega

theorem Credits.acked (h : Credits s) (hready : Ready told inputs s) (hframe : Ranges frame.ranges)
    (hcomplete : s.Complete (.acked frame)) (hrun : s.onAckFrame c frame = some s') :
    Credits s' := by
  unfold onAckFrame at hrun
  split at hrun
  · exact (h.ends hready hframe hcomplete.2 hrun).credits
  · cases hrun
    obtain ⟨numbers, hopened⟩ := hready.opened (c := c) hframe hcomplete.2
    exact h.recedes hopened.recedes (by rw [hopened.events])

/-! ### What is let go -/

/-- A packet that is acked is of no use. -/
theorem useless_of_acked (h : s.Managed) {n : Nat} {info : QuicTransmissionInfo φ}
    (hn : s.unackedPackets.getTransmissionInfo n = some info) (hacked : info.state = .acked) :
    s.unackedPackets.isPacketUseless n info = true := by
  obtain ⟨hflight, hlink, hframes⟩ := (h.tracks.sound n info hn).settled hacked
  refine (isPacketUseless_iff _ _ _).mpr ⟨fun hackable => ?_, hflight, ?_, hframes⟩
  · rw [hacked] at hackable
    cases hackable
  · rw [hlink]
    exact Nat.zero_le _

/-- The least unacked packet is behind those that are of no use. -/
theorem le_getLeastUnacked (h : s.Managed) (hfirst : s.FirstUseful) {q : Nat}
    (hq : q ≤ s.unackedPackets.largestSentPacket + 1)
    (huseless : ∀ n < q, ∀ info, s.unackedPackets.getTransmissionInfo n = some info →
      s.unackedPackets.isPacketUseless n info = true) : q ≤ s.getLeastUnacked := by
  by_contra hlt
  have hlt := Nat.not_le.mp hlt
  obtain ⟨info, hinfo⟩ := h.tracks.exists_info (Nat.le_refl s.getLeastUnacked) (by omega)
  have huseless := huseless _ hlt info hinfo
  rw [hfirst info hinfo] at huseless
  cases huseless

/-- The packet `k` has left the flight, and its data was sent again in a packet before `q`. -/
def givenUp (s : QuicSentPacketManager φ σ) (q k : Nat) : Bool :=
  (s.unackedPackets.getTransmissionInfo k).any fun info =>
    !info.inFlight && info.retransmittableFrames.isEmpty &&
      decide (info.retransmission ≠ 0 ∧ info.retransmission < q)

theorem givenUp_iff {q k : Nat} : s.givenUp q k = true ↔
    ∃ info, s.unackedPackets.getTransmissionInfo k = some info ∧ info.inFlight = false ∧
      info.retransmittableFrames = [] ∧ info.retransmission ≠ 0 ∧ info.retransmission < q := by
  simp [givenUp, Option.any_eq_true, and_assoc]

/-- Where data was sent again the links lead to a packet that was not given up. -/
theorem exists_named (h : s.Managed) {q : Nat} {named : Nat → Prop}
    (hall : ∀ k < q, s.getLeastUnacked ≤ k → named k ∨ s.givenUp q k = true) {k : Nat} (hlt : k < q)
    (hle : s.getLeastUnacked ≤ k) : ∃ n, k ≤ n ∧ named n := by
  -- The induction is on the distance to `q`.
  induction hd : q - k using Nat.strongRecOn generalizing k with
  | ind d ih =>
    rcases hall k hlt hle with hnamed | hgiven
    · exact ⟨k, Nat.le_refl k, hnamed⟩
    · obtain ⟨info, hinfo, -, -, hne, hlink⟩ := givenUp_iff.mp hgiven
      obtain ⟨hgt, -, -⟩ := (h.tracks.sound k info hinfo).link hne
      obtain ⟨n, hn, hnamed⟩ := ih (q - info.retransmission) (by omega) hlink (by omega) rfl
      exact ⟨n, by omega, hnamed⟩

/-- A frame that names every packet below `q` that was not given up lets all of them go. -/
theorem Acknowledges.le_least {ranges : List (Nat × Nat)} (h : Acknowledges s s' ranges)
    (hs : s.Managed) {q : Nat} (hq : q ≤ s.unackedPackets.largestSentPacket + 1)
    (hall : ∀ k < q, s.getLeastUnacked ≤ k → InRanges ranges k ∨ s.givenUp q k = true) :
    q ≤ s'.getLeastUnacked := by
  have hlargest : ∀ k < q, s.getLeastUnacked ≤ k → k ≤ s'.unackedPackets.largestAcked := by
    intro k hlt hle
    obtain ⟨n, hn, hnamed⟩ := exists_named hs hall hlt hle
    exact Nat.le_trans hn (h.largest n hnamed)
  refine le_getLeastUnacked h.recedes.managed h.first (h.recedes.largestSent ▸ hq)
    fun n hlt info' hinfo' => ?_
  obtain ⟨info, hinfo, hwanes⟩ := h.recedes.infos n info' hinfo'
  have hleast := (hs.tracks.bounds hinfo).1
  rcases hall n hlt hleast with hnamed | hgiven
  · exact useless_of_acked h.recedes.managed hinfo' (h.acked n hnamed hleast info' hinfo')
  · obtain ⟨before, hbefore, hflight, hframes, hne, hlink⟩ := givenUp_iff.mp hgiven
    obtain rfl := Option.some.inj (hinfo.symm.trans hbefore)
    obtain ⟨hgt, -, -⟩ := (hs.tracks.sound n info hinfo).link hne
    refine (isPacketUseless_iff _ _ _).mpr ⟨fun _ => hlargest n hlt hleast, ?_, ?_, ?_⟩
    · exact Bool.eq_false_iff.mpr fun hin => Bool.false_ne_true (hflight ▸ hwanes.inFlight hin)
    · rcases hwanes.link with hsame | hzero
      · rw [hsame]
        exact hlargest _ hlink (Nat.le_trans hleast (Nat.le_of_lt hgt))
      · rw [hzero]
        exact Nat.zero_le _
    · exact hwanes.frames.elim (·.trans hframes) id

/-- When no packet is tracked, nothing is in flight and nothing waits. -/
theorem idle_of_getLeastUnacked (h : s.Managed)
    (hleast : s.getLeastUnacked = s.unackedPackets.largestSentPacket + 1) :
    s.unackedPackets.bytesInFlight = 0 ∧ s.pendingRetransmissions = [] := by
  have hnone : ∀ n info, s.unackedPackets.getTransmissionInfo n ≠ some info := by
    intro n info hn
    have hbounds := h.tracks.bounds hn
    have hfirst : s.unackedPackets.getLeastUnacked = s.getLeastUnacked := rfl
    omega
  have hitems : s.unackedPackets.unackedPackets.items = [] := by
    have hspan := h.tracks.span
    unfold NumberedQueue.next at hspan
    have hfirst : s.unackedPackets.unackedPackets.first = s.getLeastUnacked := rfl
    exact List.length_eq_zero_iff.mp (by omega)
  refine ⟨?_, List.eq_nil_iff_forall_not_mem.mpr fun entry hentry => ?_⟩
  · rw [h.tracks.flight, inFlightBytes, NumberedQueue.total, hitems]
    rfl
  · obtain ⟨info, hinfo, -⟩ := h.pending entry hentry
    exact hnone _ info hinfo

end Step

/-! ### Runs -/

/-- Packets are sent with one number after the other, and linked to those whose data they take. -/
def Successive (s : QuicSentPacketManager φ σ) : Input φ → Prop
  | .sent packet _ _ transmissionType _ =>
    packet.packetNumber = s.unackedPackets.largestSentPacket + 1 ∧
      unlinks transmissionType = false
  | _ => True

instance (s : QuicSentPacketManager φ σ) : (e : Input φ) → Decidable (s.Successive e)
  | .sent .. => inferInstanceAs (Decidable (_ ∧ _))
  | .acked _ => isTrue trivial
  | .timeout _ => isTrue trivial
  | .probe => isTrue trivial

section Runs
variable {c : Config φ σ} {a : GeneralLossAlgorithm} {sendAlgorithm : σ}
  {inputs : List (Input φ)} {s s' : QuicSentPacketManager φ σ} {told : Nat → Prop}

theorem Credits.step (h : Credits s) (hready : Ready told inputs s) {e : Input φ}
    (hproper : s.Proper e) (hcomplete : s.Complete e) (hsuccessive : s.Successive e)
    (hrun : s.step c e = some s') : Credits s' := by
  have hmanaged := hready.ledger.managed
  cases e with
  | sent packet o sentTime transmissionType hasData =>
    obtain ⟨s₁, hrun₁, hsends⟩ := exists_onPacketSent (c := c) hmanaged hproper
    obtain rfl := Option.some.inj (hrun.symm.trans hrun₁)
    exact h.sends hsends hsuccessive.1 hsuccessive.2
  | acked frame => exact h.acked hready hproper hcomplete hrun
  | timeout now =>
    have hzero : ackedBytes s.packetsAcked = 0 := by
      rw [hready.packetsAcked]
      rfl
    exact h.timer hready.packetsAcked (of_onRetransmissionTimeout hmanaged hzero hrun)
  | probe =>
    obtain ⟨probed, s₁, hrun₁, htimes⟩ := exists_maybeRetransmitTailLossProbe (c := c) hmanaged
    have hprobe : s.step c .probe = some s₁ := by
      show (s.maybeRetransmitTailLossProbe c).map Prod.snd = _
      rw [hrun₁]
      rfl
    obtain rfl := Option.some.inj (hrun.symm.trans hprobe)
    exact h.timer hready.packetsAcked htimes

/-- **No packet is reported as acked twice**, and none that was reported is still in flight or
waits to be sent again. -/
theorem credited_once (hproper : ProperRun c a sendAlgorithm inputs)
    (hcomplete : Throughout (fun past e =>
      ∀ s ∈ after c a sendAlgorithm past, s.Complete e ∧ s.Successive e) inputs)
    (hrun : after c a sendAlgorithm inputs = some s) :
    (ackedNumbers s.congestionEvents).Nodup ∧ ∀ n ∈ ackedNumbers s.congestionEvents,
      n ∉ s.pendingRetransmissions.map Prod.fst ∧
      ∀ info, s.unackedPackets.getTransmissionInfo n = some info → info.inFlight = false := by
  have hcredits : ∃ s, after c a sendAlgorithm inputs = some s ∧
      Ready (Reported inputs) inputs s ∧ Credits s := by
    refine tryRun_history (A := fun inputs => ProperRun c a sendAlgorithm inputs ∧
        Throughout (fun past e => ∀ s ∈ after c a sendAlgorithm past,
          s.Complete e ∧ s.Successive e) inputs)
      (P := fun inputs s => Ready (Reported inputs) inputs s ∧ Credits s) ?_
      ⟨⟨ledger_new _ a sendAlgorithm, rfl, Nat.le_refl _⟩, credits_new a sendAlgorithm⟩ ?_ inputs
      ⟨hproper, hcomplete⟩
    · exact fun es e hes => ⟨(throughout_concat.mp hes.1).1, (throughout_concat.mp hes.2).1⟩
    · intro es e s hes hs hinv
      have hproper := (throughout_concat.mp hes.1).2 s hs
      obtain ⟨hcomplete, hsuccessive⟩ := (throughout_concat.mp hes.2).2 s hs
      obtain ⟨s', hstep, hready⟩ := hinv.1.step (c := c) hproper (tells_reported es s e) hcomplete
      exact ⟨s', hstep, hready, hinv.2.step hinv.1 hproper hcomplete hsuccessive hstep⟩
  obtain ⟨s₁, hrun₁, hready, hcredits⟩ := hcredits
  obtain rfl := Option.some.inj (hrun.symm.trans hrun₁)
  have hmanaged := hready.ledger.managed
  refine ⟨hcredits.nodup, fun n hn => ⟨fun hpending => ?_, fun info hinfo => ?_⟩⟩
  · obtain ⟨entry, hentry, rfl⟩ := List.mem_map.mp hpending
    obtain ⟨info, hinfo, hframes⟩ := hmanaged.pending entry hentry
    have hstate := (hcredits.settled _ hn).2 info hinfo
    exact hframes ((hmanaged.tracks.sound _ info hinfo).settled hstate).2.2
  · have hstate := (hcredits.settled n hn).2 info hinfo
    exact ((hmanaged.tracks.sound n info hinfo).settled hstate).1

theorem credited_once_sampleRun :
    (ackedNumbers ((after idleConfig (.new .nack false false) () sampleRun).get
      sampleRun_ends).congestionEvents).Nodup :=
  (credited_once sampleRun_proper (by decide +kernel) (Option.some_get sampleRun_ends).symm).1

/-- A number that was skipped is reported by every frame that names it. -/
example :
    ((after idleConfig (.new .nack false false) () [
      .sent ⟨1, 1000, [10]⟩ 0 100 .notRetransmission true,
      .sent ⟨3, 1000, [11]⟩ 0 200 .notRetransmission true,
      .acked ⟨2, 0, 50000, 50000, [(2, 3)], true⟩,
      .acked ⟨2, 0, 60000, 60000, [(2, 3)], true⟩]).map fun s =>
        ackedNumbers s.congestionEvents) = some [2, 2] := by decide +kernel

end Runs
end QuicSentPacketManager
end CongestionResponse.SentPackets
