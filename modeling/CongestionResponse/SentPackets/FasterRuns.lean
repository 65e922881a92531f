import CongestionResponse.SentPackets.FasterDetection
import CongestionResponse.SentPackets.Runs

/-! `quic_faster_detect_loss` changes nothing but speed.

Two managers that differ in the flag get the same calls. Apart from the search for losses no call
reads the places where it begins, so all of them commute with a change of these places
(`placed`); and the searches find the same (`detectLosses_placed`). So the managers stay the same
in everything else, whatever is sent and acked (`faster_agrees`). -/
namespace CongestionResponse.SentPackets
open Lib Quic Framer QuicUnackedPacketMap
open GeneralLossAlgorithm (Places Keeps KeepsAfter Ordered)

variable {φ σ : Type}

/-! ### Calls that do not read the places -/

theorem GeneralLossAlgorithm.spuriousRetransmitDetected_placed (fix : Bool)
    (a : GeneralLossAlgorithm) (p : Places) (m : QuicUnackedPacketMap φ) (time : Int)
    (rttStats : RttStats) (n : Nat) :
    (a.placed p).spuriousRetransmitDetected fix m time rttStats n =
      (a.spuriousRetransmitDetected fix m time rttStats n).map (placed p) := by
  unfold spuriousRetransmitDetected
  rw [show (a.placed p).lossType = a.lossType from rfl,
    show (a.placed p).reorderingShift = a.reorderingShift from rfl,
    show (a.placed p).largestSentOnSpuriousRetransmit = a.largestSentOnSpuriousRetransmit from rfl]
  split
  · rfl
  · cases m.getTransmissionInfo n with
    | none => rfl
    | some info =>
      simp only [Option.bind_eq_bind, Option.bind_some]
      split
      · rfl
      · split <;> rfl

namespace QuicSentPacketManager

def placed (p : Places) (s : QuicSentPacketManager φ σ) : QuicSentPacketManager φ σ :=
  {s with lossAlgorithm := s.lossAlgorithm.placed p}

section Commute
variable (c : Config φ σ) (s : QuicSentPacketManager φ σ) (p : Places)

theorem onPacketSent_placed (packet : SerializedPacket φ) (o : Nat) (sentTime : Int)
    (transmissionType : TransmissionType) (hasData : Bool) :
    (s.placed p).onPacketSent c packet o sentTime transmissionType hasData =
      (s.onPacketSent c packet o sentTime transmissionType hasData).map (placed p) := by
  unfold onPacketSent
  rw [show (s.placed p).unackedPackets = s.unackedPackets from rfl]
  cases s.unackedPackets.addSentPacket packet o transmissionType sentTime hasData <;> rfl

theorem onAckRange_placed (start stop : Nat) :
    (s.placed p).onAckRange start stop = (s.onAckRange start stop).placed p := by
  have hadd : ∀ s : QuicSentPacketManager φ σ,
      (s.placed p).addNewlyAcked start stop = (s.addNewlyAcked start stop).placed p := by
    intro s
    unfold addNewlyAcked
    rw [apply_ite (placed p)]
    rfl
  unfold onAckRange
  dsimp only
  rw [← hadd, apply_ite (placed p)]
  rfl

theorem onAckRanges_placed (ranges : List (Nat × Nat)) :
    (s.placed p).onAckRanges ranges = (s.onAckRanges ranges).placed p := by
  induction ranges generalizing s with
  | nil => rfl
  | cons r rest ih =>
    show ((s.placed p).onAckRange r.1 r.2).onAckRanges rest = _
    rw [onAckRange_placed, ih]
    rfl

theorem checkSpurious_placed (now : Int) (n newest : Nat) (info : QuicTransmissionInfo φ) :
    (s.placed p).checkSpurious c now n newest info =
      (s.checkSpurious c now n newest info).map (GeneralLossAlgorithm.placed p) := by
  unfold checkSpurious
  split
  · rfl
  · unfold recordSpuriousRetransmissions
    rw [show (s.placed p).unackedPackets = s.unackedPackets from rfl]
    cases s.unackedPackets.getTransmissionInfo info.retransmission with
    | none => rfl
    | some next =>
      simp only [Option.bind_eq_bind, Option.bind_some]
      split
      · exact GeneralLossAlgorithm.spuriousRetransmitDetected_placed ..
      · rfl

theorem markPacketHandled_placed (now : Int) (n : Nat) :
    (s.placed p).markPacketHandled c now n = (s.markPacketHandled c now n).map (placed p) := by
  unfold markPacketHandled
  rw [show (s.placed p).unackedPackets = s.unackedPackets from rfl]
  cases s.unackedPackets.getTransmissionInfo n with
  | none => rfl
  | some info =>
    simp only [Option.bind_eq_bind, Option.bind_some]
    cases s.unackedPackets.getNewestRetransmission n with
    | none => rfl
    | some newest =>
      simp only [Option.bind_some, checkSpurious_placed]
      cases s.checkSpurious c now n newest info with
      | none => rfl
      | some a =>
        simp only [Option.map_some, Option.bind_some]
        cases (s.unackedPackets.removeFromInFlight n).removeRetransmittability n <;> rfl

theorem noteAcked_placed (n : Nat) (inFlight : Bool) :
    (s.placed p).noteAcked n inFlight = (s.noteAcked n inFlight).placed p := by
  cases inFlight <;> rfl

theorem handleAcked_placed (now : Int) (done : List AckedPacket) (acked : AckedPacket) :
    handleAcked c now (s.placed p, done) acked =
      (handleAcked c now (s, done) acked).map (Prod.map (placed p) id) := by
  unfold handleAcked
  dsimp only
  rw [show (s.placed p).unackedPackets = s.unackedPackets from rfl]
  cases s.unackedPackets.getTransmissionInfo acked.packetNumber with
  | none => rfl
  | some info =>
    simp only [Option.bind_eq_bind, Option.bind_some]
    split
    · show (((s.placed p).noteAcked acked.packetNumber info.inFlight).markPacketHandled c now
        acked.packetNumber).bind _ = Option.map _ (((s.noteAcked acked.packetNumber
          info.inFlight).markPacketHandled c now acked.packetNumber).bind _)
      rw [noteAcked_placed, markPacketHandled_placed]
      cases (s.noteAcked acked.packetNumber info.inFlight).markPacketHandled c now
        acked.packetNumber <;> rfl
    · rfl

theorem handleAckeds_placed (now : Int) (numbers : List Nat) (done : List AckedPacket) :
    handleAckeds c now numbers (s.placed p, done) =
      (handleAckeds c now numbers (s, done)).map (Prod.map (placed p) id) :=
  foldlM_commute (g := Prod.map (placed p) id)
    (fun state acked => handleAcked_placed c state.1 p now state.2 acked) (s, done) _

theorem markForRetransmission_placed (n : Nat) (transmissionType : TransmissionType) :
    (s.placed p).markForRetransmission c n transmissionType =
      (s.markForRetransmission c n transmissionType).map (placed p) := by
  unfold markForRetransmission
  rw [show (s.placed p).unackedPackets = s.unackedPackets from rfl]
  cases s.unackedPackets.getTransmissionInfo n with
  | none => rfl
  | some info =>
    simp only [Option.bind_eq_bind, Option.bind_some]
    split <;> split <;> rfl

theorem handleLoss_placed (packet : LostPacket) :
    (s.placed p).handleLoss c packet = (s.handleLoss c packet).map (placed p) := by
  unfold handleLoss
  rw [show (s.placed p).unackedPackets = s.unackedPackets from rfl]
  cases s.unackedPackets.getTransmissionInfo packet.packetNumber with
  | none => rfl
  | some info =>
    simp only [Option.bind_eq_bind, Option.bind_some]
    split
    · exact markForRetransmission_placed ..
    · rfl

theorem maybeInvokeCongestionEvent_placed (rttUpdated : Bool) (prior : Nat) (eventTime : Int)
    (lost : List LostPacket) :
    (s.placed p).maybeInvokeCongestionEvent c rttUpdated prior eventTime lost =
      (s.maybeInvokeCongestionEvent c rttUpdated prior eventTime lost).placed p := by
  unfold maybeInvokeCongestionEvent
  rw [apply_ite (placed p)]
  rfl

theorem dropObsolete_placed : (s.placed p).dropObsolete c = (s.dropObsolete c).placed p := by
  have hreset : ∀ s : QuicSentPacketManager φ σ,
      (s.placed p).resetTimeouts c = (s.resetTimeouts c).placed p := by
    intro s
    unfold resetTimeouts
    rw [show (s.placed p).rttUpdated = s.rttUpdated from rfl,
      show (s.placed p).consecutiveRtoCount = s.consecutiveRtoCount from rfl,
      show (s.placed p).lastAckFrame = s.lastAckFrame from rfl,
      show (s.placed p).firstRtoTransmission = s.firstRtoTransmission from rfl]
    dsimp only
    split
    · split
      · split
        · rfl
        · split <;> rfl
      · rfl
    · rfl
  have hplaced := hreset (s.setUnacked s.unackedPackets.removeObsoletePackets)
  unfold dropObsolete
  dsimp only
  rw [show (s.placed p).setUnacked (s.placed p).unackedPackets.removeObsoletePackets =
    (s.setUnacked s.unackedPackets.removeObsoletePackets).placed p from rfl, hplaced]
  rfl

theorem handleRto_placed (n : Nat) :
    (s.placed p).handleRto c n = (s.handleRto c n).map (placed p) := by
  unfold handleRto
  rw [show (s.placed p).unackedPackets = s.unackedPackets from rfl,
    show (s.placed p).pendingTimerTransmissionCount = s.pendingTimerTransmissionCount from rfl]
  cases s.unackedPackets.getTransmissionInfo n with
  | none => rfl
  | some info =>
    simp only [Option.bind_eq_bind, Option.bind_some]
    split
    · rw [markForRetransmission_placed]
      cases s.markForRetransmission c n .rtoRetransmission with
      | none => rfl
      | some marked =>
        simp only [Option.map_some, Option.bind_some]
        split <;> rfl
    · split <;> rfl

theorem retransmitRtoPackets_placed :
    (s.placed p).retransmitRtoPackets c = (s.retransmitRtoPackets c).map (placed p) := by
  unfold retransmitRtoPackets
  rw [show (s.placed p).unackedPackets = s.unackedPackets from rfl,
    foldlM_commute (fun s n => handleRto_placed c s p n)]
  cases (packetNumbers s.unackedPackets).foldlM (handleRto c) s with
  | none => rfl
  | some handled =>
    simp only [Option.map_some, Option.bind_eq_bind, Option.bind_some]
    rw [apply_ite (Option.map (placed p))]
    rfl

theorem maybeRetransmitTailLossProbe_placed :
    (s.placed p).maybeRetransmitTailLossProbe c =
      (s.maybeRetransmitTailLossProbe c).map (Prod.map id (placed p)) := by
  unfold maybeRetransmitTailLossProbe
  rw [show (s.placed p).pendingTimerTransmissionCount = s.pendingTimerTransmissionCount from rfl,
    show (s.placed p).oldestRetransmittable = s.oldestRetransmittable from rfl]
  split
  · rfl
  · cases s.oldestRetransmittable with
    | some n =>
      simp only [markForRetransmission_placed]
      cases s.markForRetransmission c n .tlpRetransmission <;> rfl
    | none =>
      dsimp only
      split
      · have hplaced := retransmitRtoPackets_placed c {s with pendingTimerTransmissionCount := 0} p
        show (({s with pendingTimerTransmissionCount := 0}.placed p).retransmitRtoPackets
          c).map _ = _
        rw [hplaced]
        cases {s with pendingTimerTransmissionCount := 0}.retransmitRtoPackets c <;> rfl
      · rfl

end Commute

/-! ### Packets in flight -/

def sendTime : Input φ → Option Int
  | .sent _ _ sentTime _ _ => some sentTime
  | _ => none

/-- What is known of the packets in flight after some inputs. -/
structure Flying (inputs : List (Input φ)) (s : QuicSentPacketManager φ σ) : Prop where
  ackable : ∀ n info, s.unackedPackets.getTransmissionInfo n = some info → info.inFlight = true →
    isAckable info.state = true
  timed : ∀ n info, s.unackedPackets.getTransmissionInfo n = some info → info.inFlight = true →
    info.sentTime ∈ inputs.filterMap sendTime
  ordered : Ordered s.unackedPackets

section Flying
variable {c : Config φ σ} {s s' : QuicSentPacketManager φ σ} {inputs : List (Input φ)}
  {e : Input φ} {p q : Places} {reported : Nat → Prop}

theorem Recedes.flying (h : Recedes reported s s') (hflying : Flying inputs s) :
    Flying inputs s' := by
  have hbefore : ∀ n info', s'.unackedPackets.getTransmissionInfo n = some info' →
      info'.inFlight = true → ∃ info, s.unackedPackets.getTransmissionInfo n = some info ∧
        info.inFlight = true ∧ info'.sentTime = info.sentTime ∧ Wanes info info' := by
    intro n info' hn hin
    obtain ⟨info, hinfo, hwanes⟩ := h.infos n info' hn
    exact ⟨info, hinfo, hwanes.inFlight hin, hwanes.sentTime, hwanes⟩
  refine ⟨fun n info' hn hin => ?_, fun n info' hn hin => ?_, ?_⟩
  · obtain ⟨info, hinfo, hin', -, hwanes⟩ := hbefore n info' hn hin
    rcases hwanes.state with heq | heq
    · rw [heq]
      exact hflying.ackable n info hinfo hin'
    · rw [((h.managed.tracks.sound n info' hn).settled heq).1] at hin
      cases hin
  · obtain ⟨info, hinfo, hin', htime, -⟩ := hbefore n info' hn hin
    rw [htime]
    exact hflying.timed n info hinfo hin'
  · intro n k info info' hn hk hlt hin hin'
    obtain ⟨before, hbefore₁, hin₁, htime₁, -⟩ := hbefore n info hn hin
    obtain ⟨before', hbefore₂, hin₂, htime₂, -⟩ := hbefore k info' hk hin'
    rw [htime₁, htime₂]
    exact hflying.ordered n k before before' hbefore₁ hbefore₂ hlt hin₁ hin₂

theorem Flying.later (h : Flying inputs s) : Flying (inputs ++ [e]) s := by
  refine ⟨h.ackable, fun n info hn hin => ?_, h.ordered⟩
  rw [List.filterMap_append]
  exact List.mem_append_left _ (h.timed n info hn hin)

/-- A packet that is sent at a later time than all before keeps the order. -/
theorem Sends.flying {packet : SerializedPacket φ} {o : Nat} {sentTime : Int}
    {transmissionType : TransmissionType} {hasData : Bool} (hmanaged : s.Managed)
    (h : Sends s s' packet o sentTime transmissionType hasData)
    (hlt : s.unackedPackets.largestSentPacket < packet.packetNumber)
    (hlink : unlinks transmissionType = false)
    (htimes : ∀ time ∈ inputs.filterMap sendTime, time ≤ sentTime) (hflying : Flying inputs s) :
    Flying (inputs ++ [.sent packet o sentTime transmissionType hasData]) s' := by
  refine ⟨fun n info' hn hin => ?_, fun n info' hn hin => ?_, ?_⟩
  · rcases h.flight n info' hn hin with ⟨-, -, hstate⟩ | ⟨info, hinfo, hin', -, hstate⟩
    · rw [hstate]
      rfl
    · rw [hstate.resolve_right (by rw [hlink]; exact Bool.false_ne_true)]
      exact hflying.ackable n info hinfo hin'
  · rw [List.filterMap_append]
    rcases h.flight n info' hn hin with ⟨-, htime, -⟩ | ⟨info, hinfo, hin', htime, -⟩
    · rw [htime]
      exact List.mem_append_right _ (List.mem_singleton_self _)
    · rw [htime]
      exact List.mem_append_left _ (hflying.timed n info hinfo hin')
  · intro n k info info' hn hk hnk hin hin'
    rcases h.flight k info' hk hin' with ⟨rfl, htime, -⟩ | ⟨before', hbefore', hin₂, htime, -⟩
    · rcases h.flight n info hn hin with ⟨heq, -, -⟩ | ⟨before, hbefore, hin₁, htime₁, -⟩
      · omega
      · rw [htime, htime₁]
        exact htimes _ (hflying.timed n before hbefore hin₁)
    · have hle := (hmanaged.tracks.bounds hbefore').2
      rcases h.flight n info hn hin with ⟨heq, -, -⟩ | ⟨before, hbefore, hin₁, htime₁, -⟩
      · omega
      · rw [htime, htime₁]
        exact hflying.ordered n k before before' hbefore hbefore' hnk hin₁ hin₂

/-- A place stays clear as long as nothing is sent. -/
theorem Recedes.keeps (h : Recedes reported s s') (hkeeps : Keeps s.unackedPackets p) :
    Keeps s'.unackedPackets p := by
  refine ⟨fun n info' hn hin => ?_, by rw [h.largestSent]; exact hkeeps.sent⟩
  obtain ⟨info, hinfo, hwanes⟩ := h.infos n info' hn
  exact hkeeps.clear n info hinfo (hwanes.inFlight hin)

theorem Sends.keeps {packet : SerializedPacket φ} {o : Nat} {sentTime : Int}
    {transmissionType : TransmissionType} {hasData : Bool}
    (h : Sends s s' packet o sentTime transmissionType hasData)
    (hlt : s.unackedPackets.largestSentPacket < packet.packetNumber)
    (hkeeps : Keeps s.unackedPackets p) : Keeps s'.unackedPackets p := by
  have hsent := hkeeps.sent
  refine ⟨fun n info' hn hin => ?_, by rw [h.largestSent]; omega⟩
  rcases h.flight n info' hn hin with ⟨rfl, -, -⟩ | ⟨info, hinfo, hin', -, -⟩
  · omega
  · exact hkeeps.clear n info hinfo hin'

end Flying

/-! ### The two managers -/

section Agree
variable {c : Config φ σ} {s s' : QuicSentPacketManager φ σ} {inputs : List (Input φ)}
  {e : Input φ} {q : Places}

/-- Both managers look for losses. -/
theorem invokeLossDetection_placed (h : s.Managed) (hflying : Flying inputs s)
    (hsent : s.largestOf ≤ s.unackedPackets.largestSentPacket) (time : Int)
    (hacks : GeneralLossAlgorithm.Acks ⟨s.unackedPackets, time, s.rttStats, s.largestOf⟩
      s.packetsAcked)
    (hkeeps : Keeps s.unackedPackets s.lossAlgorithm.places) (hq : Keeps s.unackedPackets q) :
    ∃ s' q' lost, s.invokeLossDetection c time = some (s', lost) ∧
      (s.placed q).invokeLossDetection c time = some (s'.placed q', lost) ∧
      Recedes (fun _ => False) s s' ∧ Keeps s'.unackedPackets s'.lossAlgorithm.places ∧
      Keeps s'.unackedPackets q' := by
  have hsearch : GeneralLossAlgorithm.Searchable
      ⟨s.unackedPackets, time, s.rttStats, s.largestOf⟩ := ⟨h.tracks, hflying.ordered, hsent⟩
  obtain ⟨a', q', lost, hdetected, hdetected', ha', hq'⟩ :=
    GeneralLossAlgorithm.detectLosses_placed hsearch hacks hkeeps hq
  have hflight := (GeneralLossAlgorithm.inFlight_detectLosses hdetected).1
  obtain ⟨s', hrun, hloses⟩ := exists_handleLosses (c := c)
    (s := {s with largestNewlyAcked := s.largestOf, lossAlgorithm := a'}) (h.congr rfl rfl rfl rfl)
      hflight
  have halgorithm : s'.lossAlgorithm = a' := by rw [hloses.eq]; rfl
  have hrun' := foldlM_commute (fun s packet => handleLoss_placed c s q' packet)
    {s with largestNewlyAcked := s.largestOf, lossAlgorithm := a'} lost
  rw [hrun, Option.map_some] at hrun'
  refine ⟨s', q', lost, ?_, ?_, ?_, ?_, hq' _ hloses.changed⟩
  · rw [invokeLossDetection, hdetected]
    simp only [Option.bind_eq_bind, Option.bind_some, hrun]
    rfl
  · unfold invokeLossDetection
    rw [show (s.placed q).lossAlgorithm.detectLosses ⟨(s.placed q).unackedPackets, time,
      (s.placed q).rttStats, (s.placed q).largestOf⟩ (s.placed q).packetsAcked =
        some (a'.placed q', lost) from hdetected']
    simp only [Option.bind_eq_bind, Option.bind_some]
    rw [show lost.foldlM (handleLoss c) {s.placed q with
      largestNewlyAcked := (s.placed q).largestOf, lossAlgorithm := a'.placed q'} =
        some (s'.placed q') from hrun']
    rfl
  · refine Recedes.trans (recedes_of_eq _ h ?_ ?_ ?_ ?_) hloses.recedes <;> rfl
  · rw [halgorithm]
    exact ha' _ hloses.changed

/-- What both managers have in common, and where their searches begin. -/
structure Agrees (inputs : List (Input φ)) (s : QuicSentPacketManager φ σ) (q : Places) : Prop where
  ready : Ready (Reported inputs) inputs s
  flying : Flying inputs s
  keeps : Keeps s.unackedPackets s.lossAlgorithm.places
  other : Keeps s.unackedPackets q

/-- A call that commutes with a change of the places leaves them as they are. -/
theorem places_of_commute {f : QuicSentPacketManager φ σ → Option (QuicSentPacketManager φ σ)}
    (hf : ∀ p, f (s.placed p) = (f s).map (placed p)) (hrun : f s = some s') :
    s'.lossAlgorithm.places = s.lossAlgorithm.places := by
  have hsame : f s = (f s).map (placed s.lossAlgorithm.places) := hf s.lossAlgorithm.places
  rw [hrun, Option.map_some] at hsame
  rw [Option.some.inj hsame]
  rfl

/-- The end of `OnAckFrameEnd` in both managers. -/
theorem postProcess_placed (h : s.Managed) (hflying : Flying inputs s)
    (hsent : s.largestOf ≤ s.unackedPackets.largestSentPacket) (time : Int) (prior : Nat)
    (hacks : GeneralLossAlgorithm.Acks ⟨s.unackedPackets, time, s.rttStats, s.largestOf⟩
      s.packetsAcked)
    (hkeeps : Keeps s.unackedPackets s.lossAlgorithm.places) (hq : Keeps s.unackedPackets q) :
    ∃ s' q', s.postProcessAfterMarkingPacketHandled c time prior = some s' ∧
      (s.placed q).postProcessAfterMarkingPacketHandled c time prior = some (s'.placed q') ∧
      Recedes (fun _ => False) s s' ∧ Keeps s'.unackedPackets s'.lossAlgorithm.places ∧
      Keeps s'.unackedPackets q' := by
  obtain ⟨s₁, q', lost, hrun, hrun', hrecedes, hkeeps₁, hq₁⟩ :=
    invokeLossDetection_placed (c := c) h hflying hsent time hacks hkeeps hq
  generalize hlost : (if 0 < s.consecutiveRtoCount ∧ !c.useNewRto then [] else lost) = lost'
  obtain ⟨sendAlgorithm, events, htold⟩ := maybeInvokeCongestionEvent_eq (c := c) s₁ s.rttUpdated
    prior time lost'
  have htells : Recedes (fun _ => False) s₁
      (s₁.maybeInvokeCongestionEvent c s.rttUpdated prior time lost') := by
    refine recedes_of_eq _ hrecedes.managed ?_ ?_ ?_ ?_ <;> rw [htold]
  have hdrops := (drops_dropObsolete (c := c) (fun _ => False) htells.managed).recedes
  have hlater := htells.trans hdrops
  have hplaces : ((s₁.maybeInvokeCongestionEvent c s.rttUpdated prior time lost').dropObsolete
      c).lossAlgorithm.places = s₁.lossAlgorithm.places :=
    places_of_commute (s := s₁) (f := fun s₁ => some ((s₁.maybeInvokeCongestionEvent c s.rttUpdated
      prior time lost').dropObsolete c)) (fun p => by
        rw [maybeInvokeCongestionEvent_placed, dropObsolete_placed]
        rfl) rfl
  refine ⟨(s₁.maybeInvokeCongestionEvent c s.rttUpdated prior time lost').dropObsolete c, q',
    ?_, ?_, hrecedes.trans hlater, ?_, hlater.keeps hq₁⟩
  · rw [postProcessAfterMarkingPacketHandled, hrun]
    simp only [Option.bind_eq_bind, Option.bind_some, hlost]
    rfl
  · rw [postProcessAfterMarkingPacketHandled, hrun']
    simp only [Option.bind_eq_bind, Option.bind_some]
    rw [show (if 0 < (s.placed q).consecutiveRtoCount ∧ !c.useNewRto then [] else lost) = lost'
      from hlost, maybeInvokeCongestionEvent_placed, dropObsolete_placed]
    rfl
  · rw [hplaces]
    exact hlater.keeps hkeeps₁

/-- The packets of a frame are out of flight once they are settled. -/
theorem acks_of_settles {numbers : List Nat} {credited : List AckedPacket} (time : Int)
    (hsorted : numbers.Pairwise (· > ·)) (hflying : Flying inputs s')
    (hnumbers : credited.map AckedPacket.packetNumber = numbers.reverse)
    (hsettles : Settles s s' numbers.reverse) :
    GeneralLossAlgorithm.Acks ⟨s'.unackedPackets, time, s'.rttStats,
      {s' with packetsAcked := credited}.largestOf⟩ credited := by
  have hascending : (credited.map AckedPacket.packetNumber).Pairwise (· < ·) := by
    rw [hnumbers]
    exact List.pairwise_reverse.mpr hsorted
  refine ⟨hascending, fun n hn => ?_, fun n hn info hinfo => ?_⟩
  · -- The last packet has the largest number.
    show n ≤ (credited.getLast?.map AckedPacket.packetNumber).getD s'.largestNewlyAcked
    rw [← List.getLast?_map]
    generalize credited.map AckedPacket.packetNumber = ascending at hascending hn
    obtain ⟨init, last, rfl⟩ := List.eq_nil_or_concat ascending |>.resolve_left
      (List.ne_nil_of_mem hn)
    rw [List.concat_eq_append] at hascending hn ⊢
    rw [List.getLast?_concat, Option.getD_some]
    rcases List.mem_append.mp hn with hn | hn
    · exact Nat.le_of_lt ((List.pairwise_append.mp hascending).2.2 n hn last
        (List.mem_singleton_self last))
    · exact Nat.le_of_eq (List.mem_singleton.mp hn)
  · refine Bool.eq_false_iff.mpr fun hin => ?_
    have hnot := hsettles.settled n (hnumbers ▸ hn) info hinfo
    rw [hflying.ackable n info hinfo hin] at hnot
    cases hnot

theorem openFrame_placed (c : Config φ σ) (s : QuicSentPacketManager φ σ) (q : Places)
    (frame : AckCalls) : (s.placed q).openFrame c frame = (s.openFrame c frame).placed q :=
  onAckRanges_placed (s.onAckFrameStart c frame.largestAcked frame.ackDelayTime
    frame.ackReceiveTime) q frame.ranges

theorem Agrees.acked (h : Agrees inputs s q) {frame : AckCalls} (hframe : Ranges frame.ranges)
    (hended : frame.ended = true) (hcomplete : s.Complete (.acked frame)) :
    ∃ s' q', s.onAckFrame c frame = some s' ∧
      (s.placed q).onAckFrame c frame = some (s'.placed q') ∧
      Agrees (inputs ++ [.acked frame]) s' q' := by
  obtain ⟨numbers, hopened⟩ := h.ready.opened (c := c) hframe hcomplete.2
  have hmanaged := hopened.recedes.managed
  have htracked : ∀ n ∈ numbers.reverse, ∃ info,
      (s.openFrame c frame).unackedPackets.getTransmissionInfo n = some info :=
    fun n hn => hopened.tracked n (List.mem_reverse.mp hn)
  obtain ⟨s₁, credited, hhandled, hnumbers, hsettles, -, -⟩ := exists_handleAckeds (c := c) hmanaged
    frame.now htracked []
  rw [List.nil_append] at hhandled
  have hsettled : Recedes (· ∈ numbers.reverse) s s₁ :=
    (hopened.recedes.mono fun _ hfalse => hfalse.elim).trans (hsettles.recedes fun _ hn => hn)
  have hrecedes : Recedes (· ∈ numbers.reverse) s {s₁ with packetsAcked := credited} :=
    hsettled.trans (recedes_of_eq _ hsettled.managed rfl rfl rfl rfl)
  have hflying := hrecedes.flying h.flying
  have hkeeps : Keeps s₁.unackedPackets s₁.lossAlgorithm.places := by
    rw [hsettles.tuned, hopened.lossAlgorithm]
    exact hsettled.keeps h.keeps
  have hacks := acks_of_settles frame.ackReceiveTime hopened.sorted
    (hsettled.flying h.flying) hnumbers hsettles
  obtain ⟨s', q', hrun, hrun', hpost, hkeeps', hq⟩ := postProcess_placed (c := c)
    (s := {s₁ with packetsAcked := credited}) hrecedes.managed hflying
    (largestOf_credited_le hmanaged hopened.tracked hopened.largestNewlyAcked hnumbers hsettles)
    frame.ackReceiveTime (s.openFrame c frame).unackedPackets.bytesInFlight hacks hkeeps
    (hrecedes.keeps h.other)
  have hplain : s.onAckFrame c frame = some s' := by
    refine (if_pos hended).trans ?_
    rw [onAckFrameEnd_eq c hopened.packetsAcked, hhandled]
    exact hrun
  obtain ⟨s₂, hrun₂, hready⟩ := h.ready.step (c := c) (e := .acked frame) hframe
    (tells_reported ..) hcomplete
  obtain rfl := Option.some.inj (hplain.symm.trans hrun₂)
  refine ⟨s', q', hplain, ?_, hready, (hpost.flying hflying).later, hkeeps', hq⟩
  refine (if_pos hended).trans ?_
  rw [openFrame_placed,
    onAckFrameEnd_eq c (s := (s.openFrame c frame).placed q) hopened.packetsAcked,
    handleAckeds_placed, hhandled]
  exact hrun'

/-- Inputs that look for no losses. -/
theorem Agrees.commute (h : Agrees inputs s q)
    (hready : Ready (Reported (inputs ++ [e])) (inputs ++ [e]) s') (hrun : s.step c e = some s')
    (hcommute : ∀ p, (s.placed p).step c e = (s.step c e).map (placed p))
    (hflying : Flying (inputs ++ [e]) s')
    (hkeeps : ∀ p, Keeps s.unackedPackets p → Keeps s'.unackedPackets p) :
    ∃ s' q', s.step c e = some s' ∧ (s.placed q).step c e = some (s'.placed q') ∧
      Agrees (inputs ++ [e]) s' q' := by
  refine ⟨s', q, hrun, by rw [hcommute, hrun]; rfl, hready, hflying, ?_, hkeeps q h.other⟩
  rw [places_of_commute (f := fun s => s.step c e) hcommute hrun]
  exact hkeeps _ h.keeps

theorem Agrees.timeout (h : Agrees inputs s q) {now : Int}
    (hready : Ready (Reported (inputs ++ [.timeout now])) (inputs ++ [.timeout now]) s')
    (hrun : s.step c (.timeout now) = some s') :
    ∃ s' q', s.step c (.timeout now) = some s' ∧
      (s.placed q).step c (.timeout now) = some (s'.placed q') ∧
      Agrees (inputs ++ [.timeout now]) s' q' := by
  have hmanaged := h.ready.ledger.managed
  have hnil := h.ready.packetsAcked
  have hzero : ackedBytes s.packetsAcked = 0 := by
    rw [hnil]
    rfl
  have htimes := of_onRetransmissionTimeout hmanaged hzero hrun
  by_cases hmode : s.getRetransmissionMode c = .lossMode
  · have hlargest : s.largestOf = s.largestNewlyAcked := by
      rw [largestOf, hnil]
      rfl
    have hnone : GeneralLossAlgorithm.Acks ⟨s.unackedPackets, now, s.rttStats, s.largestOf⟩
        s.packetsAcked := by
      rw [hnil]
      exact ⟨.nil, fun _ hn => absurd hn List.not_mem_nil, fun _ hn => absurd hn List.not_mem_nil⟩
    obtain ⟨s₁, q', lost, hdetected, hdetected', hrecedes, hkeeps, hq⟩ :=
      invokeLossDetection_placed (c := c) hmanaged h.flying
        (hlargest ▸ h.ready.largestNewlyAcked) now hnone h.keeps h.other
    obtain ⟨sendAlgorithm, events, htold⟩ := maybeInvokeCongestionEvent_eq (c := c) s₁ false
      s.unackedPackets.bytesInFlight now lost
    have hs' : s' =
        s₁.maybeInvokeCongestionEvent c false s.unackedPackets.bytesInFlight now lost := by
      have hrun : s.onRetransmissionTimeout c now = some s' := hrun
      rw [onRetransmissionTimeout, hmode] at hrun
      simp only [hdetected, Option.bind_eq_bind, Option.bind_some] at hrun
      exact (Option.some.inj hrun).symm
    refine ⟨s', q', hrun, ?_, hready, (htimes.recedes.flying h.flying).later, ?_, ?_⟩
    · show (s.placed q).onRetransmissionTimeout c now = _
      rw [onRetransmissionTimeout,
        show (s.placed q).getRetransmissionMode c = .lossMode from hmode]
      simp only [hdetected', Option.bind_eq_bind, Option.bind_some]
      rw [maybeInvokeCongestionEvent_placed, hs']
      rfl
    · rw [hs', htold]
      exact hkeeps
    · rw [hs', htold]
      exact hq
  · refine h.commute hready hrun (fun p => ?_) (htimes.recedes.flying h.flying).later
      fun p => htimes.recedes.keeps
    show (s.placed p).onRetransmissionTimeout c now =
      (s.onRetransmissionTimeout c now).map (placed p)
    unfold onRetransmissionTimeout
    rw [show (s.placed p).getRetransmissionMode c = s.getRetransmissionMode c from rfl]
    cases hcase : s.getRetransmissionMode c with
    | lossMode => exact absurd hcase hmode
    | tlpMode => rfl
    | rtoMode => exact retransmitRtoPackets_placed c s p

/-- How packets are sent: at later and later times, and data that is sent again is linked to the
packet it was in. -/
def Usual (past : List (Input φ)) : Input φ → Prop
  | .sent _ _ sentTime transmissionType _ =>
    (∀ time ∈ past.filterMap sendTime, time ≤ sentTime) ∧ unlinks transmissionType = false
  | _ => True

instance (past : List (Input φ)) : (e : Input φ) → Decidable (Usual past e)
  | .sent .. => inferInstanceAs (Decidable (_ ∧ _))
  | .acked _ => isTrue trivial
  | .timeout _ => isTrue trivial
  | .probe => isTrue trivial

theorem Agrees.step (h : Agrees inputs s q) (hproper : s.Proper e) (hcomplete : s.Complete e)
    (husual : Usual inputs e) :
    ∃ s' q', s.step c e = some s' ∧ (s.placed q).step c e = some (s'.placed q') ∧
      Agrees (inputs ++ [e]) s' q' := by
  obtain ⟨s', hrun, hready⟩ := h.ready.step (c := c) hproper (tells_reported ..) hcomplete
  have hmanaged := h.ready.ledger.managed
  cases e with
  | sent packet o sentTime transmissionType hasData =>
    obtain ⟨s₁, hrun₁, hsends⟩ := exists_onPacketSent (c := c) hmanaged hproper
    obtain rfl := Option.some.inj (hrun.symm.trans hrun₁)
    exact h.commute hready hrun
      (fun p => onPacketSent_placed c s p packet o sentTime transmissionType hasData)
      (hsends.flying hmanaged hproper.1 husual.2 husual.1 h.flying)
      fun p => hsends.keeps hproper.1
  | acked frame =>
    by_cases hended : frame.ended = true
    · exact h.acked hproper hended hcomplete
    · have hsame : s.openFrame c frame = s' :=
        Option.some.inj ((if_neg hended).symm.trans hrun)
      obtain ⟨numbers, hopened⟩ := h.ready.opened (c := c) hproper hcomplete.2
      rw [hsame] at hopened
      refine h.commute hready hrun (fun p => ?_) (hopened.recedes.flying h.flying).later
        fun p => hopened.recedes.keeps
      show (s.placed p).onAckFrame c frame = (s.onAckFrame c frame).map (placed p)
      unfold onAckFrame
      rw [if_neg hended, if_neg hended, openFrame_placed]
      rfl
  | timeout now => exact h.timeout hready hrun
  | probe =>
    obtain ⟨probed, s₁, hrun₁, htimes⟩ := exists_maybeRetransmitTailLossProbe (c := c) hmanaged
    have hprobe : s.step c .probe = some s₁ := by
      show (s.maybeRetransmitTailLossProbe c).map Prod.snd = _
      rw [hrun₁]
      rfl
    obtain rfl := Option.some.inj (hrun.symm.trans hprobe)
    refine h.commute hready hrun (fun p => ?_) (htimes.recedes.flying h.flying).later
      fun p => htimes.recedes.keeps
    show ((s.placed p).maybeRetransmitTailLossProbe c).map Prod.snd =
      ((s.maybeRetransmitTailLossProbe c).map Prod.snd).map (placed p)
    rw [maybeRetransmitTailLossProbe_placed, Option.map_map, Option.map_map]
    rfl

end Agree

section Runs
variable {c : Config φ σ} {sendAlgorithm : σ} {inputs : List (Input φ)}

theorem agrees_new (lossType : LossDetectionType) (eighthRtt : Bool) (sendAlgorithm : σ) :
    Agrees (φ := φ) [] (new (.new lossType eighthRtt false) sendAlgorithm) ⟨0, 1, true⟩ := by
  have hmanaged := managed_new (φ := φ) (.new lossType eighthRtt false) sendAlgorithm
  have hempty : ∀ n info, (new (φ := φ) (.new lossType eighthRtt false)
      sendAlgorithm).unackedPackets.getTransmissionInfo n ≠ some info := by
    intro n info hn
    have hbounds := hmanaged.tracks.bounds hn
    have hend : n ≤ 0 := hbounds.2
    have hstart := hmanaged.tracks.start
    omega
  refine ⟨⟨ledger_new _ _ sendAlgorithm, rfl, Nat.le_refl _⟩, ⟨?_, ?_, ?_⟩, ⟨?_, Nat.le_refl _⟩, ?_,
    Nat.le_refl _⟩
  · exact fun n info hn => absurd hn (hempty n info)
  · exact fun n info hn => absurd hn (hempty n info)
  · exact fun n k info info' hn => absurd hn (hempty n info)
  · exact fun n info hn => absurd hn (hempty n info)
  · exact fun n info hn => absurd hn (hempty n info)

/-- **`quic_faster_detect_loss` changes nothing but speed**: two managers that differ in the flag
and get the same calls end in the same state, but for the places where their searches begin. -/
theorem faster_agrees {lossType : LossDetectionType} {eighthRtt : Bool}
    (hproper : ProperRun c (.new lossType eighthRtt false) sendAlgorithm inputs)
    (hcomplete : Throughout (fun past e =>
      ∀ s ∈ after c (.new lossType eighthRtt false) sendAlgorithm past, s.Complete e) inputs)
    (husual : Throughout Usual inputs) :
    ∃ s places, after c (.new lossType eighthRtt false) sendAlgorithm inputs = some s ∧
      after c (.new lossType eighthRtt true) sendAlgorithm inputs = some (s.placed places) := by
  have hagrees : ∃ s, after c (.new lossType eighthRtt false) sendAlgorithm inputs = some s ∧
      ∃ q, after c (.new lossType eighthRtt true) sendAlgorithm inputs = some (s.placed q) ∧
        Agrees inputs s q := by
    refine tryRun_history (A := fun inputs =>
        ProperRun c (.new lossType eighthRtt false) sendAlgorithm inputs ∧
        Throughout (fun past e =>
          ∀ s ∈ after c (.new lossType eighthRtt false) sendAlgorithm past, s.Complete e) inputs ∧
        Throughout Usual inputs)
      (P := fun inputs s => ∃ q, after c (.new lossType eighthRtt true) sendAlgorithm inputs =
        some (s.placed q) ∧ Agrees inputs s q) ?_ ⟨⟨0, 1, true⟩, rfl, agrees_new ..⟩ ?_ inputs
      ⟨hproper, hcomplete, husual⟩
    · exact fun es e hes => ⟨(throughout_concat.mp hes.1).1, (throughout_concat.mp hes.2.1).1,
        (throughout_concat.mp hes.2.2).1⟩
    · rintro es e s hes hs ⟨q, hrun', hagrees⟩
      obtain ⟨s', q', hstep, hstep', hagrees'⟩ := hagrees.step (c := c)
        ((throughout_concat.mp hes.1).2 s hs) ((throughout_concat.mp hes.2.1).2 s hs)
        (throughout_concat.mp hes.2.2).2
      refine ⟨s', hstep, q', ?_, hagrees'⟩
      rw [after, tryRun_concat, show tryRun (QuicSentPacketManager.step c) _ es = _ from hrun']
      exact hstep'
  obtain ⟨s, hrun, q, hrun', -⟩ := hagrees
  exact ⟨s, q, hrun, hrun'⟩

theorem faster_agrees_sampleRun :
    ∃ s places, after idleConfig (.new .nack false false) () sampleRun = some s ∧
      after idleConfig (.new .nack false true) () sampleRun = some (s.placed places) :=
  faster_agrees sampleRun_proper sampleRun_complete (by decide +kernel)

end Runs
end QuicSentPacketManager
end CongestionResponse.SentPackets
