import CongestionResponse.Lib.Run
import CongestionResponse.SentPackets.Transmissions

/-! Runs of the manager: what holds after any sequence of sends, acks and timeouts.

The manager keeps two promises. Every byte that was sent is in flight or was reported to the
congestion controller, once (`account_run`), and no data is forgotten: whatever was sent is held
by a packet that is in flight or waits to be sent again, until an ack names one of the packets
that carried it (`retained_run`). And as long as the peer acks only what was sent, in frames that
are handed on to their end, no call ever leaves the deque (`exists_run`). -/
namespace CongestionResponse.SentPackets
open Lib Quic Framer QuicUnackedPacketMap

variable {φ σ : Type}

/-- The calls the framer makes for an ack frame: the end of the frame is only announced with its
last range. -/
structure AckCalls where
  largestAcked : Nat
  ackDelayTime : Int
  ackReceiveTime : Int
  now : Int
  ranges : List (Nat × Nat)
  ended : Bool

inductive Input (φ : Type) where
  | sent (packet : SerializedPacket φ) (originalPacketNumber : Nat) (sentTime : Int)
      (transmissionType : TransmissionType) (hasRetransmittableData : Bool)
  | acked (frame : AckCalls)
  | timeout (now : Int)
  | probe

namespace QuicSentPacketManager

/-- The calls before the end of a frame. -/
def openFrame (c : Config φ σ) (s : QuicSentPacketManager φ σ) (frame : AckCalls) :
    QuicSentPacketManager φ σ :=
  (s.onAckFrameStart c frame.largestAcked frame.ackDelayTime
    frame.ackReceiveTime).onAckRanges frame.ranges

def onAckFrame (c : Config φ σ) (s : QuicSentPacketManager φ σ) (frame : AckCalls) :
    Option (QuicSentPacketManager φ σ) :=
  if frame.ended then (s.openFrame c frame).onAckFrameEnd c frame.ackReceiveTime frame.now
  else some (s.openFrame c frame)

def step (c : Config φ σ) (s : QuicSentPacketManager φ σ) :
    Input φ → Option (QuicSentPacketManager φ σ)
  | .sent packet originalPacketNumber sentTime transmissionType hasRetransmittableData =>
    s.onPacketSent c packet originalPacketNumber sentTime transmissionType hasRetransmittableData
  | .acked frame => s.onAckFrame c frame
  | .timeout now => s.onRetransmissionTimeout c now
  | .probe => (s.maybeRetransmitTailLossProbe c).map Prod.snd

/-- How the manager is used: numbers go up, a packet that takes over data takes it from one that
waits, and a packet with data counts as in flight. -/
def Proper (s : QuicSentPacketManager φ σ) : Input φ → Prop
  | .sent packet originalPacketNumber _ _ hasRetransmittableData =>
    s.unackedPackets.largestSentPacket < packet.packetNumber ∧
      (packet.retransmittableFrames ≠ [] → hasRetransmittableData = true) ∧
      (originalPacketNumber = 0 ∨
        originalPacketNumber ∈ s.pendingRetransmissions.map Prod.fst ∧
        (s.unackedPackets.getTransmissionInfo originalPacketNumber).map
          QuicTransmissionInfo.retransmittableFrames = some packet.retransmittableFrames)
  | .acked frame => Ranges frame.ranges
  | .timeout _ => True
  | .probe => True

instance [DecidableEq φ] (s : QuicSentPacketManager φ σ) : (e : Input φ) → Decidable (s.Proper e)
  | .sent .. => inferInstanceAs (Decidable (_ ∧ _ ∧ (_ ∨ _ ∧ _)))
  | .acked frame => inferInstanceAs (Decidable (Ranges frame.ranges))
  | .timeout _ => isTrue trivial
  | .probe => isTrue trivial

/-! ### The history of a run -/

/-- The packet `n` was sent with these frames. -/
def Carried (inputs : List (Input φ)) (n : Nat) (frames : List φ) : Prop :=
  ∃ packet o sentTime transmissionType hasData,
    Input.sent packet o sentTime transmissionType hasData ∈ inputs ∧ packet.packetNumber = n ∧
      packet.retransmittableFrames = frames

/-- An ack frame named the packet `n`. -/
def Reported (inputs : List (Input φ)) (n : Nat) : Prop :=
  ∃ frame, Input.acked frame ∈ inputs ∧ InRanges frame.ranges n

/-- The bytes an input puts in flight. -/
def inputBytes : Input φ → Nat
  | .sent packet _ _ _ hasRetransmittableData =>
    if hasRetransmittableData then packet.encryptedLength.toNat else 0
  | _ => 0

def sentBytes (inputs : List (Input φ)) : Nat := (inputs.map inputBytes).sum

def isTimer : Input φ → Bool
  | .timeout _ => true
  | .probe => true
  | _ => false

section History
variable {inputs : List (Input φ)} {e : Input φ} {n : Nat} {frames : List φ}

theorem Carried.later (h : Carried inputs n frames) : Carried (inputs ++ [e]) n frames := by
  obtain ⟨packet, o, sentTime, transmissionType, hasData, hmem, heq⟩ := h
  exact ⟨packet, o, sentTime, transmissionType, hasData, List.mem_append_left _ hmem, heq⟩

theorem Reported.later (h : Reported inputs n) : Reported (inputs ++ [e]) n := by
  obtain ⟨frame, hmem, hn⟩ := h
  exact ⟨frame, List.mem_append_left _ hmem, hn⟩

/-- Only sending lets a packet carry data. -/
theorem carried_concat (he : ∀ packet o sentTime transmissionType hasData,
    e ≠ .sent packet o sentTime transmissionType hasData) :
    Carried (inputs ++ [e]) n frames ↔ Carried inputs n frames := by
  refine ⟨?_, Carried.later⟩
  rintro ⟨packet, o, sentTime, transmissionType, hasData, hmem, heq⟩
  rcases List.mem_append.mp hmem with hmem | hmem
  · exact ⟨packet, o, sentTime, transmissionType, hasData, hmem, heq⟩
  · exact absurd (List.mem_singleton.mp hmem).symm (he packet o sentTime transmissionType hasData)

theorem carried_concat_sent {packet : SerializedPacket φ} {o : Nat} {sentTime : Int}
    {transmissionType : TransmissionType} {hasData : Bool} :
    Carried (inputs ++ [.sent packet o sentTime transmissionType hasData]) n frames ↔
      Carried inputs n frames ∨
        packet.packetNumber = n ∧ packet.retransmittableFrames = frames := by
  constructor
  · rintro ⟨packet', o', sentTime', transmissionType', hasData', hmem, heq⟩
    rcases List.mem_append.mp hmem with hmem | hmem
    · exact .inl ⟨packet', o', sentTime', transmissionType', hasData', hmem, heq⟩
    · cases List.mem_singleton.mp hmem
      exact .inr heq
  · rintro (h | heq)
    · exact h.later
    · exact ⟨packet, o, sentTime, transmissionType, hasData,
        List.mem_append_right _ (List.mem_singleton_self _), heq⟩

theorem sentBytes_concat (inputs : List (Input φ)) (e : Input φ) :
    sentBytes (inputs ++ [e]) = sentBytes inputs + inputBytes e := by
  simp [sentBytes]

end History

/-! ### The invariant of a run -/

/-- What an input adds to the packets that were received, as far as the manager is told: an ack
frame may name others, but only below the least unacked one, where it is not listened to. -/
structure Tells (told told' : Nat → Prop) (s : QuicSentPacketManager φ σ) (e : Input φ) : Prop where
  later : ∀ n, told n → told' n
  named : ∀ frame, e = .acked frame → ∀ n, InRanges frame.ranges n → s.getLeastUnacked ≤ n → told' n

theorem tells_reported (inputs : List (Input φ)) (s : QuicSentPacketManager φ σ) (e : Input φ) :
    Tells (Reported inputs) (Reported (inputs ++ [e])) s e where
  later _ hn := hn.later
  named frame he _ hn _ := ⟨frame, List.mem_append_right _ (List.mem_singleton.mpr he.symm), hn⟩

/-- The state after some inputs, which have `told` of the packets that were received. -/
structure Ledger (told : Nat → Prop) (inputs : List (Input φ)) (s : QuicSentPacketManager φ σ) :
    Prop where
  managed : s.Managed
  leftover : ∃ numbers : List Nat, s.packetsAcked = numbers.map (fun n => ⟨n, 0⟩) ∧
    ∀ n ∈ numbers, told n
  credited : ∀ n ∈ ackedNumbers s.congestionEvents, told n
  carried : ∀ n info, s.unackedPackets.getTransmissionInfo n = some info →
    info.retransmittableFrames ≠ [] → Carried inputs n info.retransmittableFrames
  links : ∀ n k, s.unackedPackets.Linked n k →
    ∀ frames, Carried inputs k frames → Carried inputs n frames
  sent : ∀ n frames, Carried inputs n frames → n ≤ s.unackedPackets.largestSentPacket
  retained : ∀ n frames, Carried inputs n frames → frames ≠ [] →
    (∃ k info, s.unackedPackets.getTransmissionInfo k = some info ∧
      info.retransmittableFrames = frames) ∨
    ∃ k, Carried inputs k frames ∧ told k
  account : s.account ≤ sentBytes inputs
  noTimer : (∀ e ∈ inputs, isTimer e = false) →
    s.account = sentBytes inputs ∧ s.consecutiveRtoCount = 0

section Ledger
variable {c : Config φ σ} {s s' : QuicSentPacketManager φ σ} {inputs : List (Input φ)}
  {e : Input φ} {told told' : Nat → Prop}

theorem ledger_new (told : Nat → Prop) (a : GeneralLossAlgorithm) (sendAlgorithm : σ) :
    Ledger told [] (new a sendAlgorithm : QuicSentPacketManager φ σ) := by
  have hnone : ∀ n frames, ¬Carried ([] : List (Input φ)) n frames := by
    rintro n frames ⟨packet, o, sentTime, transmissionType, hasData, hmem, -⟩
    exact List.not_mem_nil hmem
  have hmanaged := managed_new (φ := φ) a sendAlgorithm
  have hempty : ∀ n info, (new (φ := φ) a sendAlgorithm).unackedPackets.getTransmissionInfo n ≠
      some info := by
    intro n info hn
    have hbounds := hmanaged.tracks.bounds hn
    have hend : n ≤ 0 := hbounds.2
    have hstart := hmanaged.tracks.start
    omega
  refine ⟨hmanaged, ⟨[], rfl, fun _ hn => absurd hn List.not_mem_nil⟩,
    fun _ hn => absurd hn List.not_mem_nil, ?_, ?_, ?_, ?_, Nat.le_refl _, fun _ => ⟨rfl, rfl⟩⟩
  · exact fun n info hn => absurd hn (hempty n info)
  · rintro n k ⟨info, hn, -⟩
    exact absurd hn (hempty n info)
  · exact fun n frames h => absurd h (hnone n frames)
  · exact fun n frames h => absurd h (hnone n frames)

theorem Ledger.mono (h : Ledger told inputs s) (hlater : ∀ n, told n → told' n) :
    Ledger told' inputs s := by
  obtain ⟨numbers, hacked, hreported⟩ := h.leftover
  refine ⟨h.managed, ⟨numbers, hacked, fun n hn => hlater n (hreported n hn)⟩,
    fun n hn => hlater n (h.credited n hn), h.carried, h.links, h.sent, fun n frames hn hne => ?_,
    h.account, h.noTimer⟩
  refine (h.retained n frames hn hne).imp_right ?_
  rintro ⟨k, hk, htold⟩
  exact ⟨k, hk, hlater k htold⟩

/-- A packet reached by links carried the same data. -/
theorem Ledger.reached (h : Ledger told inputs s) {k n : Nat}
    (hleads : Relation.ReflTransGen s.unackedPackets.Linked k n) {frames : List φ}
    (hn : Carried inputs n frames) : Carried inputs k frames := by
  induction hleads with
  | refl => exact hn
  | tail _ hlink ih => exact ih (h.links _ _ hlink frames hn)

/-- Everything but sending keeps the data, unless an ack names a packet that carried it. -/
theorem Ledger.recedes (h : Ledger told inputs s)
    (he : ∀ packet o sentTime transmissionType hasData,
      e ≠ .sent packet o sentTime transmissionType hasData) (hrecedes : Recedes told s s')
    (hleftover : ∃ numbers : List Nat, s'.packetsAcked = numbers.map (fun n => ⟨n, 0⟩) ∧
      ∀ n ∈ numbers, told n)
    (hcredited : ∀ n ∈ ackedNumbers s'.congestionEvents, told n)
    (haccount : s'.account ≤ s.account)
    (hnoTimer : isTimer e = false → s.consecutiveRtoCount = 0 →
      s'.account = s.account ∧ s'.consecutiveRtoCount = 0) : Ledger told (inputs ++ [e]) s' := by
  have hzero : inputBytes e = 0 := by
    cases e with
    | sent packet o sentTime transmissionType hasData =>
      exact absurd rfl (he packet o sentTime transmissionType hasData)
    | acked frame => rfl
    | timeout now => rfl
    | probe => rfl
  refine ⟨hrecedes.managed, hleftover, hcredited, fun n info' hn hne => ?_,
    fun n k hlink frames => ?_, fun n frames hn => ?_, fun n frames hn hne => ?_, ?_,
    fun htimers => ?_⟩
  · rw [carried_concat he]
    obtain ⟨info, hinfo, hwanes⟩ := hrecedes.infos n info' hn
    have hsame := hwanes.frames.resolve_right hne
    rw [hsame] at hne ⊢
    exact h.carried n info hinfo hne
  · rw [carried_concat he, carried_concat he]
    exact h.links n k (hrecedes.linked hlink) frames
  · rw [hrecedes.largestSent]
    exact h.sent n frames ((carried_concat he).mp hn)
  · have hn := (carried_concat he).mp hn
    rcases h.retained n frames hn hne with ⟨k, info, hk, rfl⟩ | ⟨k, hk, hacked⟩
    · rcases hrecedes.kept k info hk hne with ⟨info', hinfo', hsame⟩ | ⟨a, ha, hleads⟩
      · exact .inl ⟨k, info', hinfo', hsame⟩
      · -- The data is gone as a packet that leads to it was named.
        have hcarried := h.reached hleads (h.carried k info hk hne)
        exact .inr ⟨a, hcarried.later, ha⟩
    · exact .inr ⟨k, hk.later, hacked⟩
  · rw [sentBytes_concat, hzero, Nat.add_zero]
    exact Nat.le_trans haccount h.account
  · obtain ⟨hbefore, hrto⟩ := h.noTimer fun e' he' => htimers e' (List.mem_append_left _ he')
    obtain ⟨heq, hrto'⟩ :=
      hnoTimer (htimers e (List.mem_append_right _ (List.mem_singleton_self e))) hrto
    refine ⟨?_, hrto'⟩
    rw [sentBytes_concat, hzero, Nat.add_zero, heq]
    exact hbefore

/-- The ranges of a frame change no packet. -/
theorem recedes_ranged (reported : Nat → Prop) (started : QuicSentPacketManager φ σ) (h : s.Managed)
    {done : List (Nat × Nat)} {numbers : List Nat} {iter : List Interval} {bound : Nat}
    (hunacked : started.unackedPackets = s.unackedPackets)
    (hpending : started.pendingRetransmissions = s.pendingRetransmissions)
    (hlast : started.lastAckFrame.packets = s.lastAckFrame.packets)
    (hlargest : started.lastAckFrame.largestAcked = s.lastAckFrame.largestAcked)
    (hevents : started.congestionEvents = s.congestionEvents)
    (hranged : Ranged started s' done numbers iter bound) :
    Recedes reported s s' ∧ s'.account = s.account := by
  have hmanaged : started.Managed := h.congr hunacked hpending hlast hlargest
  have hstarts : Recedes reported s started :=
    recedes_of_eq reported h hunacked hpending hlast hlargest
  obtain ⟨hlevel, hmono, -⟩ := hranged.level hmanaged.level
  obtain ⟨largestAcked, frameLargestAcked, rfl⟩ := hranged.eq
  have htracks := hmanaged.tracks
  refine ⟨hstarts.trans ⟨⟨⟨htracks.start, htracks.span, htracks.flight, htracks.sound⟩,
    hmanaged.acked, hmanaged.sent, hmanaged.pending, hmanaged.nodup, hmanaged.held, hlevel⟩, rfl,
    hmono, Nat.le_refl _, fun n info hn => ⟨info, hn, Wanes.refl info⟩,
    fun n info hn _ => .inl ⟨info, hn, rfl⟩⟩, ?_⟩
  exact (account_eq hunacked hevents : started.account = s.account)

/-- What the calls of a frame leave in `packets_acked_` was named by an ack frame. -/
theorem Ledger.acked (h : Ledger told inputs s) {frame : AckCalls} (hframe : Ranges frame.ranges)
    (hnamed : ∀ n, InRanges frame.ranges n → s.getLeastUnacked ≤ n → told n)
    (hrun : s.onAckFrame c frame = some s') :
    Ledger told (inputs ++ [.acked frame]) s' ∧ Recedes told s s' := by
  have he : ∀ packet o sentTime transmissionType hasData,
      Input.acked frame ≠ .sent (φ := φ) packet o sentTime transmissionType hasData :=
    fun _ _ _ _ _ heq => by cases heq
  obtain ⟨numbers, iter, bound, hranged⟩ := ranged_frame c s frame.largestAcked frame.ackDelayTime
    frame.ackReceiveTime hframe
  unfold onAckFrame openFrame at hrun
  generalize ((s.onAckFrameStart c frame.largestAcked frame.ackDelayTime
    frame.ackReceiveTime).onAckRanges frame.ranges) = ranged at hranged hrun
  obtain ⟨before, hbefore, hbeforeReported⟩ := h.leftover
  have hacked : ranged.packetsAcked = (before ++ numbers).map fun n => ⟨n, 0⟩ := by
    obtain ⟨largestAcked, frameLargestAcked, rfl⟩ := hranged.eq
    rw [List.map_append, ← hbefore]
    rfl
  have hrto : ranged.consecutiveRtoCount = s.consecutiveRtoCount := by
    obtain ⟨largestAcked, frameLargestAcked, rfl⟩ := hranged.eq
    rfl
  have hreported : ∀ n ∈ before ++ numbers, told n := by
    intro n hn
    rcases List.mem_append.mp hn with hn | hn
    · exact hbeforeReported n hn
    · obtain ⟨hrange, hleast, -⟩ := (hranged.mem n).mp hn
      exact hnamed n hrange hleast
  have hcredited : ∀ n ∈ ackedNumbers ranged.congestionEvents, told n := by
    obtain ⟨largestAcked, frameLargestAcked, rfl⟩ := hranged.eq
    exact h.credited
  obtain ⟨hranges, haccount⟩ := recedes_ranged (· ∈ before ++ numbers)
    (s.onAckFrameStart c frame.largestAcked frame.ackDelayTime frame.ackReceiveTime)
    h.managed rfl rfl rfl rfl rfl hranged
  split at hrun
  · obtain ⟨hends, -⟩ := of_onAckFrameEnd hranges.managed hacked hrun
    have hrecedes := (hranges.trans hends.recedes).mono hreported
    refine ⟨h.recedes he hrecedes
      ⟨[], hends.packetsAcked, fun _ hn => absurd hn List.not_mem_nil⟩ (fun n hn => ?_)
      (Nat.le_trans hends.account_le (Nat.le_of_eq haccount))
      fun _ hzero => ⟨(hends.account_eq (hrto.trans hzero)).trans haccount, ?_⟩, hrecedes⟩
    · rcases List.mem_append.mp (hends.credits.mem_iff.mp hn) with hn | hn
      · exact hcredited n hn
      · rw [hacked, List.map_map] at hn
        simp only [Function.comp_def, List.map_id'] at hn
        exact hreported n hn
    · exact Nat.le_zero.mp (Nat.le_trans hends.rto (Nat.le_of_eq (hrto.trans hzero)))
  · cases hrun
    have hrecedes := hranges.mono hreported
    exact ⟨h.recedes he hrecedes ⟨before ++ numbers, hacked, hreported⟩ hcredited
      (Nat.le_of_eq haccount) fun _ hzero => ⟨haccount, hrto.trans hzero⟩, hrecedes⟩

theorem Ledger.timer (h : Ledger told inputs s) (he : isTimer e = true) (htimes : Times s s') :
    Ledger told (inputs ++ [e]) s' := by
  obtain ⟨numbers, hacked, hreported⟩ := h.leftover
  refine h.recedes (fun _ _ _ _ _ heq => by cases heq; cases he)
    (htimes.recedes.mono fun _ hfalse => hfalse.elim) ?_ (fun n hn => ?_) htimes.account
    fun hnot => absurd (he.symm.trans hnot) (by decide)
  · rcases htimes.packetsAcked with heq | heq
    · exact ⟨numbers, heq.trans hacked, hreported⟩
    · exact ⟨[], heq, fun _ hn => absurd hn List.not_mem_nil⟩
  · rcases List.mem_append.mp (htimes.credits ▸ List.mem_append_left _ hn) with hn | hn
    · exact h.credited n hn
    · rw [hacked, List.map_map] at hn
      simp only [Function.comp_def, List.map_id'] at hn
      exact hreported n hn

/-- A proper send, whichever data it takes. -/
theorem exists_onPacketSent (h : s.Managed) {packet : SerializedPacket φ} {o : Nat} {sentTime : Int}
    {transmissionType : TransmissionType} {hasData : Bool}
    (hproper : s.Proper (.sent packet o sentTime transmissionType hasData)) :
    ∃ s', s.onPacketSent c packet o sentTime transmissionType hasData = some s' ∧
      Sends s s' packet o sentTime transmissionType hasData := by
  obtain ⟨hn, hdata, rfl | ⟨hmem, hframes⟩⟩ := hproper
  · exact exists_onPacketSent_new h hn hdata
  · obtain ⟨old, hold, hsame⟩ := Option.map_eq_some_iff.mp hframes
    obtain ⟨entry, hentry, rfl⟩ := List.mem_map.mp hmem
    obtain ⟨info, hinfo, hne⟩ := h.pending entry hentry
    obtain rfl := Option.some.inj (hold.symm.trans hinfo)
    exact exists_onPacketSent_old h hn hdata hold hne hsame.symm

/-- Data that is sent again is the data of the packet that waited. -/
theorem Ledger.carriedBefore (h : Ledger told inputs s) {packet : SerializedPacket φ} {o : Nat}
    {sentTime : Int} {transmissionType : TransmissionType} {hasData : Bool}
    (hproper : s.Proper (.sent packet o sentTime transmissionType hasData))
    {info : QuicTransmissionInfo φ}
    (ho : s.unackedPackets.getTransmissionInfo o = some info) :
    Carried inputs o packet.retransmittableFrames ∧
      info.retransmittableFrames = packet.retransmittableFrames := by
  obtain ⟨-, -, rfl | ⟨hmem, hframes⟩⟩ := hproper
  · have := (h.managed.tracks.bounds ho).1
    have := h.managed.tracks.start
    omega
  · rw [ho] at hframes
    have hsame : info.retransmittableFrames = packet.retransmittableFrames :=
      Option.some.inj hframes
    obtain ⟨entry, hentry, rfl⟩ := List.mem_map.mp hmem
    obtain ⟨info', hinfo', hne⟩ := h.managed.pending entry hentry
    obtain rfl := Option.some.inj (ho.symm.trans hinfo')
    exact ⟨hsame ▸ h.carried entry.1 info ho hne, hsame⟩

theorem Ledger.sends (h : Ledger told inputs s) {packet : SerializedPacket φ} {o : Nat}
    {sentTime : Int} {transmissionType : TransmissionType} {hasData : Bool}
    (hproper : s.Proper (.sent packet o sentTime transmissionType hasData))
    (hsends : Sends s s' packet o sentTime transmissionType hasData) :
    Ledger told (inputs ++ [.sent packet o sentTime transmissionType hasData]) s' := by
  have hlt : s.unackedPackets.largestSentPacket < packet.packetNumber := hproper.1
  obtain ⟨entered, hentered, henteredFrames, henteredLink⟩ := hsends.entered
  have hnumber : ∀ {info'}, s'.unackedPackets.getTransmissionInfo packet.packetNumber = some info' →
      info' = entered := fun hinfo' => Option.some.inj (hinfo'.symm.trans hentered)
  -- No packet was sent with this number before.
  have hfresh : ∀ frames, ¬Carried inputs packet.packetNumber frames := fun frames hcarried =>
    absurd (h.sent _ frames hcarried) (Nat.not_le.mpr hlt)
  refine ⟨hsends.managed, ?_, fun n hn => ?_, fun n info' hn hne => ?_, ?_, fun n frames hn => ?_,
    fun n frames hn hne => ?_, ?_, fun htimers => ?_⟩
  · obtain ⟨numbers, hacked, hreported⟩ := h.leftover
    exact ⟨numbers, hsends.packetsAcked.trans hacked, hreported⟩
  · exact h.credited n (hsends.events ▸ hn)
  · rw [carried_concat_sent]
    rcases hsends.infos n info' hn with rfl | ⟨-, hnil, -⟩ | ⟨info, hinfo, rfl | ⟨-, hnil, -⟩⟩
    · rw [hnumber hn]
      exact .inr ⟨rfl, henteredFrames.symm⟩
    · exact absurd hnil hne
    · exact .inl (h.carried n info' hinfo hne)
    · exact absurd hnil hne
  · rintro n k ⟨info', hn, hlink, rfl⟩ frames
    rw [carried_concat_sent, carried_concat_sent]
    -- A link to a packet that was there leads to what that one carried.
    have hold : ∀ info, s.unackedPackets.getTransmissionInfo n = some info →
        info.retransmission = info'.retransmission →
        Carried inputs info'.retransmission frames ∨ packet.packetNumber = info'.retransmission ∧
          packet.retransmittableFrames = frames → Carried inputs n frames := by
      intro info hinfo hsame hcarried
      have hlinked : s.unackedPackets.Linked n info'.retransmission :=
        ⟨info, hinfo, hsame ▸ hlink, hsame⟩
      have hle := (h.managed.tracks.linked hlinked).2
      rcases hcarried with hcarried | ⟨heq, -⟩
      · exact h.links n _ hlinked frames hcarried
      · omega
    rcases hsends.infos n info' hn with
      rfl | ⟨-, -, hzero⟩ | ⟨info, hinfo, rfl | ⟨rfl, -, hsame | hnew⟩⟩
    · rw [hnumber hn] at hlink
      exact absurd henteredLink hlink
    · exact absurd hzero hlink
    · exact fun hcarried => .inl (hold info' hinfo rfl hcarried)
    · exact fun hcarried => .inl (hold info hinfo hsame.symm hcarried)
    · rintro (hcarried | ⟨-, rfl⟩)
      · rw [hnew] at hcarried
        exact absurd hcarried (hfresh frames)
      · exact .inl (h.carriedBefore hproper hinfo).1
  · rw [hsends.largestSent]
    rcases carried_concat_sent.mp hn with hn | ⟨rfl, -⟩
    · exact Nat.le_of_lt (Nat.lt_of_le_of_lt (h.sent n frames hn) hlt)
    · exact Nat.le_refl _
  · rcases carried_concat_sent.mp hn with hn | ⟨rfl, rfl⟩
    · rcases h.retained n frames hn hne with ⟨k, info, hk, rfl⟩ | ⟨k, hk, hacked⟩
      · by_cases hko : k = o
        · subst hko
          exact .inl ⟨_, entered, hentered,
            henteredFrames.trans (h.carriedBefore hproper hk).2.symm⟩
        · exact .inl ⟨k, info, hsends.kept k info hk hne hko, rfl⟩
      · exact .inr ⟨k, hk.later, hacked⟩
    · exact .inl ⟨_, entered, hentered, henteredFrames⟩
  · rw [hsends.account, sentBytes_concat]
    exact Nat.add_le_add_right h.account _
  · obtain ⟨hbefore, hrto⟩ := h.noTimer fun e' he' => htimers e' (List.mem_append_left _ he')
    refine ⟨?_, hsends.rto.trans hrto⟩
    rw [hsends.account, sentBytes_concat, hbefore]
    rfl

theorem ackedBytes_zero {numbers : List Nat} :
    ackedBytes (numbers.map fun n => ⟨n, 0⟩) = 0 := by
  simp [ackedBytes, Function.comp_def]

/-- Every input keeps the invariant. -/
theorem Ledger.step (h : Ledger told inputs s) (hproper : s.Proper e)
    (htells : Tells told told' s e) (hrun : s.step c e = some s') :
    Ledger told' (inputs ++ [e]) s' := by
  have hlater := h.mono htells.later
  cases e with
  | sent packet o sentTime transmissionType hasData =>
    obtain ⟨s₁, hrun₁, hsends⟩ := exists_onPacketSent (c := c) h.managed hproper
    obtain rfl := Option.some.inj (hrun.symm.trans hrun₁)
    exact hlater.sends hproper hsends
  | acked frame => exact (hlater.acked hproper (htells.named frame rfl) hrun).1
  | timeout now =>
    obtain ⟨numbers, hacked, -⟩ := h.leftover
    exact hlater.timer rfl (of_onRetransmissionTimeout h.managed (hacked ▸ ackedBytes_zero) hrun)
  | probe =>
    obtain ⟨probed, s₁, hrun₁, htimes⟩ := exists_maybeRetransmitTailLossProbe (c := c) h.managed
    have hprobe : s.step c .probe = some s₁ := by
      show (s.maybeRetransmitTailLossProbe c).map Prod.snd = _
      rw [hrun₁]
      rfl
    obtain rfl := Option.some.inj (hrun.symm.trans hprobe)
    exact hlater.timer rfl htimes

end Ledger

/-! ### Runs -/

section Runs
variable (c : Config φ σ) (a : GeneralLossAlgorithm) (sendAlgorithm : σ)

/-- The manager after some inputs, if no call left the deque. -/
def after (inputs : List (Input φ)) : Option (QuicSentPacketManager φ σ) :=
  tryRun (step c) (new a sendAlgorithm) inputs

/-- Every input is proper in the state it meets. -/
def ProperRun (inputs : List (Input φ)) : Prop :=
  Throughout (fun past e => ∀ s ∈ after c a sendAlgorithm past, s.Proper e) inputs

instance [DecidableEq φ] (inputs : List (Input φ)) :
    Decidable (ProperRun c a sendAlgorithm inputs) :=
  inferInstanceAs (Decidable (Throughout _ inputs))

variable {c a sendAlgorithm} {inputs : List (Input φ)} {s : QuicSentPacketManager φ σ}
  {told told' : Nat → Prop}

theorem ledger_run (hproper : ProperRun c a sendAlgorithm inputs)
    (hrun : after c a sendAlgorithm inputs = some s) : Ledger (Reported inputs) inputs s := by
  refine tryRun_reaches (A := ProperRun c a sendAlgorithm)
    (P := fun inputs => Ledger (Reported inputs) inputs) ?_ (ledger_new _ a sendAlgorithm) ?_
    hproper hrun
  · exact fun es e hes => (throughout_concat.mp hes).1
  · intro es e s s' hes hs hstep hledger
    exact hledger.step ((throughout_concat.mp hes).2 s hs) (tells_reported es s e) hstep

/-- **Every byte that was sent is in flight or was reported**: what the controller was told of,
acked or lost, and what is in flight never exceed what was sent, and without timeouts nothing is
missing. The count of bytes in flight is that of the packets in flight. -/
theorem account_run (hproper : ProperRun c a sendAlgorithm inputs)
    (hrun : after c a sendAlgorithm inputs = some s) :
    s.unackedPackets.bytesInFlight = s.unackedPackets.inFlightBytes % 2 ^ 64 ∧
      s.unackedPackets.inFlightBytes + reportedBytes s.congestionEvents ≤ sentBytes inputs ∧
      ((∀ e ∈ inputs, isTimer e = false) →
        s.unackedPackets.inFlightBytes + reportedBytes s.congestionEvents = sentBytes inputs) := by
  have h := ledger_run hproper hrun
  exact ⟨h.managed.tracks.flight, h.account, fun htimers => (h.noTimer htimers).1⟩

/-- Five packets are sent and two acked; the first one is lost, sent again and acked. -/
def sampleRun : List (Input Nat) :=
  [.sent ⟨1, 1000, [10]⟩ 0 100 .notRetransmission true,
    .sent ⟨2, 1000, [11]⟩ 0 200 .notRetransmission true,
    .sent ⟨3, 1000, [12]⟩ 0 300 .notRetransmission true,
    .sent ⟨4, 1000, [13]⟩ 0 400 .notRetransmission true,
    .sent ⟨5, 900, [14]⟩ 0 500 .notRetransmission true,
    .acked ⟨5, 0, 50000, 50000, [(5, 6), (2, 3)], true⟩,
    .sent ⟨6, 1000, [10]⟩ 1 51000 .lossRetransmission true,
    .acked ⟨6, 0, 99000, 99000, [(6, 7)], true⟩]

theorem sampleRun_proper : ProperRun idleConfig (.new .nack false false) () sampleRun :=
  by decide +kernel

theorem sampleRun_ends :
    (after idleConfig (.new .nack false false) () sampleRun).isSome = true := by decide +kernel

theorem account_sampleRun :
    ((after idleConfig (.new .nack false false) () sampleRun).get
      sampleRun_ends).unackedPackets.inFlightBytes +
      reportedBytes ((after idleConfig (.new .nack false false) () sampleRun).get
        sampleRun_ends).congestionEvents = sentBytes sampleRun :=
  (account_run sampleRun_proper (Option.some_get sampleRun_ends).symm).2.2 (by decide)

/-- **No data is forgotten**: what a packet was sent with is held by a packet that is in flight or
waits to be sent again, or an ack named one of the packets that carried it. -/
theorem retained_run (hproper : ProperRun c a sendAlgorithm inputs)
    (hrun : after c a sendAlgorithm inputs = some s) {n : Nat} {frames : List φ}
    (hcarried : Carried inputs n frames) (hframes : frames ≠ []) :
    (∃ k info, s.unackedPackets.getTransmissionInfo k = some info ∧
      info.retransmittableFrames = frames ∧
      (info.inFlight = true ∨ k ∈ s.pendingRetransmissions.map Prod.fst)) ∨
    ∃ k, Carried inputs k frames ∧ Reported inputs k := by
  have h := ledger_run hproper hrun
  refine (h.retained n frames hcarried hframes).imp_left ?_
  rintro ⟨k, info, hk, rfl⟩
  exact ⟨k, info, hk, rfl, h.managed.held k info hk hframes⟩

theorem retained_sampleRun :
    (∃ k info, ((after idleConfig (.new .nack false false) () sampleRun).get
      sampleRun_ends).unackedPackets.getTransmissionInfo k = some info ∧
      info.retransmittableFrames = [12] ∧
      (info.inFlight = true ∨ k ∈ ((after idleConfig (.new .nack false false) () sampleRun).get
        sampleRun_ends).pendingRetransmissions.map Prod.fst)) ∨
    ∃ k, Carried sampleRun k [12] ∧ Reported sampleRun k :=
  retained_run sampleRun_proper (Option.some_get sampleRun_ends).symm (n := 3)
    ⟨⟨3, 1000, [12]⟩, 0, 300, .notRetransmission, true,
      .tail _ (.tail _ (.head _)), rfl, rfl⟩ (by decide)

/-! ### Runs that do not fail -/

/-- An ack frame names only packets that were sent, and if it names any, its end is announced. -/
def Complete (s : QuicSentPacketManager φ σ) : Input φ → Prop
  | .acked frame => (frame.ended = true ∨ frame.ranges = []) ∧
      ∀ r ∈ frame.ranges, r.2 ≤ s.unackedPackets.largestSentPacket + 1
  | _ => True

instance (s : QuicSentPacketManager φ σ) : (e : Input φ) → Decidable (s.Complete e)
  | .sent .. => isTrue trivial
  | .acked _ => inferInstanceAs (Decidable (_ ∧ _))
  | .timeout _ => isTrue trivial
  | .probe => isTrue trivial

/-- Between complete frames nothing is left over. -/
structure Ready (told : Nat → Prop) (inputs : List (Input φ)) (s : QuicSentPacketManager φ σ) :
    Prop where
  ledger : Ledger told inputs s
  packetsAcked : s.packetsAcked = []
  largestNewlyAcked : s.largestNewlyAcked ≤ s.unackedPackets.largestSentPacket

/-- What a frame with these ranges opens with: tracked packets are acked, the largest first. -/
structure Opened (s ranged : QuicSentPacketManager φ σ) (ranges : List (Nat × Nat))
    (numbers : List Nat) : Prop where
  packetsAcked : ranged.packetsAcked = numbers.map fun n => ⟨n, 0⟩
  sorted : numbers.Pairwise (· > ·)
  mem : ∀ n, n ∈ numbers ↔
    InRanges ranges n ∧ s.getLeastUnacked ≤ n ∧ n ∉ s.lastAckFrame.packets
  recedes : Recedes (fun _ => False) s ranged
  tracked : ∀ n ∈ numbers, ∃ info, ranged.unackedPackets.getTransmissionInfo n = some info
  largestNewlyAcked : ranged.largestNewlyAcked ≤ ranged.unackedPackets.largestSentPacket
  lossAlgorithm : ranged.lossAlgorithm = s.lossAlgorithm
  events : ranged.congestionEvents = s.congestionEvents
  largest : ∀ r ∈ ranges, r.2 ≤ ranged.unackedPackets.largestAcked + 1

theorem Ready.opened (h : Ready told inputs s) {frame : AckCalls} (hframe : Ranges frame.ranges)
    (hsent : ∀ r ∈ frame.ranges, r.2 ≤ s.unackedPackets.largestSentPacket + 1) :
    ∃ numbers, Opened s (s.openFrame c frame) frame.ranges numbers := by
  obtain ⟨numbers, iter, bound, hranged⟩ := ranged_frame c s frame.largestAcked frame.ackDelayTime
    frame.ackReceiveTime hframe
  obtain ⟨hranges, -⟩ := recedes_ranged (fun _ => False)
    (s.onAckFrameStart c frame.largestAcked frame.ackDelayTime frame.ackReceiveTime)
    h.ledger.managed rfl rfl rfl rfl rfl hranged
  have hleast := hranged.least
  obtain ⟨largestAcked, frameLargestAcked, heq⟩ := hranged.eq
  have hnewly : (s.openFrame c frame).largestNewlyAcked = s.largestNewlyAcked := by
    rw [openFrame, heq]
    rfl
  refine ⟨numbers, ?_, hranged.sorted, hranged.mem_frame, hranges, fun n hn => ?_, ?_, ?_, ?_,
    (hranged.level h.ledger.managed.level).2.2⟩
  · rw [openFrame, heq]
    show s.packetsAcked ++ _ = _
    rw [h.packetsAcked]
    rfl
  · -- What is newly acked is at least the least unacked number, and was sent.
    obtain ⟨⟨r, hr, -, hlt⟩, hle, -⟩ := (hranged.mem n).mp hn
    have := hsent r hr
    refine hranges.managed.tracks.exists_info ?_ ?_
    · exact Nat.le_trans (Nat.le_of_eq hleast) hle
    · rw [hranges.largestSent]
      omega
  · rw [hnewly]
    exact Nat.le_trans h.largestNewlyAcked (Nat.le_of_eq hranges.largestSent.symm)
  · rw [openFrame, heq]
    rfl
  · rw [openFrame, heq]
    rfl

/-- A frame that is ended, or names nothing. -/
theorem Ready.acked (h : Ready told inputs s) {frame : AckCalls} (hframe : Ranges frame.ranges)
    (hnamed : ∀ n, InRanges frame.ranges n → s.getLeastUnacked ≤ n → told n)
    (hcomplete : s.Complete (.acked frame)) :
    ∃ s', s.onAckFrame c frame = some s' ∧ Ready told (inputs ++ [.acked frame]) s' := by
  obtain ⟨hends, hsent⟩ := hcomplete
  obtain ⟨numbers, hopened⟩ := h.opened (c := c) hframe hsent
  have hmanaged := hopened.recedes.managed
  by_cases hended : frame.ended = true
  swap
  · have hrun : s.onAckFrame c frame = some (s.openFrame c frame) := if_neg hended
    refine ⟨_, hrun, (h.ledger.acked hframe hnamed hrun).1, ?_, hopened.largestNewlyAcked⟩
    rw [openFrame, hends.resolve_left hended]
    exact h.packetsAcked
  obtain ⟨s', hrun⟩ := exists_onAckFrameEnd (c := c) hmanaged hopened.packetsAcked hopened.tracked
    hopened.largestNewlyAcked frame.ackReceiveTime frame.now
  obtain ⟨hends, hlargest, -⟩ := of_onAckFrameEnd hmanaged hopened.packetsAcked hrun
  have hrun' : s.onAckFrame c frame = some s' := (if_pos hended).trans hrun
  refine ⟨s', hrun', (h.ledger.acked hframe hnamed hrun').1, hends.packetsAcked, ?_⟩
  rw [hends.recedes.largestSent]
  rcases hlargest with hsame | hmem
  · rw [hsame]
    exact hopened.largestNewlyAcked
  · obtain ⟨info, hinfo⟩ := hopened.tracked _ hmem
    exact (hmanaged.tracks.bounds hinfo).2

theorem Ready.timer (h : Ready told inputs s) {e : Input φ} {s' : QuicSentPacketManager φ σ}
    (he : isTimer e = true) (htimes : Times s s') : Ready told (inputs ++ [e]) s' := by
  refine ⟨h.ledger.timer he htimes, ?_, ?_⟩
  · exact htimes.packetsAcked.elim (·.trans h.packetsAcked) id
  · rw [htimes.largestNewlyAcked h.packetsAcked, htimes.recedes.largestSent]
    exact h.largestNewlyAcked

theorem Ready.step (h : Ready told inputs s) {e : Input φ} (hproper : s.Proper e)
    (htells : Tells told told' s e) (hcomplete : s.Complete e) :
    ∃ s', s.step c e = some s' ∧ Ready told' (inputs ++ [e]) s' := by
  have hlater : Ready told' inputs s :=
    ⟨h.ledger.mono htells.later, h.packetsAcked, h.largestNewlyAcked⟩
  cases e with
  | sent packet o sentTime transmissionType hasData =>
    obtain ⟨s', hrun, hsends⟩ := exists_onPacketSent (c := c) h.ledger.managed hproper
    refine ⟨s', hrun, hlater.ledger.sends hproper hsends,
      hsends.packetsAcked.trans h.packetsAcked, ?_⟩
    rw [hsends.largestNewlyAcked, hsends.largestSent]
    exact Nat.le_trans h.largestNewlyAcked (Nat.le_of_lt hproper.1)
  | acked frame => exact hlater.acked hproper (htells.named frame rfl) hcomplete
  | timeout now =>
    obtain ⟨s', hrun⟩ := exists_onRetransmissionTimeout (c := c) h.ledger.managed h.packetsAcked
      h.largestNewlyAcked now
    have hzero : ackedBytes s.packetsAcked = 0 := by
      rw [h.packetsAcked]
      rfl
    exact ⟨s', hrun, hlater.timer rfl (of_onRetransmissionTimeout h.ledger.managed hzero hrun)⟩
  | probe =>
    obtain ⟨probed, s', hrun, htimes⟩ := exists_maybeRetransmitTailLossProbe (c := c)
      h.ledger.managed
    refine ⟨s', ?_, hlater.timer rfl htimes⟩
    show (s.maybeRetransmitTailLossProbe c).map Prod.snd = _
    rw [hrun]
    rfl

/-- What waits can be sent: the next packet is tracked and has data. -/
theorem Managed.exists_nextPendingRetransmission (h : s.Managed)
    (hpending : s.hasPendingRetransmissions = true) :
    ∃ next, s.nextPendingRetransmission = some next ∧ next.retransmittableFrames ≠ [] ∧
      s.unackedPackets.isUnacked next.packetNumber = true := by
  unfold hasPendingRetransmissions at hpending
  unfold nextPendingRetransmission
  cases hlist : s.pendingRetransmissions with
  | nil =>
    rw [hlist] at hpending
    cases hpending
  | cons entry rest =>
    obtain ⟨info, hinfo, hframes⟩ := h.pending entry (hlist ▸ List.mem_cons_self ..)
    refine ⟨⟨entry.1, entry.2, info.retransmittableFrames⟩, ?_, hframes, ?_⟩
    · simp [hinfo]
    · have hnot : ¬s.unackedPackets.isPacketUseless entry.1 info = true := fun huseless =>
        hframes ((isPacketUseless_iff _ _ _).mp huseless).2.2.2
      simp only [isUnacked, hinfo]
      simpa using hnot

/-- **No call leaves the deque** as long as ack frames name only packets that were sent and are
handed on to their end, and there is always a packet to send where one waits. -/
theorem exists_run (hproper : ProperRun c a sendAlgorithm inputs)
    (hcomplete : Throughout (fun past e =>
      ∀ s ∈ after c a sendAlgorithm past, s.Complete e) inputs) :
    ∃ s, after c a sendAlgorithm inputs = some s ∧
      (s.hasPendingRetransmissions = true → ∃ next, s.nextPendingRetransmission = some next ∧
        next.retransmittableFrames ≠ [] ∧
        s.unackedPackets.isUnacked next.packetNumber = true) := by
  have hready : ∃ s, after c a sendAlgorithm inputs = some s ∧
      Ready (Reported inputs) inputs s := by
    refine tryRun_history (A := fun inputs => ProperRun c a sendAlgorithm inputs ∧
        Throughout (fun past e => ∀ s ∈ after c a sendAlgorithm past, s.Complete e) inputs)
      (P := fun inputs => Ready (Reported inputs) inputs) ?_
      ⟨ledger_new _ a sendAlgorithm, rfl, Nat.le_refl _⟩ ?_ inputs ⟨hproper, hcomplete⟩
    · exact fun es e hes => ⟨(throughout_concat.mp hes.1).1, (throughout_concat.mp hes.2).1⟩
    · intro es e s hes hs hready
      exact hready.step ((throughout_concat.mp hes.1).2 s hs) (tells_reported es s e)
        ((throughout_concat.mp hes.2).2 s hs)
  obtain ⟨s, hrun, hready⟩ := hready
  exact ⟨s, hrun, hready.ledger.managed.exists_nextPendingRetransmission⟩

theorem sampleRun_complete : Throughout (fun past e =>
    ∀ s ∈ after idleConfig (.new .nack false false) () past, s.Complete e) sampleRun :=
  by decide +kernel

theorem exists_sampleRun :
    ∃ s, after idleConfig (.new .nack false false) () sampleRun = some s ∧
      (s.hasPendingRetransmissions = true → ∃ next, s.nextPendingRetransmission = some next ∧
        next.retransmittableFrames ≠ [] ∧
        s.unackedPackets.isUnacked next.packetNumber = true) :=
  exists_run sampleRun_proper sampleRun_complete

end Runs
end QuicSentPacketManager
end CongestionResponse.SentPackets
