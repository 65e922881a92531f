import CongestionResponse.ClusterBbr.History

/-! The bandwidth estimates of `MyBbrSender`.

An estimate divides the bytes of all acknowledged packets of a cluster by the time from the
first of their acknowledgements to the last. The bytes of the first acknowledgement were
delivered before that time began, so an estimate may exceed the rate at which the cluster was
delivered in every stretch of that time; `estimate_within_delivery_rate_iff` says when it does
not. -/
namespace CongestionResponse.ClusterBbr
open Lib Quic ClusterGraph

/-! ### How much an estimate says -/

/-- The bytes of acknowledged packets. -/
def bytesOf (acks : List (Int × Nat)) : Nat := (acks.map Prod.snd).sum

/-- The time from the first acknowledgement to the last. -/
def spanOf (acks : List (Int × Nat)) : Int :=
  (acks.getLast?.map Prod.fst).getD 0 - (acks.head?.map Prod.fst).getD 0

/-- Of acknowledgements in the order of their times, the first comes first and the last last. -/
theorem times_within {acks : List (Int × Nat)} (h : (acks.map Prod.fst).Pairwise (· ≤ ·))
    {x : Int × Nat} (hx : x ∈ acks) :
    (acks.head?.map Prod.fst).getD 0 ≤ x.1 ∧ x.1 ≤ (acks.getLast?.map Prod.fst).getD 0 := by
  constructor
  · cases acks with
    | nil => cases hx
    | cons first rest =>
      rw [List.head?_cons, Option.map_some, Option.getD_some]
      rcases List.mem_cons.mp hx with rfl | hx
      · exact le_refl _
      · exact (List.pairwise_cons.mp h).1 _ (List.mem_map_of_mem hx)
  · induction acks using List.reverseRecOn with
    | nil => cases hx
    | append_singleton init last _ =>
      rw [List.getLast?_concat, Option.map_some, Option.getD_some]
      rw [List.map_append, List.pairwise_append] at h
      rcases List.mem_append.mp hx with hx | hx
      · exact h.2.2 _ (List.mem_map_of_mem hx) _ (List.mem_singleton_self _)
      · rw [List.mem_singleton.mp hx]

theorem spanOf_nonneg {acks : List (Int × Nat)} (h : (acks.map Prod.fst).Pairwise (· ≤ ·)) :
    0 ≤ spanOf acks := by
  cases acks with
  | nil => simp [spanOf]
  | cons first rest =>
    obtain ⟨hfirst, hlast⟩ := times_within h (List.mem_cons_self)
    exact Int.sub_nonneg_of_le (hfirst.trans hlast)

/-- The acknowledgements of one cluster are in the order of the run. -/
theorem times_lookup (sizes : List (Nat × Nat)) (acks : List (Int × Nat)) :
    ((acks.filterMap fun ack => (sizes.lookup ack.2).map fun len => (ack.1, len)).map
      Prod.fst).Sublist (acks.map Prod.fst) := by
  induction acks with
  | nil => exact List.Sublist.refl _
  | cons ack rest ih =>
    rw [List.filterMap_cons]
    cases sizes.lookup ack.2 with
    | none => exact ih.trans (List.sublist_cons_self _ _)
    | some len => exact ih.cons_cons _

theorem SentClusterInfo.Tallied.span_eq {c : SentClusterInfo} {acks : List (Int × Nat)}
    (h : c.Tallied acks) : spanOf (c.acksIn acks) = c.lastAckTs - c.firstAckTs := by
  rw [spanOf, ← h.first, ← h.last]

/-- What an estimate was made of. -/
theorem Final.ackedBw_eq {acks : List (Int × Nat)} {s : MyBbrSender} {e : Estimate}
    (h : Final acks s e) (hacks : (acks.map Prod.fst).Pairwise (· ≤ ·)) :
    e.ackedBw = QuicBandwidth.fromBytesAndTimeDelta (bytesOf (e.info.acksIn acks))
      (spanOf (e.info.acksIn acks)) ∧ 0 < spanOf (e.info.acksIn acks) := by
  have hspan := h.tallied.span_eq
  have hne : e.info.lastAckTs ≠ e.info.firstAckTs := by
    have := h.spans
    simp only [SentClusterInfo.lacksSpan, decide_eq_false_iff_not, not_or] at this
    exact this.2
  have hnonneg : 0 ≤ spanOf (e.info.acksIn acks) :=
    spanOf_nonneg (hacks.sublist (times_lookup e.info.sizes acks))
  refine ⟨?_, by omega⟩
  rw [h.ackedBw, SentClusterInfo.ackRate, hspan, h.tallied.bytes]
  rfl

/-! ### What it is compared with -/

/-- The acknowledgements after some acknowledgement, up to a later one, deliver at most `rate`
bytes per second. -/
def DeliversAtMost (rate : Int) (acks : List (Int × Nat)) : Prop :=
  ∀ a x b y c, acks = a ++ x :: (b ++ y :: c) → x.1 < y.1 →
    (bytesOf (b ++ [y]) * QuicBandwidth.kNumMicrosPerSecond : Nat) ≤ rate * (y.1 - x.1)

/-- All bytes, those of the first acknowledgement included, over the time from the first to the
last: bytes per second, rounded down, as far as 64 bits hold them. -/
def wholeRate (acks : List (Int × Nat)) : Nat :=
  QuicBandwidth.heldRate
    (bytesOf acks * QuicBandwidth.kNumMicrosPerSecond % 2 ^ 64 / (spanOf acks).toNat)

/-- Nothing is lost of less than a terabyte. -/
theorem wholeRate_eq {acks : List (Int × Nat)} (h : bytesOf acks < 2 ^ 40) :
    wholeRate acks = bytesOf acks * QuicBandwidth.kNumMicrosPerSecond / (spanOf acks).toNat := by
  have hmicros : bytesOf acks * QuicBandwidth.kNumMicrosPerSecond < 2 ^ 60 := by
    unfold QuicBandwidth.kNumMicrosPerSecond
    omega
  have hquot := Nat.div_le_self (bytesOf acks * QuicBandwidth.kNumMicrosPerSecond)
    (spanOf acks).toNat
  rw [wholeRate, Nat.mod_eq_of_lt (by omega), QuicBandwidth.heldRate_of_lt (by omega)]

/-- After some acknowledgement, up to a later one, the bytes were delivered at the rate of the
whole at least, or less than one byte per second below it. -/
def StretchAsFast (acks : List (Int × Nat)) : Prop :=
  ∃ a x b y c, acks = a ++ x :: (b ++ y :: c) ∧ x.1 < y.1 ∧
    ((wholeRate acks : Int) - 1) * (y.1 - x.1) <
      (bytesOf (b ++ [y]) * QuicBandwidth.kNumMicrosPerSecond : Nat)

/-- A rate that no stretch exceeds is one that bounds the rate of the whole, if a stretch is as
fast as the whole; and else the whole is faster than all of its stretches. -/
theorem stretchAsFast_iff (acks : List (Int × Nat)) :
    StretchAsFast acks ↔
      ∀ rate : Int, DeliversAtMost rate acks → (wholeRate acks : Int) ≤ rate := by
  constructor
  · rintro ⟨a, x, b, y, c, heq, hlt, hfast⟩ rate hrate
    have hprod := lt_of_lt_of_le hfast (hrate a x b y c heq hlt)
    have := Int.lt_of_mul_lt_mul_right hprod (Int.sub_pos_of_lt hlt).le
    omega
  · intro hall
    by_contra hnone
    have hslow : DeliversAtMost ((wholeRate acks : Int) - 1) acks := by
      intro a x b y c heq hlt
      by_contra hfast
      exact hnone ⟨a, x, b, y, c, heq, hlt, lt_of_not_ge hfast⟩
    have := hall _ hslow
    omega

/-- **An estimate is at most the delivery rate, for every bound on that rate, exactly if some
stretch of the acknowledgements is as fast as the whole.** The acknowledgements are those of the
packets of the cluster the estimate is of, in the whole run. The whole has the bytes of the first
acknowledgement, and no stretch has them. -/
theorem estimate_within_delivery_rate_iff (minBps : Nat) (hasObserver : Bool)
    (random : MyQuicRandom) (es : List Event) (hes : Orderly es)
    (hsmall : StaySmall (.new minBps hasObserver random) es) :
    ∃ s, tryRun step (.new minBps hasObserver random) es = some s ∧
      ∀ e ∈ s.estimates,
        let acks := e.info.acksIn (acksOf (.new minBps hasObserver random) es)
        ((∀ rate : Int, DeliversAtMost rate acks → (e.ackedBw.bitsPerSecond : Int) ≤ 8 * rate) ↔
          StretchAsFast acks) ∧
        (bytesOf acks < 2 ^ 40 → wholeRate acks =
          bytesOf acks * QuicBandwidth.kNumMicrosPerSecond / (spanOf acks).toNat) := by
  obtain ⟨s, hrun, h⟩ := history_run minBps hasObserver random es hes hsmall
  refine ⟨s, hrun, fun e he => ⟨?_, wholeRate_eq⟩⟩
  obtain ⟨heq, hpos⟩ := (h.estimates e he).ackedBw_eq (hes.monotone.sublist h.acksTimes)
  rw [heq, QuicBandwidth.fromBytesAndTimeDelta_eq _ hpos.le, stretchAsFast_iff]
  refine forall₂_congr fun rate _ => ?_
  unfold wholeRate
  omega

/-- Three packets of a cluster, the last two acknowledged within a microsecond. -/
def lateBurst : List Event :=
  [.ack 1 1, .sent 1 2 1000, .sent 2 3 1000, .sent 3 4 1000, .ack 100 2, .ack 200 3, .ack 201 4,
    .sent 210 5 1000, .ack 400 5]

theorem lateBurst_orderly : Orderly lateBurst := ⟨⟨2, by decide⟩, by decide, by decide⟩

theorem estimate_within_delivery_rate_late_burst :
    ∃ s, tryRun step (.new 100000 false ⟨fun _ => 2, 0⟩) lateBurst = some s ∧
      s.estimates.length = 1 ∧
      ∀ e ∈ s.estimates, ∀ rate : Int,
        DeliversAtMost rate [(100, 1000), (200, 1000), (201, 1000)] →
          (e.ackedBw.bitsPerSecond : Int) ≤ 8 * rate := by
  have hacks : ((tryRun step (.new 100000 false ⟨fun _ => 2, 0⟩) lateBurst).map fun s =>
      s.estimates.map fun e =>
        e.info.acksIn (acksOf (.new 100000 false ⟨fun _ => 2, 0⟩) lateBurst)) =
        some [[(100, 1000), (200, 1000), (201, 1000)]] := by decide +kernel
  obtain ⟨s, hrun, h⟩ := estimate_within_delivery_rate_iff 100000 false ⟨fun _ => 2, 0⟩ lateBurst
    lateBurst_orderly (staySmall_of_few lateBurst_orderly (by decide))
  rw [hrun, Option.map_some, Option.some.injEq] at hacks
  refine ⟨s, hrun, by simpa using congrArg List.length hacks, fun e he => ?_⟩
  have hmem := List.mem_map_of_mem
    (f := fun e : Estimate =>
      e.info.acksIn (acksOf (.new 100000 false ⟨fun _ => 2, 0⟩) lateBurst)) he
  rw [hacks, List.mem_singleton] at hmem
  have hiff := (h e he).1
  rw [hmem] at hiff
  exact hiff.mpr ⟨[(100, 1000)], (200, 1000), [], (201, 1000), [], rfl, by decide, by decide⟩

/-- Two packets of a thousand bytes that are acknowledged one second apart. -/
def oneSecondApart : List Event :=
  [.ack 1 1, .sent 1 2 1000, .sent 2 3 1000, .ack 100 2, .ack 1000100 3, .sent 1000110 4 1000,
    .ack 1000200 4]

/-- A thousand bytes are delivered in the second between the two acknowledgements, and two
thousand bytes per second are estimated. -/
theorem estimate_exceeds_delivery_rate :
    Orderly oneSecondApart ∧
    ((tryRun step (.new 100000 false ⟨fun _ => 2, 0⟩) oneSecondApart).map fun s =>
      s.estimates.map fun e =>
        (e.info.acksIn (acksOf (.new 100000 false ⟨fun _ => 2, 0⟩) oneSecondApart),
          e.ackedBw.bitsPerSecond)) = some [([(100, 1000), (1000100, 1000)], 16000)] ∧
    DeliversAtMost 1000 [(100, 1000), (1000100, 1000)] ∧ ¬(16000 : Int) ≤ 8 * 1000 := by
  refine ⟨⟨⟨2, by decide⟩, by decide, by decide⟩, by decide +kernel, ?_, by decide⟩
  intro a x b y c heq _
  have hlength := congrArg List.length heq
  simp only [List.length_cons, List.length_append, List.length_nil] at hlength
  obtain rfl : a = [] := List.eq_nil_of_length_eq_zero (by omega)
  obtain rfl : b = [] := List.eq_nil_of_length_eq_zero (by omega)
  obtain rfl : c = [] := List.eq_nil_of_length_eq_zero (by omega)
  obtain ⟨rfl, rfl⟩ : x = (100, 1000) ∧ y = (1000100, 1000) := by simpa [eq_comm] using heq
  decide

end CongestionResponse.ClusterBbr
