import CongestionResponse.ClusterBbr.Steps

/-! What `PROBE_RTT` of `MyBbrSender` measures.

An entry into `PROBE_RTT` clears `seq_ts_map_` and `min_rtt_` in the middle of `OnAck`, after
the RTT of the acknowledged packet was taken. So packets in flight at the entry leave no trace:
while the mode lasts, the map holds packets sent since and the minimum is an RTT of one of them,
or zero. On the way out zero is replaced by the minimum from before the entry
(`probe_rtt_measures_own_packets`). -/
namespace CongestionResponse.ClusterBbr
open Lib Quic

/-! ### A visit to `PROBE_RTT` -/

/-- What happened since the last entry: the packets sent with their times, the RTTs of those of
them that were acknowledged, and `min_rtt_` just before the entry. -/
structure Visit where
  minRttBefore : Int
  sent : List (Nat × Int)
  rtts : List Int

namespace Visit

def onSent (v : Visit) (t : Int) (p : Nat) : Visit := {v with sent := v.sent ++ [(p, t)]}

def onAck (v : Visit) (t : Int) (p : Nat) : Visit :=
  {v with rtts := v.rtts ++ (v.sent.filter fun x => decide (x.1 = p)).map fun x => t - x.2}

end Visit

def nextVisit (s : MyBbrSender) (v : Visit) : Event → Visit
  | .sent t p _ => v.onSent t p
  | .period _ => v
  | .ack t p =>
    if p ≤ s.lastAckSeq then v
    else if s.entersProbeRtt t p then ⟨(s.receive t p).rtt.minRtt, [], []⟩
    else v.onAck t p

def visitOf (s : MyBbrSender) (es : List Event) : Visit := record step nextVisit s ⟨0, [], []⟩ es

/-! ### The record of the RTT in a visit -/

/-- The record is of the visit alone. -/
structure Own (v : Visit) (r : RttRecord) : Prop where
  sent : ∀ x ∈ r.seqTsMap.entries, x ∈ v.sent
  minRtt : r.minRtt = 0 ∨ r.minRtt ∈ v.rtts
  recoredMinRtt : r.recoredMinRtt = v.minRttBefore

theorem minRtt_update_cases (m : MinRtt) (now rtt : Int) :
    (m.update now rtt).minRtt = m.minRtt ∨ (m.update now rtt).minRtt = rtt := by
  rw [MinRtt.minRtt_update]
  split
  · exact .inr rfl
  · exact (min_choice rtt m.minRtt).symm

theorem own_forget (r : RttRecord) : Own ⟨r.minRtt, [], []⟩ r.forget :=
  ⟨fun _ hx => absurd hx List.not_mem_nil, .inl rfl, rfl⟩

theorem Own.onSent {v : Visit} {r : RttRecord} (h : Own v r) (t : Int) (p : Nat) :
    Own (v.onSent t p) {r with seqTsMap := r.seqTsMap.insert p t} where
  sent := by
    intro x hx
    rcases OrderedMap.mem_insert.mp hx with hx | ⟨rfl, -⟩
    · exact List.mem_append_left _ (h.sent x hx)
    · exact List.mem_append_right _ (List.mem_singleton_self _)
  minRtt := h.minRtt
  recoredMinRtt := h.recoredMinRtt

theorem Own.onAck {v : Visit} {r : RttRecord} (h : Own v r) (t : Int) (p : Nat) :
    Own (v.onAck t p) (r.updateRtt t p) where
  sent := by
    intro x hx
    have hentries := OrderedMap.popWhile_le_entries r.seqTsMap p (fun (u : Unit) _ => u) ()
    have hx' : x ∈ r.seqTsMap.entries.filter fun e => decide (p < e.1) := hentries ▸ hx
    exact h.sent x (List.mem_filter.mp hx').1
  minRtt := by
    have hkept : r.minRtt = 0 ∨ r.minRtt ∈ (v.onAck t p).rtts :=
      h.minRtt.imp_right (List.mem_append_left _)
    unfold RttRecord.updateRtt
    cases hfind : r.seqTsMap.find? p with
    | none => exact hkept
    | some sentTs =>
      have hsent : (p, sentTs) ∈ v.sent := h.sent _ (OrderedMap.find?_eq_some.mp hfind)
      rcases minRtt_update_cases (r.lowerGlobalMinRtt (t - sentTs)).toMinRtt t (t - sentTs) with
        hsame | hsample
      · exact hsame.symm ▸ hkept
      · apply Or.inr
        refine hsample.symm ▸ List.mem_append_right _ (List.mem_map.mpr ⟨(p, sentTs), ?_, rfl⟩)
        exact List.mem_filter.mpr ⟨hsent, decide_eq_true rfl⟩
  recoredMinRtt := by
    unfold RttRecord.updateRtt
    cases r.seqTsMap.find? p <;> exact h.recoredMinRtt

theorem Own.restore {v : Visit} {r : RttRecord} (h : Own v r) (now : Int) :
    (r.restore now).minRtt = if r.minRtt = 0 then v.minRttBefore else r.minRtt := by
  rw [← h.recoredMinRtt, RttRecord.restore]
  by_cases hzero : r.minRtt = 0 <;> simp [hzero]

/-! ### One acknowledgement -/

/-- The record that the second half of `MaybeEnterOrExitProbeRtt` finds. -/
def MyBbrSender.found (s : MyBbrSender) (t : Int) (p : Nat) : RttRecord :=
  if s.entersProbeRtt t p then (s.receive t p).rtt.forget else (s.receive t p).rtt

/-- `PROBE_RTT` lasts, or ends in `PROBE_BW`. -/
inductive Probing (found : RttRecord) (now : Int) (s' : MyBbrSender) : Prop
  | lasts (hmode : s'.control.mode = .probeRtt) (hrtt : s'.rtt = found)
  | ends (hmode : s'.control.mode = .probeBw) (hrtt : s'.rtt = found.restore now)

theorem probing_exitProbeRtt {s : MyBbrSender} (hmode : s.control.mode = .probeRtt) (now : Int) :
    Probing s.rtt now (s.exitProbeRtt now) := by
  rw [MyBbrSender.exitProbeRtt, if_pos hmode]
  simp only
  split
  · refine .ends ?_ rfl
    rw [Control.enterProbeBandwidthMode, if_neg (by simp [hmode])]
  · exact .lasts hmode rfl

theorem exitProbeRtt_of_ne {s : MyBbrSender} (hmode : s.control.mode ≠ .probeRtt) (now : Int) :
    s.exitProbeRtt now = s := by
  rw [MyBbrSender.exitProbeRtt, if_neg hmode]

/-- What an accepted acknowledgement does that meets `PROBE_RTT` or enters it. -/
theorem probing_of_step {s s' : MyBbrSender} {t : Int} {p : Nat} (hp : s.lastAckSeq < p)
    (hstep : step s (.ack t p) = some s')
    (hprobes : s.control.mode = .probeRtt ∨ s.entersProbeRtt t p) :
    Probing (s.found t p) t s' := by
  cases steps_of_step hstep with
  | ignored hle => exact absurd hp (Nat.not_lt.mpr hle)
  | @enters _ _ graph _ henters hclear hindex hseq hacked =>
    have hprobing := probing_exitProbeRtt
      (show ((s.receive t p).probeRttStart graph).control.mode = .probeRtt from rfl) t
    rw [MyBbrSender.found, if_pos henters]
    cases hprobing with
    | lasts hmode hrtt => exact .lasts hmode hrtt
    | ends hmode hrtt => exact .ends hmode hrtt
  | stays _ hstays hack h =>
    have hmode : (s.receive t p).control.mode = .probeRtt := by
      rw [MyBbrSender.mode_receive, if_pos (hprobes.resolve_right hstays)]
    rw [MyBbrSender.found, if_neg hstays]
    cases probing_exitProbeRtt hmode t with
    | lasts hmode hrtt => exact .lasts (h.control ▸ hmode) (h.rtt.trans hrtt)
    | ends hmode hrtt => exact .ends (h.control ▸ hmode) (h.rtt.trans hrtt)

/-- An acknowledgement enters `PROBE_RTT` only by way of an expired minimum. -/
theorem mode_ne_of_step {s s' : MyBbrSender} {t : Int} {p : Nat} (hp : s.lastAckSeq < p)
    (hstep : step s (.ack t p) = some s')
    (hprobes : ¬(s.control.mode = .probeRtt ∨ s.entersProbeRtt t p)) :
    s'.control.mode ≠ .probeRtt := by
  obtain ⟨hmode, hstays⟩ := not_or.mp hprobes
  cases steps_of_step hstep with
  | ignored hle => exact absurd hp (Nat.not_lt.mpr hle)
  | enters _ henters => exact absurd henters hstays
  | stays _ _ hack h =>
    have hreceived : (s.receive t p).control.mode = .probeBw := by
      rw [MyBbrSender.mode_receive, if_neg hmode]
    rw [h.control, exitProbeRtt_of_ne (by simp [hreceived]), hreceived]
    decide

/-- The record found is of the visit, be it a new one. -/
theorem own_found {s : MyBbrSender} {v : Visit} {t : Int} {p : Nat} (hp : s.lastAckSeq < p)
    (hprobes : s.control.mode = .probeRtt ∨ s.entersProbeRtt t p)
    (h : s.control.mode = .probeRtt → Own v s.rtt) :
    Own (nextVisit s v (.ack t p)) (s.found t p) := by
  rw [nextVisit, if_neg (Nat.not_le.mpr hp), MyBbrSender.found]
  by_cases henters : s.entersProbeRtt t p
  · rw [if_pos henters, if_pos henters]
    exact own_forget _
  · rw [if_neg henters, if_neg henters]
    exact (h (hprobes.resolve_right henters)).onAck t p

/-! ### Whole runs -/

theorem own_run {minBps : Nat} {hasObserver : Bool} {random : MyQuicRandom} {es : List Event}
    {s : MyBbrSender} (hrun : tryRun step (.new minBps hasObserver random) es = some s) :
    s.control.mode = .probeRtt → Own (visitOf (.new minBps hasObserver random) es) s.rtt := by
  refine tryRun_reaches (A := fun _ => True)
    (P := fun es s => s.control.mode = .probeRtt →
      Own (visitOf (.new minBps hasObserver random) es) s.rtt)
    (fun _ _ _ => trivial) (fun hmode => by cases hmode) ?_ trivial hrun
  intro es e s s' _ hrun hstep ih hmode'
  rw [visitOf, record_concat _ _ hrun]
  cases e with
  | sent t p bytes =>
    cases steps_of_step hstep with
    | unrecorded hmode => exact (ih hmode').onSent t p
    | recorded hmode hadd => exact absurd (hmode.symm.trans hmode') (by decide)
  | period ms =>
    cases steps_of_step hstep
    exact ih hmode'
  | ack t p =>
    by_cases hp : s.lastAckSeq < p
    · by_cases hprobes : s.control.mode = .probeRtt ∨ s.entersProbeRtt t p
      · cases probing_of_step hp hstep hprobes with
        | lasts hmode hrtt => exact hrtt ▸ own_found hp hprobes ih
        | ends hmode hrtt => exact absurd (hmode.symm.trans hmode') (by decide)
      · exact absurd hmode' (mode_ne_of_step hp hstep hprobes)
    · have hle := Nat.le_of_not_lt hp
      rw [step, MyBbrSender.onAck, if_pos hle] at hstep
      obtain rfl := Option.some.inj hstep
      rw [nextVisit, if_pos hle]
      exact ih hmode'

/-- `min_rtt_` as an event leaves it before `PROBE_RTT` may end. -/
def minRttFound (s : MyBbrSender) : Event → Int
  | .ack t p => (s.found t p).minRtt
  | _ => s.rtt.minRtt

/-- An event that meets `PROBE_RTT`, or enters it, and ends it. -/
def EndsProbeRtt (s : MyBbrSender) (e : Event) (s' : MyBbrSender) : Prop :=
  (s.control.mode = .probeRtt ∨ EntersProbeRtt s e) ∧ s'.control.mode = .probeBw

/-- **`PROBE_RTT` measures its own packets.** While it lasts, `seq_ts_map_` holds packets sent
since the entry and `min_rtt_` is zero or an RTT of one of them. When it ends, the same is true
of the minimum found then; it stays, unless it is zero and the one from before the entry comes
back. -/
theorem probe_rtt_measures_own_packets (minBps : Nat) (hasObserver : Bool) (random : MyQuicRandom)
    (es : List Event) {s : MyBbrSender}
    (hrun : tryRun step (.new minBps hasObserver random) es = some s) :
    (s.control.mode = .probeRtt →
      (∀ x ∈ s.rtt.seqTsMap.entries, x ∈ (visitOf (.new minBps hasObserver random) es).sent) ∧
      (s.rtt.minRtt = 0 ∨ s.rtt.minRtt ∈ (visitOf (.new minBps hasObserver random) es).rtts)) ∧
    ∀ e s', step s e = some s' → EndsProbeRtt s e s' →
      let v := visitOf (.new minBps hasObserver random) (es ++ [e])
      (minRttFound s e = 0 ∨ minRttFound s e ∈ v.rtts) ∧
        s'.rtt.minRtt = if minRttFound s e = 0 then v.minRttBefore else minRttFound s e := by
  have hown := own_run hrun
  refine ⟨fun hmode => ⟨(hown hmode).sent, (hown hmode).minRtt⟩, ?_⟩
  intro e s' hstep hends
  obtain ⟨hprobes, hmode'⟩ := hends
  rw [visitOf, record_concat _ _ hrun]
  -- Only an accepted acknowledgement changes the mode.
  have hsame : s.control.mode = .probeRtt → s'.control.mode ≠ s.control.mode := by
    intro hmode
    rw [hmode, hmode']
    decide
  cases e with
  | sent t p bytes =>
    have hmode := hprobes.resolve_right id
    cases steps_of_step hstep with
    | unrecorded _ => exact absurd rfl (hsame hmode)
    | recorded _ _ => exact absurd rfl (hsame hmode)
  | period ms =>
    cases steps_of_step hstep
    exact absurd rfl (hsame (hprobes.resolve_right id))
  | ack t p =>
    by_cases hp : s.lastAckSeq < p
    · have hprobes' : s.control.mode = .probeRtt ∨ s.entersProbeRtt t p :=
        hprobes.imp_right And.right
      have hfound := own_found hp hprobes' hown
      cases probing_of_step hp hstep hprobes' with
      | lasts hmode hrtt => exact absurd (hmode.symm.trans hmode') (by decide)
      | ends hmode hrtt => exact ⟨hfound.minRtt, hrtt ▸ hfound.restore t⟩
    · rw [step, MyBbrSender.onAck, if_pos (Nat.le_of_not_lt hp)] at hstep
      obtain rfl := Option.some.inj hstep
      exact absurd rfl (hsame (hprobes.resolve_right fun h => hp h.1))

/-- Packets 2 and 3 are in flight when the acknowledgement of packet 2 enters `PROBE_RTT`. Packet
3 is acknowledged in the mode and not measured, packets 4 and 5 are sent in it. -/
def inFlightAtEntry : List Event :=
  [.sent 1 1 1000, .ack 11 1, .sent 20 2 1000, .sent 10000020 3 1000, .ack 10000100 2,
    .ack 10000105 3, .sent 10000110 4 1000, .ack 10000130 4, .sent 10000145 5 1000]

theorem probe_rtt_measures_in_flight_at_entry :
    ∃ s s', tryRun step (.new 100000 false ⟨fun _ => 2, 0⟩) inFlightAtEntry = some s ∧
      step s (.ack 10000160 5) = some s' ∧ s.control.mode = .probeRtt ∧
      (∀ x ∈ s.rtt.seqTsMap.entries, x ∈ [(4, 10000110), (5, 10000145)]) ∧
      (s.rtt.minRtt = 0 ∨ s.rtt.minRtt ∈ [20]) ∧ s'.control.mode = .probeBw ∧
      s'.rtt.minRtt = if minRttFound s (.ack 10000160 5) = 0 then 10
        else minRttFound s (.ack 10000160 5) := by
  have hmode' : (tryRun step (.new 100000 false ⟨fun _ => 2, 0⟩)
      (inFlightAtEntry ++ [.ack 10000160 5])).map (fun s => s.control.mode) = some .probeBw := by
    decide +kernel
  obtain ⟨s', hrun', hs'⟩ := Option.map_eq_some_iff.mp hmode'
  obtain ⟨s, hrun, hstep⟩ := tryRun_concat_eq_some hrun'
  have hmode : (tryRun step (.new 100000 false ⟨fun _ => 2, 0⟩) inFlightAtEntry).map
      (fun s => s.control.mode) = some .probeRtt := by decide +kernel
  rw [hrun] at hmode
  have hs : s.control.mode = .probeRtt := Option.some.inj hmode
  obtain ⟨hlasts, hends⟩ :=
    probe_rtt_measures_own_packets 100000 false ⟨fun _ => 2, 0⟩ inFlightAtEntry hrun
  have hsent : (visitOf (.new 100000 false ⟨fun _ => 2, 0⟩) inFlightAtEntry).sent =
      [(4, 10000110), (5, 10000145)] := by decide +kernel
  have hrtts : (visitOf (.new 100000 false ⟨fun _ => 2, 0⟩) inFlightAtEntry).rtts = [20] := by
    decide +kernel
  have hbefore : (visitOf (.new 100000 false ⟨fun _ => 2, 0⟩)
      (inFlightAtEntry ++ [.ack 10000160 5])).minRttBefore = 10 := by decide +kernel
  have hafter := (hends _ s' hstep ⟨.inl hs, hs'⟩).2
  rw [hsent, hrtts] at hlasts
  rw [hbefore] at hafter
  exact ⟨s, s', hrun, hstep, hs, (hlasts hs).1, (hlasts hs).2, hs', hafter⟩

end CongestionResponse.ClusterBbr
