import CongestionResponse.Lib.Gaps
import CongestionResponse.NsQuic.AckDelay

/-! What the receiver's traces say about the traffic.

The loss trace is exact: a number is reported once, when a greater one overtakes it. The rate
trace is not. Its windows are closed by the first packet that comes more than 500 ms after the
last report, however late that is, and the rate is taken over 500 ms all the same. -/
namespace CongestionResponse.NsQuic
open Lib Quic Framer
namespace NsQuicReceiver

/-! ### Events that leave the traces alone -/

section Quiet
variable {r : NsQuicReceiver} {e : Event}

/-- An event traces nothing and changes nothing that is traced. -/
structure Untraced (r : NsQuicReceiver) (e : Event) : Prop where
  running : (r.step e).running = r.running
  baseSeq : (r.step e).baseSeq = r.baseSeq
  lastRateTs : (r.step e).lastRateTs = r.lastRateTs
  recvByte : (r.step e).recvByte = r.recvByte
  outputs : ∀ x ∈ (r.react e).2, ∃ datagram, x = .toNetwork datagram

theorem untraced_of_react {r' : NsQuicReceiver} {outputs : List Output}
    (hreact : r.react e = (r', outputs)) (hrunning : r'.running = r.running)
    (hbase : r'.baseSeq = r.baseSeq) (hrate : r'.lastRateTs = r.lastRateTs)
    (hbyte : r'.recvByte = r.recvByte)
    (houtputs : ∀ x ∈ outputs, ∃ datagram, x = .toNetwork datagram) : Untraced r e := by
  have hstep : r.step e = r' := by rw [step, hreact]
  constructor
  · rw [hstep, hrunning]
  · rw [hstep, hbase]
  · rw [hstep, hrate]
  · rw [hstep, hbyte]
  · rw [hreact]
    exact houtputs

/-- Only data packets are traced. -/
theorem untraced (hrunning : r.running = true) (hnone : e.dataNumber = none) : Untraced r e := by
  have hnil : ∀ x ∈ ([] : List Output), ∃ datagram, x = .toNetwork datagram :=
    fun x hx => absurd hx List.not_mem_nil
  cases e with
  | incoming ms data =>
    cases hdata : readDatagram data with
    | stream seq sentTs =>
      rw [Event.dataNumber, Event.datagram, hdata] at hnone
      cases hnone
    | stopWaiting seq leastUnack =>
      exact untraced_of_react (react_stopWaiting hrunning hdata) rfl rfl rfl rfl hnil
    | other => exact untraced_of_react (react_other hdata) rfl rfl rfl rfl hnil
  | heartBeat ms =>
    have hreact : r.react (.heartBeat ms) = _ := react_heartBeat hrunning
    split_ifs at hreact
    · exact untraced_of_react hreact rfl rfl rfl rfl fun x hx => ⟨_, List.mem_singleton.mp hx⟩
    · exact untraced_of_react hreact rfl rfl rfl rfl hnil

/-- What is sent to the network leaves no trace. -/
theorem filterMap_toNetwork {α : Type} {f : Output → Option α}
    (hf : ∀ datagram, f (.toNetwork datagram) = none) {outputs : List Output}
    (h : ∀ x ∈ outputs, ∃ datagram, x = .toNetwork datagram) : outputs.filterMap f = [] := by
  apply List.filterMap_eq_nil_iff.mpr
  intro x hx
  obtain ⟨datagram, rfl⟩ := h x hx
  exact hf datagram

theorem stream_of_dataNumber {seq : Nat} (h : e.dataNumber = some seq) :
    ∃ ms data sentTs, e = .incoming ms data ∧ readDatagram data = .stream seq sentTs := by
  cases e with
  | incoming ms data =>
    cases hdata : readDatagram data with
    | stream seq' sentTs =>
      rw [Event.dataNumber, Event.datagram, hdata] at h
      cases h
      exact ⟨ms, data, sentTs, rfl, hdata⟩
    | stopWaiting seq' leastUnack =>
      rw [Event.dataNumber, Event.datagram, hdata] at h
      cases h
    | other =>
      rw [Event.dataNumber, Event.datagram, hdata] at h
      cases h
  | heartBeat ms => cases h

end Quiet

/-! ### The loss trace -/

/-- The numbers that `RecordLoss` reports. -/
def losses (outputs : List Output) : List Nat :=
  outputs.filterMap fun
    | .traceLoss seq _ => some seq
    | _ => none

/-- The numbers reported as lost, in order. -/
def lossesOf (es : List Event) : List Nat :=
  trace step (fun r e => losses (r.react e).2) new es

/-- How many events have raised `base_seq_`. -/
def raises (es : List Event) : Nat :=
  total step (fun r e => if r.baseSeq < (r.step e).baseSeq then 1 else 0) new es

theorem losses_append (a b : List Output) : losses (a ++ b) = losses a ++ losses b :=
  List.filterMap_append

theorem losses_eq_nil {outputs : List Output}
    (h : ∀ x ∈ outputs, ∃ datagram, x = .toNetwork datagram) : losses outputs = [] :=
  filterMap_toNetwork (fun _ => rfl) h

theorem losses_recordStreamFrame (r : NsQuicReceiver) (now : Int) (len seq sentTs : Nat) :
    losses (r.recordStreamFrame now len seq sentTs).2 =
      (List.range' (r.baseSeq + 1) (seq - (r.baseSeq + 1))).map (· % 2 ^ 32) := by
  have hrate : ∀ taken : NsQuicReceiver, losses (taken.recordRate now).2 = [] := by
    intro taken
    unfold recordRate
    split_ifs <;> rfl
  have hgap : ∀ owd, losses (recordLosses r.baseSeq seq owd) =
      (List.range' (r.baseSeq + 1) (seq - (r.baseSeq + 1))).map (· % 2 ^ 32) := by
    intro owd
    unfold recordLosses losses
    split_ifs with hseq
    · simp [List.filterMap_map]
    · have hzero : seq - (r.baseSeq + 1) = 0 := by omega
      rw [hzero]
      rfl
  simp only [recordStreamFrame, List.cons_append]
  show losses (recordLosses _ _ _ ++ _) = _
  rw [losses_append, hgap, hrate, List.append_nil]

section Losses
variable {r : NsQuicReceiver}

/-- An event raises `base_seq_` to the number of its data packet, if that is greater, and
reports what lies between. -/
theorem step_base (hrunning : r.running = true) (e : Event) :
    (r.step e).running = true ∧ (r.step e).baseSeq = max r.baseSeq (e.dataNumber.getD 0) ∧
      losses (r.react e).2 =
        (List.range' (r.baseSeq + 1) (e.dataNumber.getD 0 - (r.baseSeq + 1))).map (· % 2 ^ 32) := by
  cases hnumber : e.dataNumber with
  | none =>
    have h := untraced hrunning hnumber
    refine ⟨h.running.trans hrunning, by simp [h.baseSeq], ?_⟩
    rw [losses_eq_nil h.outputs]
    simp
  | some seq =>
    obtain ⟨ms, data, sentTs, rfl, hdata⟩ := stream_of_dataNumber hnumber
    obtain ⟨hsent, hbase, -⟩ := (r.recordStreamFrame (clockNow ms) data.length seq
      sentTs).1.maybeSendAck_frame (clockNow ms)
    obtain ⟨-, -, -, -, -, -, hrate, -⟩ :=
      recordRate_frame (r.takeStreamFrame (clockNow ms) data.length seq sentTs) (clockNow ms)
    have htaken : (r.takeStreamFrame (clockNow ms) data.length seq sentTs).baseSeq =
        max r.baseSeq seq := by
      simp only [takeStreamFrame]
      split_ifs <;> omega
    rw [step, react_stream_eq ms hrunning hdata]
    refine ⟨?_, (hbase.trans hrate).trans htaken, ?_⟩
    · exact (hsent.trans (recorded_recordStreamFrame ..).running).trans hrunning
    · show losses (_ ++ _) = _
      rw [losses_append, losses_recordStreamFrame, losses_eq_nil fun _ => outputs_maybeSendAck,
        List.append_nil]
      rfl

/-- The reported numbers are the gaps that the arrived ones leave. -/
theorem trace_losses_eq_gaps (hrunning : r.running = true) {es : List Event}
    (hes : ∀ k ∈ arrived es, k < 2 ^ 32) :
    trace step (fun r e => losses (r.react e).2) r es = gaps r.baseSeq (arrived es) := by
  induction es generalizing r with
  | nil => rfl
  | cons e es ih =>
    obtain ⟨hrun, hbase, hlosses⟩ := step_base hrunning e
    have htail : ∀ k ∈ arrived es, k < 2 ^ 32 := by
      intro k hk
      obtain ⟨e', he', hnumber⟩ := List.mem_filterMap.mp hk
      exact hes k (List.mem_filterMap.mpr ⟨e', List.mem_cons_of_mem _ he', hnumber⟩)
    show losses (r.react e).2 ++ trace step _ (r.step e) es = _
    rw [ih hrun htail, hbase, hlosses]
    cases hnumber : e.dataNumber with
    | none => simp [arrived, List.filterMap_cons_none hnumber]
    | some k =>
      have harrived : arrived (e :: es) = k :: arrived es := List.filterMap_cons_some hnumber
      have hk : k < 2 ^ 32 := hes k (by rw [harrived]; exact List.mem_cons_self)
      rw [harrived, gaps, Option.getD_some]
      congr 1
      -- The numbers in the gap are below `k`, so none is truncated.
      refine List.map_congr_left (g := id) (fun n hn => ?_) |>.trans (List.map_id _)
      rw [List.mem_range'_1] at hn
      exact Nat.mod_eq_of_lt (by omega)

end Losses

/-- `base_seq_` is the largest number that has arrived, and every number up to it has been
reported or has raised it. -/
structure Counted (es : List Event) (r : NsQuicReceiver) : Prop where
  running : r.running = true
  base : r.baseSeq = largest (arrived es)
  count : (lossesOf es).length + raises es = r.baseSeq

theorem counted_run (es : List Event) : Counted es (run step new es) := by
  refine run_history (A := fun _ => True) (fun _ _ _ => trivial) ⟨rfl, rfl, rfl⟩ ?_ es trivial
  intro es e _ h
  obtain ⟨hrun, hbase, hlosses⟩ := step_base h.running e
  refine ⟨hrun, ?_, ?_⟩
  · rw [hbase, h.base]
    exact (largest_filterMap_concat Event.dataNumber es e).symm
  · have hcount := h.count
    have hlength := congrArg List.length hlosses
    rw [List.length_map, List.length_range'] at hlength
    rw [lossesOf, raises, trace_concat, total_concat, List.length_append, hlength, hbase]
    unfold lossesOf raises at hcount
    split_ifs <;> omega

/-- **The loss trace is exact**, whatever arrives and in whatever order: `base_seq_` is the
largest number so far, no number is reported twice, a number is reported exactly if a greater
one came before it first did, and every number up to `base_seq_` was reported or raised it. -/
theorem loss_trace_exact (es : List Event) (hes : ∀ k ∈ arrived es, k < 2 ^ 32) :
    (run step new es).baseSeq = largest (arrived es) ∧ (lossesOf es).Nodup ∧
      (∀ n, n ∈ lossesOf es ↔ 0 < n ∧ Overtaken n (arrived es)) ∧
      (lossesOf es).length + raises es = (run step new es).baseSeq := by
  have h := counted_run es
  have hgaps : lossesOf es = gaps 0 (arrived es) := trace_losses_eq_gaps rfl hes
  refine ⟨h.base, ?_, fun n => ?_, h.count⟩
  · rw [hgaps]
    exact (pairwise_gaps 0 _).imp Nat.ne_of_lt
  · rw [hgaps, mem_gaps]

/-- The packets 2, 5, 3, 5, 1 arrive: 1, 3 and 4 are reported, two of them come later. -/
theorem loss_trace_exact_reordered :
    let es := [2, 5, 3, 5, 1].map fun n => Event.incoming n (sendFakePacket n (clockNow n))
    arrived es = [2, 5, 3, 5, 1] ∧ lossesOf es = [1, 3, 4] ∧ raises es = 2 ∧
      (lossesOf es).length + raises es = (run step new es).baseSeq := by
  intro es
  have harrived : arrived es = [2, 5, 3, 5, 1] := by decide +kernel
  refine ⟨harrived, by decide +kernel, by decide +kernel, ?_⟩
  exact (loss_trace_exact es (by rw [harrived]; decide)).2.2.2

/-! ### The rate trace -/

/-- The rates that `RecordRate` reports. -/
def rates (outputs : List Output) : List Nat :=
  outputs.filterMap fun
    | .traceRate kbps => some kbps
    | _ => none

def reports (r : NsQuicReceiver) (e : Event) : List Nat := rates (r.react e).2

def Event.size : Event → Nat
  | .incoming _ data => data.length
  | .heartBeat _ => 0

/-- The time of the last report, or of the first data packet, and the bytes of the data packets
counted since. -/
structure Window where
  start : Nat
  bytes : Nat
deriving DecidableEq

/-- The receiver, and its window if a data packet has arrived. -/
def measure (s : NsQuicReceiver × Option Window) (e : Event) : NsQuicReceiver × Option Window :=
  (s.1.step e,
    if s.1.reports e ≠ [] then some ⟨e.ms, 0⟩
    else if e.dataNumber = none then s.2
    else some (s.2.elim ⟨e.ms, e.size⟩ fun w => {w with bytes := w.bytes + e.size}))

def windowOf (es : List Event) : Option Window := (run measure (new, none) es).2

theorem run_measure (es : List Event) :
    run measure (new, none) es = (run step new es, windowOf es) :=
  Prod.ext (run_fst (fun _ _ => rfl) _ es) rfl

/-- What is reported for a number of bytes, in the `uint64_t` and `uint32_t` of the source. -/
def kbpsOf (bytes : Nat) : Nat := bytes * 8 % 2 ^ 64 / 500 % 2 ^ 32

theorem kbpsOf_mod (bytes : Nat) : kbpsOf (bytes % 2 ^ 64) = kbpsOf bytes := by
  have hmod : bytes % 2 ^ 64 * 8 % 2 ^ 64 = bytes * 8 % 2 ^ 64 := by omega
  unfold kbpsOf
  rw [hmod]

theorem rates_append (a b : List Output) : rates (a ++ b) = rates a ++ rates b :=
  List.filterMap_append

theorem rates_eq_nil {outputs : List Output}
    (h : ∀ x ∈ outputs, ∃ datagram, x = .toNetwork datagram) : rates outputs = [] :=
  filterMap_toNetwork (fun _ => rfl) h

theorem rates_recordStreamFrame (r : NsQuicReceiver) (now : Int) (len seq sentTs : Nat) :
    rates (r.recordStreamFrame now len seq sentTs).2 =
      rates ((r.takeStreamFrame now len seq sentTs).recordRate now).2 := by
  have hgap : ∀ owd, rates (recordLosses r.baseSeq seq owd) = [] := by
    intro owd
    unfold recordLosses rates
    split
    · simp [List.filterMap_map]
    · rfl
  simp only [recordStreamFrame, List.cons_append]
  show rates (recordLosses _ _ _ ++ _) = _
  rw [rates_append, hgap, List.nil_append]

section Rates
variable {r : NsQuicReceiver} {window : Option Window} {e : Event}

/-- The receiver's fields are those of the window, and zero before it is opened. -/
structure Rated (r : NsQuicReceiver) (window : Option Window) : Prop where
  running : r.running = true
  unopened : window = none → r.lastRateTs = 0 ∧ r.recvByte = 0
  opened : ∀ w ∈ window, r.lastRateTs = clockNow w.start + Delta.fromMilliseconds 500 ∧
    r.recvByte = w.bytes % 2 ^ 64

/-- The packet of an event closes a window. -/
def Closes (w : Window) (e : Event) : Prop := e.dataNumber ≠ none ∧ w.start + 500 < e.ms

instance (w : Window) (e : Event) : Decidable (Closes w e) := inferInstanceAs (Decidable (_ ∧ _))

/-- The three ways of `RecordRate`. -/
theorem recordRate_cases (r : NsQuicReceiver) (now : Int) :
    if r.lastRateTs = 0 then
      (r.recordRate now).1.lastRateTs = now + Delta.fromMilliseconds 500 ∧
        (r.recordRate now).1.recvByte = r.recvByte ∧ rates (r.recordRate now).2 = []
    else if r.lastRateTs < now then
      (r.recordRate now).1.lastRateTs = now + Delta.fromMilliseconds 500 ∧
        (r.recordRate now).1.recvByte = 0 ∧ rates (r.recordRate now).2 = [kbpsOf r.recvByte]
    else
      (r.recordRate now).1.lastRateTs = r.lastRateTs ∧
        (r.recordRate now).1.recvByte = r.recvByte ∧ rates (r.recordRate now).2 = [] := by
  unfold recordRate
  split_ifs <;> exact ⟨rfl, rfl, rfl⟩

/-- What a data packet does to the window's fields, and what it makes the receiver report. -/
theorem step_rate (hrunning : r.running = true) {seq : Nat} (hnumber : e.dataNumber = some seq) :
    (r.step e).running = true ∧
    if r.lastRateTs = 0 then
      (r.step e).lastRateTs = clockNow e.ms + Delta.fromMilliseconds 500 ∧
        (r.step e).recvByte = (r.recvByte + e.size) % 2 ^ 64 ∧ r.reports e = []
    else if r.lastRateTs < clockNow e.ms then
      (r.step e).lastRateTs = clockNow e.ms + Delta.fromMilliseconds 500 ∧
        (r.step e).recvByte = 0 ∧ r.reports e = [kbpsOf ((r.recvByte + e.size) % 2 ^ 64)]
    else
      (r.step e).lastRateTs = r.lastRateTs ∧
        (r.step e).recvByte = (r.recvByte + e.size) % 2 ^ 64 ∧ r.reports e = [] := by
  obtain ⟨ms, data, sentTs, rfl, hdata⟩ := stream_of_dataNumber hnumber
  obtain ⟨hsent, -, hrate, hbyte, -⟩ := (r.recordStreamFrame (clockNow ms) data.length seq
    sentTs).1.maybeSendAck_frame (clockNow ms)
  have hreports : r.reports (.incoming ms data) = rates ((r.takeStreamFrame (clockNow ms)
      data.length seq sentTs).recordRate (clockNow ms)).2 := by
    rw [reports, react_stream_eq ms hrunning hdata]
    show rates (_ ++ _) = _
    rw [rates_append, rates_recordStreamFrame, rates_eq_nil fun _ => outputs_maybeSendAck,
      List.append_nil]
  rw [hreports, step, react_stream_eq ms hrunning hdata]
  refine ⟨(hsent.trans (recorded_recordStreamFrame ..).running).trans hrunning, ?_⟩
  simp only [hrate, hbyte]
  exact recordRate_cases (r.takeStreamFrame (clockNow ms) data.length seq sentTs) (clockNow ms)

/-- In terms of the window: whether a packet is late, and the bytes counted with it. -/
theorem Rated.late (h : Rated r window) {w : Window} (hw : w ∈ window) {seq : Nat}
    (hnumber : e.dataNumber = some seq) :
    r.lastRateTs ≠ 0 ∧ (r.lastRateTs < clockNow e.ms ↔ Closes w e) ∧
      (r.recvByte + e.size) % 2 ^ 64 = (w.bytes + e.size) % 2 ^ 64 := by
  obtain ⟨hrate, hbyte⟩ := h.opened w hw
  refine ⟨?_, ?_, by rw [hbyte, Nat.mod_add_mod]⟩
  · rw [hrate, clockNow, Delta.fromMilliseconds, Delta.fromMilliseconds]
    omega
  · rw [hrate, Closes, hnumber]
    simp only [clockNow, Delta.fromMilliseconds, ne_eq, reduceCtorEq, not_false_eq_true, true_and]
    omega

/-- A packet that closes the window is reported on with the bytes of the window, its own
included; nothing else is. -/
theorem Rated.reports_eq (h : Rated r window) (e : Event) :
    r.reports e = window.elim [] fun w =>
      if Closes w e then [kbpsOf (w.bytes + e.size)] else [] := by
  cases hnumber : e.dataNumber with
  | none =>
    have hnone : r.reports e = [] := rates_eq_nil (untraced h.running hnumber).outputs
    cases window with
    | none => exact hnone
    | some w => simp [hnone, Closes, hnumber]
  | some seq =>
    have hstep := (step_rate h.running hnumber).2
    cases window with
    | none =>
      rw [if_pos (h.unopened rfl).1] at hstep
      exact hstep.2.2
    | some w =>
      obtain ⟨hne, hlate, hbytes⟩ := h.late rfl hnumber
      rw [if_neg hne, hbytes, kbpsOf_mod] at hstep
      by_cases hcloses : Closes w e
      · rw [if_pos (hlate.mpr hcloses)] at hstep
        simp [hcloses, hstep.2.2]
      · rw [if_neg (mt hlate.mp hcloses)] at hstep
        simp [hcloses, hstep.2.2]

theorem rated_some {w : Window} (hrunning : r.running = true)
    (hrate : r.lastRateTs = clockNow w.start + Delta.fromMilliseconds 500)
    (hbyte : r.recvByte = w.bytes % 2 ^ 64) : Rated r (some w) := by
  refine ⟨hrunning, fun hnone => absurd hnone (Option.some_ne_none w), fun w' hw' => ?_⟩
  cases hw'
  exact ⟨hrate, hbyte⟩

theorem Rated.step (h : Rated r window) (e : Event) :
    Rated (measure (r, window) e).1 (measure (r, window) e).2 := by
  unfold measure
  cases hnumber : e.dataNumber with
  | none =>
    have hsame := untraced h.running hnumber
    have hnone : r.reports e = [] := rates_eq_nil hsame.outputs
    simp only [hnone, ne_eq, not_true_eq_false, if_false, if_true]
    constructor
    · exact hsame.running.trans h.running
    · rw [hsame.lastRateTs, hsame.recvByte]
      exact h.unopened
    · rw [hsame.lastRateTs, hsame.recvByte]
      exact h.opened
  | some seq =>
    obtain ⟨hrunning, hstep⟩ := step_rate h.running hnumber
    cases window with
    | none =>
      obtain ⟨hzero, hbyte⟩ := h.unopened rfl
      rw [if_pos hzero, hbyte, Nat.zero_add] at hstep
      simp only [hstep.2.2, ne_eq, not_true_eq_false, if_false, reduceCtorEq]
      exact rated_some hrunning hstep.1 hstep.2.1
    | some w =>
      obtain ⟨hne, hlate, hbytes⟩ := h.late rfl hnumber
      rw [if_neg hne, hbytes] at hstep
      by_cases hcloses : Closes w e
      · rw [if_pos (hlate.mpr hcloses)] at hstep
        simp only [hstep.2.2, ne_eq, List.cons_ne_nil, not_false_eq_true, if_true]
        exact rated_some hrunning hstep.1 hstep.2.1
      · rw [if_neg (mt hlate.mp hcloses)] at hstep
        simp only [hstep.2.2, ne_eq, not_true_eq_false, if_false, reduceCtorEq]
        exact rated_some hrunning (hstep.1.trans (h.opened w rfl).1) hstep.2.1

end Rates

theorem rated_run (es : List Event) : Rated (run step new es) (windowOf es) := by
  have hrated : Rated (run measure (new, none) es).1 (run measure (new, none) es).2 := by
    refine run_history (A := fun _ => True)
      (P := fun _ (s : NsQuicReceiver × Option Window) => Rated s.1 s.2)
      (fun _ _ _ => trivial) ?_ (fun _ e _ h => h.step e) es trivial
    exact ⟨rfl, fun _ => ⟨rfl, rfl⟩, fun w hw => by cases hw⟩
  rwa [run_measure] at hrated

/-- A reported rate is at most that of the bytes counted since the last report, or the first
packet, over the time since. -/
def NotOverstated (past : List Event) (e : Event) : Prop :=
  ∀ kbps ∈ (run step new past).reports e, ∃ w ∈ windowOf past,
    kbps * (e.ms - w.start) ≤ 8 * (w.bytes + e.size)

/-! ### Which windows are not overstated

The windows are told from the arrivals alone, without the receiver. -/

/-- The first data packet opens a window. One that comes more than 500 ms later closes it and is
counted in it, and the next window begins there. -/
def nextWindow (window : Option Window) (e : Event) : Option Window :=
  if e.dataNumber = none then window
  else some (window.elim ⟨e.ms, e.size⟩ fun w =>
    if w.start + 500 < e.ms then ⟨e.ms, 0⟩ else {w with bytes := w.bytes + e.size})

def arrivalWindow (es : List Event) : Option Window := run nextWindow none es

theorem measure_eq_nextWindow {r : NsQuicReceiver} {window : Option Window} (h : Rated r window)
    (e : Event) : (measure (r, window) e).2 = nextWindow window e := by
  have hreports := h.reports_eq e
  unfold measure nextWindow
  cases window with
  | none => simp [hreports]
  | some w =>
    by_cases hdata : e.dataNumber = none
    · simp [hreports, Closes, hdata]
    · by_cases hlate : w.start + 500 < e.ms
      · simp [hreports, Closes, hdata, hlate]
      · simp [hreports, Closes, hdata, hlate]

theorem windowOf_eq_arrivalWindow (es : List Event) : windowOf es = arrivalWindow es := by
  induction es using List.reverseRecOn with
  | nil => rfl
  | append_singleton es e ih =>
    rw [arrivalWindow, run_concat, ← arrivalWindow, ← ih, ← measure_eq_nextWindow (rated_run es),
      windowOf, run_concat, run_measure]

/-- The bits of a window that the integers of the source hold, which is all of them below
`500 * 2 ^ 32`. -/
def heldBits (bytes : Nat) : Nat := 8 * bytes % 2 ^ 64 % (500 * 2 ^ 32)

/-- A closed window of so many bytes and milliseconds is not too long: there is not one unit of
500 held bits in it, or it is longer than 500 ms by no more than the bits in excess of the units
take, at one bit of each unit in a millisecond. -/
def NotTooLong (bytes elapsed : Nat) : Prop :=
  heldBits bytes < 500 ∨
    elapsed ≤ 500 + (8 * bytes - heldBits bytes + heldBits bytes % 500) / (heldBits bytes / 500)

theorem heldBits_eq {bytes : Nat} (h : 8 * bytes < 500 * 2 ^ 32) : heldBits bytes = 8 * bytes := by
  rw [heldBits, Nat.mod_eq_of_lt (show 8 * bytes < 2 ^ 64 by omega), Nat.mod_eq_of_lt h]

theorem notTooLong_iff {bytes : Nat} (h : 8 * bytes < 500 * 2 ^ 32) (elapsed : Nat) :
    NotTooLong bytes elapsed ↔
      8 * bytes < 500 ∨ elapsed ≤ 500 + 8 * bytes % 500 / (8 * bytes / 500) := by
  rw [NotTooLong, heldBits_eq h, Nat.sub_self, Nat.zero_add]

/-- Without a remainder a window must not be longer than 500 ms at all. -/
theorem not_notTooLong {bytes : Nat} (h : 8 * bytes < 500 * 2 ^ 32) (hpos : 0 < bytes)
    (hdvd : 500 ∣ 8 * bytes) {elapsed : Nat} (hlong : 500 < elapsed) :
    ¬NotTooLong bytes elapsed := by
  have hle := Nat.le_of_dvd (by omega) hdvd
  rw [notTooLong_iff h, Nat.mod_eq_zero_of_dvd hdvd, Nat.zero_div]
  omega

theorem kbpsOf_eq (bytes : Nat) : kbpsOf bytes = heldBits bytes / 500 := by
  rw [kbpsOf, heldBits, Nat.mod_mul_right_div_self, Nat.mul_comm bytes]

/-- The reported rate is no higher than the real one exactly for the windows that are not too
long. -/
theorem kbpsOf_mul_le_iff (bytes elapsed : Nat) :
    kbpsOf bytes * elapsed ≤ 8 * bytes ↔ NotTooLong bytes elapsed := by
  have hheld : heldBits bytes ≤ 8 * bytes := (Nat.mod_le _ _).trans (Nat.mod_le _ _)
  have hdiv := Nat.div_add_mod (heldBits bytes) 500
  have hall : 8 * bytes = 8 * bytes - heldBits bytes + heldBits bytes % 500 +
      500 * (heldBits bytes / 500) := by omega
  rw [kbpsOf_eq, NotTooLong]
  rcases Nat.eq_zero_or_pos (heldBits bytes / 500) with hzero | hpos
  · exact iff_of_true (by rw [hzero, Nat.zero_mul]; exact Nat.zero_le _) (.inl (by omega))
  · have hunits : ¬heldBits bytes < 500 := by omega
    rw [or_iff_right hunits, Nat.add_comm 500, ← Nat.add_mul_div_right _ _ hpos, ← hall,
      Nat.le_div_iff_mul_le hpos, Nat.mul_comm]

/-- Every window that is closed is not too long. -/
def ClosedInTime (past : List Event) (e : Event) : Prop :=
  ∀ w ∈ arrivalWindow past, Closes w e → NotTooLong (w.bytes + e.size) (e.ms - w.start)

theorem notOverstated_iff (past : List Event) (e : Event) :
    NotOverstated past e ↔ ClosedInTime past e := by
  have hreports := (rated_run past).reports_eq e
  unfold NotOverstated ClosedInTime
  rw [hreports, windowOf_eq_arrivalWindow]
  cases arrivalWindow past with
  | none => simp
  | some w =>
    by_cases hcloses : Closes w e
    · simp [hcloses, kbpsOf_mul_le_iff]
    · simp [hcloses]

/-- **The reported rates never overstate the traffic exactly if every window is closed in time.**
For windows of less than `500 * 2 ^ 32` bits that leaves the time the remainder of the division
by 500 gives, and no window in time if there is no remainder: the sender's packets of 1000 bytes
make up none. -/
theorem rate_never_overstated_iff (es : List Event) :
    (Throughout NotOverstated es ↔ Throughout ClosedInTime es) ∧
    ∀ bytes elapsed, 8 * bytes < 500 * 2 ^ 32 →
      (NotTooLong bytes elapsed ↔
        8 * bytes < 500 ∨ elapsed ≤ 500 + 8 * bytes % 500 / (8 * bytes / 500)) ∧
      (0 < bytes → 500 ∣ 8 * bytes → 500 < elapsed → ¬NotTooLong bytes elapsed) := by
  have heq : NotOverstated = ClosedInTime := by
    funext past e
    exact propext (notOverstated_iff past e)
  refine ⟨by rw [heq], fun bytes elapsed hlimit => ⟨notTooLong_iff hlimit elapsed, ?_⟩⟩
  intro hpos hdvd hlong
  exact not_notTooLong hlimit hpos hdvd hlong

/-- 31 and 32 bytes are 504 bits, which may take up to 504 ms. -/
theorem rate_never_overstated_two_small_packets :
    let packet := fun n ms size =>
      Event.incoming ms ((sendFakePacket n (clockNow ms)).take size)
    let es := [packet 1 1 31, packet 2 504 32]
    (run step new [packet 1 1 31]).reports (packet 2 504 32) = [1] ∧
      Throughout NotOverstated es := by
  intro packet es
  have hwindow : arrivalWindow [packet 1 1 31] = some ⟨1, 31⟩ := by decide +kernel
  have hsize : (packet 2 504 32).size = 32 := by decide +kernel
  have hshort : NotTooLong 63 503 :=
    ((rate_never_overstated_iff es).2 63 503 (by decide)).1.mpr (.inr (by decide))
  refine ⟨by decide +kernel, (rate_never_overstated_iff es).1.mpr ⟨?_, ?_, trivial⟩⟩
  · intro w hw
    cases hw
  · intro w hw _
    obtain rfl := Option.some.inj (hwindow.symm.trans hw)
    rw [hsize]
    exact hshort

/-- One packet, and the next ten seconds later: 32 kbps are reported, where 1.6 arrived. -/
theorem rate_overstated_after_outage :
    let packet := fun n ms => Event.incoming ms (sendFakePacket n (clockNow ms))
    let es := [packet 1 1, packet 2 10001]
    ClockForward es ∧ (run step new [packet 1 1]).reports (packet 2 10001) = [32] ∧
      windowOf [packet 1 1] = some ⟨1, 1000⟩ ∧ (packet 2 10001).size = 1000 ∧
      8 * (1000 + 1000) < 32 * (10001 - 1) ∧ ¬Throughout NotOverstated es := by
  intro packet es
  have hreports : (run step new [packet 1 1]).reports (packet 2 10001) = [32] := by decide +kernel
  have hwindow : windowOf [packet 1 1] = some ⟨1, 1000⟩ := by decide +kernel
  have hsize : (packet 2 10001).size = 1000 := by decide +kernel
  refine ⟨by decide, hreports, hwindow, hsize, by decide, fun hall => ?_⟩
  have hlate : NotOverstated [packet 1 1] (packet 2 10001) :=
    throughout_at (show Throughout NotOverstated ([packet 1 1] ++ packet 2 10001 :: []) from hall)
  obtain ⟨w, hw, hle⟩ := hlate 32 (by rw [hreports]; exact List.mem_singleton.mpr rfl)
  rw [hwindow] at hw
  cases hw
  rw [hsize] at hle
  exact absurd hle (by decide)

end NsQuicReceiver
end CongestionResponse.NsQuic
