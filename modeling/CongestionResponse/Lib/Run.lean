import Mathlib.Data.List.Induction

/-! Runs of a step function.

A machine is a step function `σ → ε → σ`; a run applies it to a list of events.
`total` adds up what each step contributes, in the state it happens in, and
`Along` asks a condition of every event in the state it happens in, `Throughout` after
the events it follows. The rules are
the two forms of induction over a run: `run_preserves`, for an invariant of the
state alone, and `run_history`, for an invariant that speaks about the events so
far. `along_trace` carries a condition on the events over to what they give out. For
a step that may fail, `tryRun_history` proves in one go that a run does not fail and
what holds where it ends, `tryRun_reaches` what holds where it ends if it does not fail,
and `tryRun_iff` which runs keep a property. `record` is a history kept beside such a run. -/
namespace CongestionResponse.Lib
variable {σ τ ε : Type}

def run (step : σ → ε → σ) (s : σ) (es : List ε) : σ := es.foldl step s

@[simp] theorem run_nil (step : σ → ε → σ) (s : σ) : run step s [] = s := rfl

@[simp] theorem run_cons (step : σ → ε → σ) (s : σ) (e : ε) (es : List ε) :
    run step s (e :: es) = run step (step s e) es := rfl

theorem run_append (step : σ → ε → σ) (s : σ) (a b : List ε) :
    run step s (a ++ b) = run step (run step s a) b := List.foldl_append ..

theorem run_concat (step : σ → ε → σ) (s : σ) (es : List ε) (e : ε) :
    run step s (es ++ [e]) = step (run step s es) e := by
  rw [run_append]
  rfl

/-- The sum over a run of what each event contributes in the state it meets. -/
def total (step : σ → ε → σ) (w : σ → ε → Nat) (s : σ) : List ε → Nat
  | [] => 0
  | e :: es => w s e + total step w (step s e) es

theorem total_append (step : σ → ε → σ) (w : σ → ε → Nat) (s : σ) (a b : List ε) :
    total step w s (a ++ b) = total step w s a + total step w (run step s a) b := by
  induction a generalizing s with
  | nil => exact (Nat.zero_add _).symm
  | cons e rest ih =>
    show w s e + total step w (step s e) (rest ++ b) = _
    rw [ih, run_cons, total, Nat.add_assoc]

theorem total_concat (step : σ → ε → σ) (w : σ → ε → Nat) (s : σ) (es : List ε) (e : ε) :
    total step w s (es ++ [e]) = total step w s es + w (run step s es) e := by
  rw [total_append]
  rfl

/-- Every event of the run satisfies `ok` in the state it meets. -/
def Along (step : σ → ε → σ) (ok : σ → ε → Prop) (s : σ) : List ε → Prop
  | [] => True
  | e :: es => ok s e ∧ Along step ok (step s e) es

instance Along.decide {step : σ → ε → σ} {ok : σ → ε → Prop} [∀ s e, Decidable (ok s e)] :
    (s : σ) → (es : List ε) → Decidable (Along step ok s es)
  | _, [] => isTrue trivial
  | s, e :: es =>
    have : Decidable (Along step ok (step s e) es) := Along.decide (step s e) es
    inferInstanceAs (Decidable (_ ∧ _))

theorem along_append {step : σ → ε → σ} {ok : σ → ε → Prop} {s : σ} {a b : List ε} :
    Along step ok s (a ++ b) ↔ Along step ok s a ∧ Along step ok (run step s a) b := by
  induction a generalizing s with
  | nil => simp [Along]
  | cons e rest ih =>
    show ok s e ∧ Along step ok (step s e) (rest ++ b) ↔ _
    rw [ih, run_cons, Along, and_assoc]

theorem along_concat {step : σ → ε → σ} {ok : σ → ε → Prop} {s : σ} {es : List ε} {e : ε} :
    Along step ok s (es ++ [e]) ↔ Along step ok s es ∧ ok (run step s es) e := by
  rw [along_append]
  simp [Along]

/-- What every event of a run gives out in the state it meets, in order. -/
def trace {ω : Type} (step : σ → ε → σ) (out : σ → ε → List ω) (s : σ) : List ε → List ω
  | [] => []
  | e :: es => out s e ++ trace step out (step s e) es

theorem trace_append {ω : Type} (step : σ → ε → σ) (out : σ → ε → List ω) (s : σ) (a b : List ε) :
    trace step out s (a ++ b) = trace step out s a ++ trace step out (run step s a) b := by
  induction a generalizing s with
  | nil => rfl
  | cons e rest ih =>
    show out s e ++ trace step out (step s e) (rest ++ b) = _
    rw [ih, ← List.append_assoc]
    rfl

theorem trace_concat {ω : Type} (step : σ → ε → σ) (out : σ → ε → List ω) (s : σ) (es : List ε)
    (e : ε) : trace step out s (es ++ [e]) = trace step out s es ++ out (run step s es) e := by
  rw [trace_append, trace, trace, List.append_nil]

/-- What a machine gives out is read off any machine that shows its state all along. -/
theorem trace_map {ω : Type} {step : σ → ε → σ} {step' : τ → ε → τ} {g : σ → τ}
    (hstep : ∀ s e, g (step s e) = step' (g s) e) (out : τ → ε → List ω) (s : σ) (es : List ε) :
    trace step' out (g s) es = trace step (fun s e => out (g s) e) s es := by
  induction es generalizing s with
  | nil => rfl
  | cons e rest ih => rw [trace, trace, ← hstep, ih]

/-- What a run gives out is given out by one of its events. -/
theorem mem_trace {ω : Type} {step : σ → ε → σ} {out : σ → ε → List ω} {s : σ} {es : List ε} {x : ω}
    (h : x ∈ trace step out s es) : ∃ a e b, es = a ++ e :: b ∧ x ∈ out (run step s a) e := by
  induction es generalizing s with
  | nil => cases h
  | cons e rest ih =>
    rcases List.mem_append.mp h with h | h
    · exact ⟨[], e, rest, rfl, h⟩
    · obtain ⟨a, e', b, rfl, hx⟩ := ih h
      exact ⟨e :: a, e', b, rfl, hx⟩

/-- A condition on the events of a run is a condition on what they give out, where a second
machine reads the output and follows the first as long as the condition holds. -/
theorem along_trace {ω : Type} {step : σ → ε → σ} {ok : σ → ε → Prop} {out : σ → ε → List ω}
    {step' : τ → ω → τ} {ok' : τ → ω → Prop} {R : σ → τ → Prop}
    (hok : ∀ s t e, R s t → (ok s e ↔ Along step' ok' t (out s e)))
    (hstep : ∀ s t e, R s t → ok s e → R (step s e) (run step' t (out s e))) {s : σ} {t : τ}
    (hst : R s t) (es : List ε) :
    Along step ok s es ↔ Along step' ok' t (trace step out s es) := by
  induction es generalizing s t with
  | nil => exact Iff.rfl
  | cons e rest ih =>
    show ok s e ∧ Along step ok (step s e) rest ↔
      Along step' ok' t (out s e ++ trace step out (step s e) rest)
    rw [along_append, ← hok s t e hst]
    exact and_congr_right fun h => ih (hstep s t e hst h)

/-- An invariant of the state that every allowed step keeps holds after a run. -/
theorem run_preserves {step : σ → ε → σ} {ok : σ → ε → Prop} {P : σ → Prop}
    (hstep : ∀ s e, ok s e → P s → P (step s e)) {s : σ} (hs : P s) {es : List ε}
    (hes : Along step ok s es) : P (run step s es) := by
  induction es generalizing s with
  | nil => exact hs
  | cons e rest ih => exact ih (hstep s e hes.1 hs) hes.2

theorem along_of_forall {step : σ → ε → σ} {ok : ε → Prop} {s : σ} {es : List ε}
    (h : ∀ e ∈ es, ok e) : Along step (fun _ e => ok e) s es := by
  induction es generalizing s with
  | nil => trivial
  | cons e rest ih =>
    exact ⟨h e (List.mem_cons_self ..), ih fun e he => h e (List.mem_cons_of_mem _ he)⟩

theorem along_mono {step : σ → ε → σ} {ok ok' : σ → ε → Prop} (h : ∀ s e, ok s e → ok' s e) {s : σ}
    {es : List ε} (hes : Along step ok s es) : Along step ok' s es := by
  induction es generalizing s with
  | nil => trivial
  | cons e rest ih => exact ⟨h s e hes.1, ih hes.2⟩

/-- Two conditions on the events that agree wherever an invariant holds. -/
theorem along_congr {step : σ → ε → σ} {good ok ok' : σ → ε → Prop} {P : σ → Prop}
    (hstep : ∀ s e, good s e → P s → P (step s e))
    (hiff : ∀ s e, good s e → P s → (ok s e ↔ ok' s e)) {s : σ} (hs : P s) {es : List ε}
    (hes : Along step good s es) : Along step ok s es ↔ Along step ok' s es := by
  induction es generalizing s with
  | nil => exact Iff.rfl
  | cons e rest ih => exact and_congr (hiff s e hes.1 hs) (ih (hstep s e hes.1 hs) hes.2)

/-- Every event satisfies `ok` after the events before it. -/
def Throughout (ok : List ε → ε → Prop) (es : List ε) : Prop :=
  Along (fun past e => past ++ [e]) ok [] es

instance {ok : List ε → ε → Prop} [∀ past e, Decidable (ok past e)] (es : List ε) :
    Decidable (Throughout ok es) := Along.decide [] es

theorem throughout_concat {ok : List ε → ε → Prop} {es : List ε} {e : ε} :
    Throughout ok (es ++ [e]) ↔ Throughout ok es ∧ ok es e := by
  have hpast : run (fun past e => past ++ [e]) [] es = es := by
    induction es using List.reverseRecOn with
    | nil => rfl
    | append_singleton es e ih => rw [run_concat, ih]
  rw [Throughout, along_concat, hpast]
  rfl

theorem throughout_at {ok : List ε → ε → Prop} {past rest : List ε} {e : ε}
    (h : Throughout ok (past ++ e :: rest)) : ok past e := by
  rw [List.append_cons, Throughout, along_append] at h
  exact (throughout_concat.mp h.1).2

/-- Induction over a run with its history: `P es s` speaks about the events so
far and the state they lead to, and `A` is what is known of the whole event list,
closed under taking prefixes. -/
theorem run_history {step : σ → ε → σ} {s₀ : σ} {A : List ε → Prop} {P : List ε → σ → Prop}
    (hA : ∀ es e, A (es ++ [e]) → A es) (h₀ : P [] s₀)
    (hstep : ∀ es e, A (es ++ [e]) → P es (run step s₀ es) →
      P (es ++ [e]) (step (run step s₀ es) e))
    (es : List ε) (hes : A es) : P es (run step s₀ es) := by
  induction es using List.reverseRecOn with
  | nil => exact h₀
  | append_singleton es e ih =>
    rw [run_concat]
    exact hstep es e hes (ih (hA es e hes))

/-- Two machines driven by the same events stay related. -/
theorem run_simulates {step : σ → ε → σ} {step' : τ → ε → τ} {ok : σ → ε → Prop}
    {R : σ → τ → Prop} (hstep : ∀ s t e, ok s e → R s t → R (step s e) (step' t e)) {s : σ} {t : τ}
    (hst : R s t) {es : List ε} (hes : Along step ok s es) :
    R (run step s es) (run step' t es) := by
  induction es generalizing s t with
  | nil => exact hst
  | cons e rest ih => exact ih (hstep s t e hes.1 hst) hes.2

/-- A machine with something kept beside its state runs as the machine does. -/
theorem run_fst {step : σ → ε → σ} {step' : σ × τ → ε → σ × τ}
    (hstep : ∀ s e, (step' s e).1 = step s.1 e) (s : σ × τ) (es : List ε) :
    (run step' s es).1 = run step s.1 es := by
  induction es generalizing s with
  | nil => rfl
  | cons e rest ih => rw [run_cons, ih, hstep, run_cons]

/-! ### Steps that may fail -/

/-- A step that may fail, as a step of states that may be missing. -/
def attempt (step : σ → ε → Option σ) (s : Option σ) (e : ε) : Option σ :=
  s.bind fun s => step s e

/-- A run of a step that may fail: it fails when one of its steps does. -/
def tryRun (step : σ → ε → Option σ) (s : σ) (es : List ε) : Option σ :=
  run (attempt step) (some s) es

theorem tryRun_concat (step : σ → ε → Option σ) (s : σ) (es : List ε) (e : ε) :
    tryRun step s (es ++ [e]) = (tryRun step s es).bind fun s => step s e :=
  run_concat (attempt step) (some s) es e

/-- A change of the state that every step commutes with is made before or after a loop. -/
theorem foldlM_commute {step : σ → ε → Option σ} {g : σ → σ}
    (hstep : ∀ s e, step (g s) e = (step s e).map g) (s : σ) (es : List ε) :
    es.foldlM step (g s) = (es.foldlM step s).map g := by
  induction es generalizing s with
  | nil => rfl
  | cons e rest ih =>
    rw [List.foldlM_cons, List.foldlM_cons, hstep]
    cases step s e with
    | none => rfl
    | some s' => exact ih s'

/-- Induction over a run with its history, for a step that succeeds where the invariant
holds. -/
theorem tryRun_history {step : σ → ε → Option σ} {s₀ : σ} {A : List ε → Prop}
    {P : List ε → σ → Prop} (hA : ∀ es e, A (es ++ [e]) → A es) (h₀ : P [] s₀)
    (hstep : ∀ es e s, A (es ++ [e]) → tryRun step s₀ es = some s → P es s →
      ∃ s', step s e = some s' ∧ P (es ++ [e]) s')
    (es : List ε) (hes : A es) : ∃ s, tryRun step s₀ es = some s ∧ P es s := by
  induction es using List.reverseRecOn with
  | nil => exact ⟨s₀, rfl, h₀⟩
  | append_singleton es e ih =>
    obtain ⟨s, hrun, hP⟩ := ih (hA es e hes)
    obtain ⟨s', hs', hP'⟩ := hstep es e s hes hrun hP
    exact ⟨s', by rw [tryRun_concat, hrun, Option.bind_some, hs'], hP'⟩

theorem tryRun_concat_eq_some {step : σ → ε → Option σ} {s₀ s' : σ} {es : List ε} {e : ε}
    (h : tryRun step s₀ (es ++ [e]) = some s') :
    ∃ s, tryRun step s₀ es = some s ∧ step s e = some s' := by
  rw [tryRun_concat] at h
  exact Option.bind_eq_some_iff.mp h

/-- Induction over a run that succeeded, with its history. -/
theorem tryRun_reaches {step : σ → ε → Option σ} {s₀ : σ} {A : List ε → Prop}
    {P : List ε → σ → Prop} (hA : ∀ es e, A (es ++ [e]) → A es) (h₀ : P [] s₀)
    (hstep : ∀ es e s s', A (es ++ [e]) → tryRun step s₀ es = some s → step s e = some s' →
      P es s → P (es ++ [e]) s') {es : List ε} (hes : A es) {s : σ}
    (hrun : tryRun step s₀ es = some s) : P es s := by
  induction es using List.reverseRecOn generalizing s with
  | nil =>
    obtain rfl := Option.some.inj hrun
    exact h₀
  | append_singleton es e ih =>
    obtain ⟨s₁, hrun₁, hs⟩ := tryRun_concat_eq_some hrun
    exact hstep es e s₁ s hes hrun₁ hs (ih (hA es e hes) hrun₁)

/-- A property that every event keeps exactly if it is `Q` holds all along a run exactly if
all events are. -/
theorem tryRun_iff {step : σ → ε → Option σ} {s₀ : σ} {A : List ε → Prop}
    {P : List ε → σ → Prop} {Q : List ε → σ → ε → Prop} (hA : ∀ es e, A (es ++ [e]) → A es)
    (h₀ : P [] s₀)
    (hstep : ∀ es e s s', A (es ++ [e]) → tryRun step s₀ es = some s → step s e = some s' →
      P es s → (P (es ++ [e]) s' ↔ Q es s e)) {es : List ε} (hes : A es) {s : σ}
    (hrun : tryRun step s₀ es = some s) :
    (∀ past s, past <+: es → tryRun step s₀ past = some s → P past s) ↔
      Throughout (fun past e => ∀ s ∈ tryRun step s₀ past, Q past s e) es := by
  induction es using List.reverseRecOn generalizing s with
  | nil =>
    refine iff_of_true (fun past s hpast hs => ?_) trivial
    obtain rfl := List.prefix_nil.mp hpast
    obtain rfl := Option.some.inj hs
    exact h₀
  | append_singleton es e ih =>
    obtain ⟨s₁, hrun₁, hs⟩ := tryRun_concat_eq_some hrun
    rw [throughout_concat, ← ih (hA es e hes) hrun₁]
    constructor
    · intro h
      refine ⟨fun past s hpast => h past s (hpast.trans (List.prefix_append _ _)), ?_⟩
      intro s₂ hs₂
      obtain rfl := Option.some.inj (hrun₁.symm.trans hs₂)
      exact (hstep es e s₁ s hes hrun₁ hs (h es s₁ (List.prefix_append _ _) hrun₁)).mp
        (h _ s (List.prefix_refl _) hrun)
    · rintro ⟨hpast, hok⟩ past s₂ hprefix hs₂
      rcases List.prefix_concat_iff.mp hprefix with rfl | hprefix
      · obtain rfl := Option.some.inj (hrun.symm.trans hs₂)
        exact (hstep es e s₁ s hes hrun₁ hs (hpast es s₁ (List.prefix_refl _) hrun₁)).mpr
          (hok s₁ hrun₁)
      · exact hpast past s₂ hprefix hs₂

/-- What is recorded beside a run: every event changes the record, in the state it meets. -/
def record {γ : Type} (step : σ → ε → Option σ) (next : σ → γ → ε → γ) (s : σ) (g : γ)
    (es : List ε) : γ :=
  (run (fun state e => (attempt step state.1 e, state.1.elim state.2 fun s => next s state.2 e))
    (some s, g) es).2

theorem record_concat {γ : Type} {step : σ → ε → Option σ} (next : σ → γ → ε → γ) {s s' : σ} (g : γ)
    {es : List ε} (h : tryRun step s es = some s') (e : ε) :
    record step next s g (es ++ [e]) = next s' (record step next s g es) e := by
  have hstate : ∀ es, (run (fun (state : Option σ × γ) e =>
      (attempt step state.1 e, state.1.elim state.2 fun s => next s state.2 e)) (some s, g) es).1 =
        tryRun step s es := by
    intro es
    induction es using List.reverseRecOn with
    | nil => rfl
    | append_singleton es e ih =>
      rw [run_concat, tryRun_concat, ← ih]
      rfl
  rw [record, run_concat, hstate, h]
  rfl

end CongestionResponse.Lib
