import CongestionResponse.Lib.ParseLogic

/-! Payloads: bytes that are one item after another.

A `Format` says what the items are: the bytes of each, what is reported of it, which items are
well formed, and which bytes may stand behind one. The last is for items that do not say where
they end. A parser of one item that `Matches` the format takes every well-formed item and
nothing else; the loop around it then accepts exactly the payloads (`Matches.loops_iff`). -/
namespace CongestionResponse.Lib
variable {ε κ ι α β : Type}

/-! ### Taking a run apart -/

theorem Parse.of_bind_ok {p : Parse ε κ α} {f : α → Parse ε κ β} {c c' : Cursor κ} {b : β}
    (h : (p >>= f) c = (.ok b, c')) : ∃ a c₁, p c = (.ok a, c₁) ∧ f a c₁ = (.ok b, c') := by
  rcases hc : p c with ⟨e | a, c₁⟩
  · rw [Parse.bind_error hc] at h
    cases h
  · rw [Parse.bind_ok hc] at h
    exact ⟨a, c₁, rfl, h⟩

theorem Parse.of_mapError_ok {ε' : Type} {p : Parse ε κ α} {g : ε → ε'} {c c' : Cursor κ} {a : α}
    (h : p.mapError g c = (.ok a, c')) : p c = (.ok a, c') := by
  unfold Parse.mapError at h
  rcases hc : p c with ⟨e | b, c₁⟩
  · rw [hc] at h
    cases h
  · rw [hc] at h
    cases h
    rfl

/-- A loop has one result. -/
theorem Loops.unique {body : Parse ε κ Bool} {c : Cursor κ} {r r' : Except ε Unit × Cursor κ}
    (h : Loops body c r) (h' : Loops body c r') : r = r' := by
  induction h with
  | done hrest =>
    cases h' with
    | done _ => rfl
    | failed hne _ => exact absurd hrest hne
    | stopped hne _ => exact absurd hrest hne
    | next hne _ _ => exact absurd hrest hne
  | failed hne hc =>
    cases h' with
    | done hrest => exact absurd hrest hne
    | failed _ hc' => rw [hc] at hc'; cases hc'; rfl
    | stopped _ hc' => rw [hc] at hc'; cases hc'
    | next _ hc' _ => rw [hc] at hc'; cases hc'
  | stopped hne hc =>
    cases h' with
    | done hrest => exact absurd hrest hne
    | failed _ hc' => rw [hc] at hc'; cases hc'
    | stopped _ hc' => rw [hc] at hc'; cases hc'; rfl
    | next _ hc' _ => rw [hc] at hc'; cases hc'
  | next hne hc _ ih =>
    cases h' with
    | done hrest => exact absurd hrest hne
    | failed _ hc' => rw [hc] at hc'; cases hc'
    | stopped _ hc' => rw [hc] at hc'; cases hc'
    | next _ hc' hloop => rw [hc] at hc'; cases hc'; exact ih hloop

/-! ### Formats -/

structure Format (ι κ : Type) where
  bytes : ι → List UInt8
  calls : ι → List κ
  Valid : ι → Prop
  Before : ι → List UInt8 → Prop

namespace Format
variable (F : Format ι κ)

def payload (items : List ι) : List UInt8 := items.flatMap F.bytes

def reports (items : List ι) : List κ := items.flatMap F.calls

/-- Well-formed items, each in front of bytes that it may stand before. -/
def Payload : List ι → Prop
  | [] => True
  | item :: rest => F.Valid item ∧ F.Before item (F.payload rest) ∧ Payload rest

@[simp] theorem payload_nil : F.payload [] = [] := rfl

@[simp] theorem payload_cons (item : ι) (rest : List ι) :
    F.payload (item :: rest) = F.bytes item ++ F.payload rest := List.flatMap_cons

@[simp] theorem reports_nil : F.reports [] = [] := rfl

@[simp] theorem reports_cons (item : ι) (rest : List ι) :
    F.reports (item :: rest) = F.calls item ++ F.reports rest := List.flatMap_cons

/-- A parser of one item: it reads every well-formed item, and what it reads is one. -/
structure Matches (body : Parse ε κ Bool) : Prop where
  nonempty : ∀ item, F.Valid item → F.bytes item ≠ []
  reads : ∀ item rest calls, F.Valid item → F.Before item rest →
    body ⟨F.bytes item ++ rest, calls⟩ = (.ok true, ⟨rest, calls ++ F.calls item⟩)
  only : ∀ c c' goOn, body c = (.ok goOn, c') →
    ∃ item, F.Valid item ∧ F.Before item c'.rest ∧ c.rest = F.bytes item ++ c'.rest

end Format

section Loop
variable {F : Format ι κ} {body : Parse ε κ Bool}

/-- One round of the loop, read backwards. -/
theorem Format.Matches.of_ok (h : F.Matches body) {c c' : Cursor κ} {goOn : Bool}
    (hc : body c = (.ok goOn, c')) :
    ∃ item, F.Valid item ∧ F.Before item c'.rest ∧ c.rest = F.bytes item ++ c'.rest ∧
      goOn = true ∧ c'.calls = c.calls ++ F.calls item := by
  obtain ⟨item, hvalid, hbefore, hrest⟩ := h.only c c' goOn hc
  have hread := h.reads item c'.rest c.calls hvalid hbefore
  rw [← hrest, hc] at hread
  obtain ⟨hgo, hend⟩ := Prod.mk.inj hread
  exact ⟨item, hvalid, hbefore, hrest, Except.ok.inj hgo, congrArg Cursor.calls hend⟩

/-- The loop gets through a payload. The induction is on the items. -/
theorem Format.Matches.loops (h : F.Matches body) {items : List ι} (hitems : F.Payload items)
    (calls : List κ) :
    Loops body ⟨F.payload items, calls⟩ (.ok (), ⟨[], calls ++ F.reports items⟩) := by
  induction items generalizing calls with
  | nil =>
    rw [F.reports_nil, List.append_nil]
    exact .done rfl
  | cons item rest ih =>
    obtain ⟨hvalid, hbefore, hrest⟩ := hitems
    rw [F.payload_cons, F.reports_cons, ← List.append_assoc]
    refine .next ?_ (h.reads item _ calls hvalid hbefore) (ih hrest _)
    exact fun hnil => h.nonempty item hvalid (List.append_eq_nil_iff.mp hnil).1

/-- What the loop accepts is a payload. The induction is on the rounds. -/
theorem Format.Matches.of_loops (h : F.Matches body) {c : Cursor κ}
    {r : Except ε Unit × Cursor κ} (hloop : Loops body c r) (hok : r.1 = .ok ()) :
    ∃ items, F.Payload items ∧ c.rest = F.payload items ∧
      r.2 = ⟨[], c.calls ++ F.reports items⟩ := by
  induction hloop with
  | @done c hrest =>
    refine ⟨[], trivial, hrest, ?_⟩
    rw [F.reports_nil, List.append_nil, ← hrest]
  | failed _ _ => cases hok
  | stopped _ hc =>
    obtain ⟨_, _, _, _, hgo, _⟩ := h.of_ok hc
    cases hgo
  | next _ hc _ ih =>
    obtain ⟨item, hvalid, hbefore, hrest, -, hcalls⟩ := h.of_ok hc
    obtain ⟨items, hitems, hpayload, hend⟩ := ih hok
    refine ⟨item :: items, ⟨hvalid, hpayload ▸ hbefore, hitems⟩, ?_, ?_⟩
    · rw [hrest, hpayload, F.payload_cons]
    · rw [hend, hcalls, F.reports_cons, List.append_assoc]

/-- The loop accepts exactly the payloads, and reports their items. -/
theorem Format.Matches.loops_iff (h : F.Matches body) {c c' : Cursor κ} :
    Loops body c (.ok (), c') ↔
      ∃ items, F.Payload items ∧ c.rest = F.payload items ∧
        c' = ⟨[], c.calls ++ F.reports items⟩ := by
  refine ⟨fun hloop => h.of_loops hloop rfl, ?_⟩
  rintro ⟨items, hitems, hrest, rfl⟩
  have hcursor : c = ⟨F.payload items, c.calls⟩ := by rw [← hrest]
  have hloop := h.loops hitems c.calls
  rwa [← hcursor] at hloop

end Loop
end CongestionResponse.Lib
