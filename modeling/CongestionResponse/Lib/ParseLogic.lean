import CongestionResponse.Lib.Wire

/-! What a parser does on any input at all.

`Reads` says that a parser takes the bytes it should. `Ensures p ok bad` is the other
direction: wherever `p` succeeds, `ok` holds of the bytes it took, the calls it made and its
result, and wherever it fails, `bad` holds of the calls it had made until then. There is one
rule for each combinator, so the meaning of a parser is derived along its text. `Loops` is the
meaning of a loop around a parser, without a bound on its rounds. -/
namespace CongestionResponse.Lib
variable {ε ε' κ α β : Type}

/-- Bytes are the big-endian form of the number they spell. -/
theorem bigEndian_fromBigEndian (bytes : List UInt8) :
    bigEndian bytes.length (fromBigEndian bytes) = bytes := by
  induction bytes using List.reverseRecOn with
  | nil => rfl
  | append_singleton bytes b ih =>
    have hbyte := b.toNat_lt
    have hdiv : (fromBigEndian bytes * 256 + b.toNat) / 256 = fromBigEndian bytes := by omega
    have hlow : UInt8.ofNat (fromBigEndian bytes * 256 + b.toNat) = b := by
      apply UInt8.toNat_inj.mp
      rw [UInt8.toNat_ofNat']
      omega
    rw [List.length_append, List.length_singleton, bigEndian, fromBigEndian_concat, hdiv, hlow, ih]

/-- Success of `p` guarantees `ok`, failure `bad`. -/
def Ensures (p : Parse ε κ α) (ok : List UInt8 → List κ → α → Prop) (bad : List κ → Prop) : Prop :=
  ∀ c, ∃ ks, (p c).2.calls = c.calls ++ ks ∧
    match (p c).1 with
    | .ok a => ∃ bs, c.rest = bs ++ (p c).2.rest ∧ ok bs ks a
    | .error _ => bad ks

/-- No call was made. -/
def Silent (ks : List κ) : Prop := ks = []

section Rules
variable {p : Parse ε κ α} {f : α → Parse ε κ β} {ok ok' : List UInt8 → List κ → α → Prop}
  {bad bad' : List κ → Prop} {okf : List UInt8 → List κ → β → Prop} {badf : List κ → Prop}

theorem Ensures.of_ok (h : Ensures p ok bad) {c c' : Cursor κ} {a : α} (hc : p c = (.ok a, c')) :
    ∃ bs ks, c.rest = bs ++ c'.rest ∧ c'.calls = c.calls ++ ks ∧ ok bs ks a := by
  obtain ⟨ks, hcalls, hmatch⟩ := h c
  rw [hc] at hcalls hmatch
  obtain ⟨bs, hrest, hok⟩ := hmatch
  exact ⟨bs, ks, hrest, hcalls, hok⟩

theorem Ensures.of_error (h : Ensures p ok bad) {c c' : Cursor κ} {e : ε}
    (hc : p c = (.error e, c')) : ∃ ks, c'.calls = c.calls ++ ks ∧ bad ks := by
  obtain ⟨ks, hcalls, hmatch⟩ := h c
  rw [hc] at hcalls hmatch
  exact ⟨ks, hcalls, hmatch⟩

theorem Ensures.mono (h : Ensures p ok bad) (hok : ∀ bs ks a, ok bs ks a → ok' bs ks a)
    (hbad : ∀ ks, bad ks → bad' ks) : Ensures p ok' bad' := by
  intro c
  rcases hc : p c with ⟨e | a, c'⟩
  · obtain ⟨ks, hcalls, hks⟩ := h.of_error hc
    exact ⟨ks, hcalls, hbad ks hks⟩
  · obtain ⟨bs, ks, hrest, hcalls, hks⟩ := h.of_ok hc
    exact ⟨ks, hcalls, bs, hrest, hok bs ks a hks⟩

theorem Ensures.pure {x : α} (h : ok [] [] x) : Ensures (Pure.pure x : Parse ε κ α) ok bad :=
  fun c => ⟨[], (List.append_nil c.calls).symm, [], rfl, h⟩

theorem Ensures.bind (hp : Ensures p ok bad) (hbad : ∀ ks, bad ks → badf ks)
    (hf : ∀ bs ks a, ok bs ks a →
      Ensures (f a) (fun bs' ks' => okf (bs ++ bs') (ks ++ ks')) fun ks' => badf (ks ++ ks')) :
    Ensures (p >>= f) okf badf := by
  intro c
  rcases hc : p c with ⟨e | a, c₁⟩
  · obtain ⟨ks, hcalls, hks⟩ := hp.of_error hc
    rw [Parse.bind_error hc]
    exact ⟨ks, hcalls, hbad ks hks⟩
  · obtain ⟨bs, ks, hrest, hcalls, hks⟩ := hp.of_ok hc
    rw [Parse.bind_ok hc]
    rcases hc₁ : f a c₁ with ⟨e | b, c₂⟩
    · obtain ⟨ks', hcalls', hks'⟩ := (hf bs ks a hks).of_error hc₁
      exact ⟨ks ++ ks', by rw [hcalls', hcalls, List.append_assoc], hks'⟩
    · obtain ⟨bs', ks', hrest', hcalls', hks'⟩ := (hf bs ks a hks).of_ok hc₁
      refine ⟨ks ++ ks', by rw [hcalls', hcalls, List.append_assoc], bs ++ bs', ?_, hks'⟩
      rw [hrest, hrest', List.append_assoc]

/-- A step that makes no calls. -/
theorem Ensures.bind_silent {read : List UInt8 → α → Prop}
    (hp : Ensures p (fun bs ks a => Silent ks ∧ read bs a) Silent) (hbad : badf [])
    (hf : ∀ bs a, read bs a → Ensures (f a) (fun bs' ks' => okf (bs ++ bs') ks') badf) :
    Ensures (p >>= f) okf badf := by
  refine hp.bind (fun ks hks => hks ▸ hbad) fun bs ks a h => ?_
  obtain ⟨rfl, hread⟩ := h
  exact hf bs a hread

theorem Ensures.take (n : Nat) (e : ε) :
    Ensures (Parse.take n e : Parse ε κ _) (fun bs ks a => Silent ks ∧ a = bs ∧ bs.length = n)
      Silent := by
  intro c
  refine ⟨[], ?_⟩
  unfold Parse.take
  split
  · rename_i hle
    exact ⟨(List.append_nil _).symm, c.rest.take n, (List.take_append_drop n c.rest).symm, rfl,
      rfl, List.length_take_of_le hle⟩
  · exact ⟨(List.append_nil _).symm, rfl⟩

theorem Ensures.refuse (cond : Prop) [Decidable cond] (e : ε) :
    Ensures (Parse.refuse cond e : Parse ε κ Unit) (fun bs ks _ => Silent ks ∧ bs = [] ∧ ¬cond)
      Silent := by
  unfold Parse.refuse
  split
  · exact fun c => ⟨[], (List.append_nil c.calls).symm, rfl⟩
  · rename_i hcond
    exact .pure ⟨rfl, rfl, hcond⟩

theorem Ensures.call (accepts : List κ → κ → Bool) (k : κ) :
    Ensures (Parse.call accepts k : Parse ε κ Bool) (fun bs ks _ => ks = [k] ∧ bs = [])
      fun _ => False :=
  fun _ => ⟨[k], rfl, [], rfl, rfl, rfl⟩

theorem Ensures.mapError (hp : Ensures p ok bad) (g : ε → ε') : Ensures (p.mapError g) ok bad := by
  intro c
  rcases hc : p c with ⟨e | a, c'⟩
  · obtain ⟨ks, hcalls, hks⟩ := hp.of_error hc
    rw [Parse.mapError, hc]
    exact ⟨ks, hcalls, hks⟩
  · obtain ⟨bs, ks, hrest, hcalls, hks⟩ := hp.of_ok hc
    rw [Parse.mapError, hc]
    exact ⟨ks, hcalls, bs, hrest, hks⟩

/-- What follows a step may be replaced by what does the same on the results of the step. -/
theorem Ensures.bind_congr {g : α → Parse ε κ β} (hp : Ensures p ok bad)
    (h : ∀ bs ks a, ok bs ks a → f a = g a) : p >>= f = p >>= g := by
  funext c
  rcases hc : p c with ⟨e | a, c'⟩
  · rw [Parse.bind_error hc, Parse.bind_error hc]
  · obtain ⟨bs, ks, -, -, hok⟩ := hp.of_ok hc
    rw [Parse.bind_ok hc, Parse.bind_ok hc, h bs ks a hok]

end Rules

/-! ### Parsers that make no calls -/

/-- Whether it succeeds or fails, `p` makes no call. -/
def Quiet (p : Parse ε κ α) : Prop := Ensures p (fun _ ks _ => Silent ks) Silent

section Quiet
variable {p : Parse ε κ α} {f : α → Parse ε κ β}

theorem Quiet.bind (hp : Quiet p) (hf : ∀ a, Quiet (f a)) : Quiet (p >>= f) := by
  refine Ensures.bind hp (fun _ h => h) fun bs ks a hks => ?_
  obtain rfl : ks = [] := hks
  exact hf a

theorem Quiet.pure (x : α) : Quiet (Pure.pure x : Parse ε κ α) := Ensures.pure rfl

theorem Quiet.take (n : Nat) (e : ε) : Quiet (Parse.take n e : Parse ε κ _) :=
  (Ensures.take n e).mono (fun _ _ _ h => h.1) fun _ h => h

theorem Quiet.refuse (cond : Prop) [Decidable cond] (e : ε) :
    Quiet (Parse.refuse cond e : Parse ε κ Unit) :=
  (Ensures.refuse cond e).mono (fun _ _ _ h => h.1) fun _ h => h

theorem Quiet.remaining : Quiet (Parse.remaining : Parse ε κ Nat) :=
  fun c => ⟨[], (List.append_nil c.calls).symm, [], rfl, rfl⟩

end Quiet

/-! ### Loops

The loop `while (!IsDoneReading()) { .. }` around a parser that says whether to go on. -/

/-- The loop around `body`, begun at a cursor, ends with a result. -/
inductive Loops (body : Parse ε κ Bool) : Cursor κ → Except ε Unit × Cursor κ → Prop
  | done {c} : c.rest = [] → Loops body c (.ok (), c)
  | failed {c c' e} : c.rest ≠ [] → body c = (.error e, c') → Loops body c (.error e, c')
  | stopped {c c'} : c.rest ≠ [] → body c = (.ok false, c') → Loops body c (.ok (), c')
  | next {c c' r} : c.rest ≠ [] → body c = (.ok true, c') → Loops body c' r → Loops body c r

/-- What every round keeps of the calls holds of the calls of the loop. -/
theorem Loops.calls {body : Parse ε κ Bool} {P : List κ → Prop} (hnil : P [])
    (happend : ∀ a b, P a → P b → P (a ++ b)) (hbody : Ensures body (fun _ ks _ => P ks) P)
    {c : Cursor κ} {r : Except ε Unit × Cursor κ} (h : Loops body c r) :
    ∃ ks, r.2.calls = c.calls ++ ks ∧ P ks := by
  induction h with
  | done _ => exact ⟨[], (List.append_nil _).symm, hnil⟩
  | failed _ hc => exact hbody.of_error hc
  | stopped _ hc =>
    obtain ⟨_, ks, _, hcalls, hks⟩ := hbody.of_ok hc
    exact ⟨ks, hcalls, hks⟩
  | next _ hc _ ih =>
    obtain ⟨_, ks, _, hcalls, hks⟩ := hbody.of_ok hc
    obtain ⟨ks', hcalls', hks'⟩ := ih
    exact ⟨ks ++ ks', by rw [hcalls', hcalls, List.append_assoc], happend ks ks' hks hks'⟩

end CongestionResponse.Lib
