import Mathlib.Algebra.Group.Nat.Defs
import Mathlib.Data.List.Induction

/-! Bytes on the wire: big-endian numbers, programs that write a buffer of bounded
capacity, and programs that read bytes and report what they find.

`Writes p bs a` says that `p` appends `bs` and returns `a` where there is room for `bs`,
and fails where there is not. `Reads p bs calls a` says that `p`, in front of `bs`, takes
exactly `bs`, makes the calls `calls` and returns `a`. Both compose along `bind`, so a
codec is verified piece by piece in the order of its fields. -/
namespace CongestionResponse.Lib

/-! ### Big-endian numbers -/

/-- The low `n` bytes of a number, most significant first. -/
def bigEndian : Nat → Nat → List UInt8
  | 0, _ => []
  | n + 1, v => bigEndian n (v / 256) ++ [UInt8.ofNat v]

/-- The number that bytes spell, most significant first. -/
def fromBigEndian (bytes : List UInt8) : Nat := bytes.foldl (fun v b => v * 256 + b.toNat) 0

@[simp] theorem length_bigEndian (n v : Nat) : (bigEndian n v).length = n := by
  induction n generalizing v with
  | zero => rfl
  | succ n ih => rw [bigEndian, List.length_append, ih, List.length_singleton]

theorem fromBigEndian_concat (bytes : List UInt8) (b : UInt8) :
    fromBigEndian (bytes ++ [b]) = fromBigEndian bytes * 256 + b.toNat := by
  rw [fromBigEndian, List.foldl_append]
  rfl

theorem fromBigEndian_bigEndian (n v : Nat) : fromBigEndian (bigEndian n v) = v % 256 ^ n := by
  induction n generalizing v with
  | zero => rw [Nat.pow_zero, Nat.mod_one]; rfl
  | succ n ih =>
    have hbyte : (UInt8.ofNat v).toNat = v % 256 := UInt8.toNat_ofNat
    rw [bigEndian, fromBigEndian_concat, ih, hbyte, Nat.pow_succ, Nat.mul_comm (256 ^ n),
      Nat.mod_mul]
    omega

theorem fromBigEndian_lt (bytes : List UInt8) : fromBigEndian bytes < 256 ^ bytes.length := by
  induction bytes using List.reverseRecOn with
  | nil => exact Nat.one_pos
  | append_singleton bytes b ih =>
    have hbyte := b.toNat_lt
    rw [fromBigEndian_concat, List.length_append, List.length_singleton, Nat.pow_succ]
    omega

/-! ### Writing -/

structure Buffer where
  capacity : Nat
  written : List UInt8
deriving DecidableEq

namespace Buffer

def remaining (w : Buffer) : Nat := w.capacity - w.written.length

def push (w : Buffer) (bytes : List UInt8) : Buffer := {w with written := w.written ++ bytes}

def Fits (w : Buffer) (bytes : List UInt8) : Prop := w.written.length + bytes.length ≤ w.capacity

instance (w : Buffer) (bytes : List UInt8) : Decidable (w.Fits bytes) :=
  inferInstanceAs (Decidable (_ ≤ _))

theorem fits_append {w : Buffer} {b c : List UInt8} :
    w.Fits (b ++ c) ↔ w.Fits b ∧ (w.push b).Fits c := by
  simp only [Fits, push, List.length_append]
  omega

theorem fits_nil {w : Buffer} {bytes : List UInt8} (h : w.Fits bytes) : (w.push bytes).Fits [] := by
  simp only [Fits, push, List.length_append, List.length_nil] at h ⊢
  exact h

theorem fits_iff {w : Buffer} (hw : w.Fits []) (bytes : List UInt8) :
    w.Fits bytes ↔ bytes.length ≤ w.remaining := by
  simp only [Fits, remaining, List.length_nil] at hw ⊢
  omega

theorem remaining_push {w : Buffer} {bytes : List UInt8} (h : w.Fits bytes) :
    (w.push bytes).remaining + bytes.length = w.remaining := by
  simp only [Fits, remaining, push, List.length_append] at h ⊢
  omega

theorem push_append (w : Buffer) (b c : List UInt8) : w.push (b ++ c) = (w.push b).push c := by
  simp only [push, List.append_assoc]

end Buffer

/-- A program that writes. A failed write ends the program, and what was written stays. -/
def Write (α : Type) : Type := Buffer → Option α × Buffer

namespace Write
variable {α β : Type}

def bind (p : Write α) (f : α → Write β) : Write β := fun w =>
  match p w with
  | (some a, w') => f a w'
  | (none, w') => (none, w')

instance : Monad Write where
  pure a := fun w => (some a, w)
  bind := Write.bind

/-- Append bytes, all or none. -/
def bytes (bs : List UInt8) : Write Unit := fun w =>
  if w.Fits bs then (some (), w.push bs) else (none, w)

def fail : Write α := fun w => (none, w)

end Write

/-- `p` appends exactly `bs` and returns `a`, if there is room for `bs`, and else fails. -/
def Writes {α : Type} (p : Write α) (bs : List UInt8) (a : α) : Prop :=
  ∀ w : Buffer, w.Fits [] →
    (w.Fits bs → p w = (some a, w.push bs)) ∧ (¬w.Fits bs → (p w).1 = none)

section Writes
variable {α β : Type} {p : Write α} {f : α → Write β} {b c : List UInt8} {x : α} {y : β}

theorem Writes.bytes (bs : List UInt8) : Writes (Write.bytes bs) bs () := by
  intro w _
  refine ⟨fun h => ?_, fun h => ?_⟩
  · rw [Write.bytes, if_pos h]
  · rw [Write.bytes, if_neg h]

/-- Where a program succeeds, all of its bytes are written. -/
theorem Writes.of_some (hp : Writes p b x) {w : Buffer} (hw : w.Fits []) (h : (p w).1 = some x) :
    p w = (some x, w.push b) := by
  by_cases hfits : w.Fits b
  · exact (hp w hw).1 hfits
  · rw [(hp w hw).2 hfits] at h
    cases h

/-- What begins by writing bytes succeeds only where they fit. -/
theorem Write.fits_of_some {bs : List UInt8} {f : Unit → Write β} {w : Buffer}
    (h : ((Write.bytes bs >>= f) w).1 = some y) : w.Fits bs := by
  by_contra hfull
  have hbind : (Write.bytes bs >>= f) w = Write.bind (Write.bytes bs) f w := rfl
  rw [hbind, Write.bind, Write.bytes, if_neg hfull] at h
  cases h

theorem Writes.pure (x : α) : Writes (Pure.pure x) [] x := by
  intro w hw
  refine ⟨fun _ => ?_, fun h => absurd hw h⟩
  have hpush : w.push [] = w := by rw [Buffer.push, List.append_nil]
  rw [hpush]
  rfl

theorem Writes.bind (hp : Writes p b x) (hf : Writes (f x) c y) : Writes (p >>= f) (b ++ c) y := by
  intro w hw
  have hbind : (p >>= f) w = Write.bind p f w := rfl
  rw [hbind, Write.bind]
  by_cases hb : w.Fits b
  · obtain ⟨hfits, hfull⟩ := hf (w.push b) (Buffer.fits_nil hb)
    rw [((hp w hw).1 hb), Buffer.fits_append, Buffer.push_append]
    exact ⟨fun h => hfits h.2, fun h => hfull fun hc => h ⟨hb, hc⟩⟩
  · refine ⟨fun h => absurd (Buffer.fits_append.mp h).1 hb, fun _ => ?_⟩
    have hnone := (hp w hw).2 hb
    split
    · rename_i a w' heq
      rw [heq] at hnone
      cases hnone
    · rfl

/-- The last step of a program, after which only the result is computed. -/
theorem Writes.map (hp : Writes p b x) (g : α → β) :
    Writes (p >>= fun a => Pure.pure (g a)) b (g x) := by
  have h := hp.bind (f := fun a => Pure.pure (g a)) (.pure (g x))
  rwa [List.append_nil] at h

end Writes

/-! ### Writing with assertions -/

/-- A program that writes and asserts. A failed write ends the program with `none`; a failed
assertion ends the process, with `some none`. -/
abbrev CheckedWrite : Type → Type := OptionT Write

namespace CheckedWrite
variable {α β : Type} {p : CheckedWrite α} {f : α → CheckedWrite β} {b c : List UInt8} {x : α}
  {y : β} {w : Buffer}

def check (holds : Prop) [Decidable holds] : CheckedWrite Unit :=
  if holds then pure () else failure

/-- A program that depends on the buffer it starts with. -/
def withBuffer (f : Buffer → CheckedWrite α) : CheckedWrite α := OptionT.mk fun w => (f w).run w

theorem run_withBuffer (f : Buffer → CheckedWrite α) (w : Buffer) :
    (withBuffer f).run w = (f w).run w :=
  rfl

/-- `p` appends exactly `bs` and returns `x`, if there is room for `bs`, and else fails. None of
its assertions fails. -/
def Appends (p : CheckedWrite α) (bs : List UInt8) (x : α) : Prop := Writes p.run bs (some x)

theorem Appends.pure (x : α) : Appends (Pure.pure x) [] x := Writes.pure (some x)

theorem Appends.check {holds : Prop} [Decidable holds] (h : holds) :
    Appends (check holds) [] () := by
  rw [CheckedWrite.check, if_pos h]
  exact .pure ()

theorem Appends.lift {q : Write α} (h : Writes q b x) : Appends (liftM q) b x :=
  h.map some

theorem Appends.bind (hp : Appends p b x) (hf : Appends (f x) c y) :
    Appends (p >>= f) (b ++ c) y :=
  Writes.bind hp hf

/-- An assertion that holds leaves nothing behind. -/
theorem Appends.after_check {holds : Prop} [Decidable holds] {q : Unit → CheckedWrite β}
    (h : holds) (hq : Appends (q ()) c y) : Appends (CheckedWrite.check holds >>= q) c y :=
  (Appends.check h).bind hq

/-- With no assertion failing, the process does not end. -/
theorem Appends.not_aborted (h : Appends p b x) (hw : w.Fits []) : (p.run w).1 ≠ some none := by
  by_cases hfits : w.Fits b
  · rw [(h w hw).1 hfits]
    exact fun hnone => Option.some_ne_none x (Option.some.inj hnone)
  · rw [(h w hw).2 hfits]
    exact (Option.some_ne_none _).symm

theorem bind_returned {a : α} {v : Buffer} (h : p.run w = (some (some a), v)) :
    (p >>= f).run w = (f a).run v := by
  have hbind : (p >>= f).run w = Write.bind p.run (fun
    | some a => (f a).run
    | none => Pure.pure none) w := rfl
  rw [hbind, Write.bind, h]

/-- What returns has got through its first step. -/
theorem of_bind_returns (h : ((p >>= f).run w).1 = some (some y)) :
    ∃ a v, p.run w = (some (some a), v) ∧ ((f a).run v).1 = some (some y) := by
  have hbind : (p >>= f).run w = Write.bind p.run (fun
    | some a => (f a).run
    | none => Pure.pure none) w := rfl
  rw [hbind, Write.bind] at h
  rcases hrun : p.run w with ⟨_ | _ | a, v⟩
  · rw [hrun] at h
    cases h
  · rw [hrun] at h
    cases h
  · rw [hrun] at h
    exact ⟨a, v, rfl, h⟩

theorem of_check_returns {holds : Prop} [Decidable holds]
    (h : ∃ v, (check holds).run w = (some (some ()), v)) : holds := by
  by_contra hfails
  obtain ⟨v, hrun⟩ := h
  rw [check, if_neg hfails] at hrun
  cases hrun

end CheckedWrite

/-! ### Reading -/

/-- The bytes still to be read, and the calls made so far. -/
structure Cursor (κ : Type) where
  rest : List UInt8
  calls : List κ
deriving DecidableEq

/-- A program that reads. It fails with an error, and the calls it made stay made. -/
def Parse (ε κ α : Type) : Type := Cursor κ → Except ε α × Cursor κ

namespace Parse
variable {ε ε' κ α β : Type}

def bind (p : Parse ε κ α) (f : α → Parse ε κ β) : Parse ε κ β := fun c =>
  match p c with
  | (.ok a, c') => f a c'
  | (.error e, c') => (.error e, c')

instance : Monad (Parse ε κ) where
  pure a := fun c => (.ok a, c)
  bind := Parse.bind

theorem bind_ok {p : Parse ε κ α} {f : α → Parse ε κ β} {c c' : Cursor κ} {a : α}
    (h : p c = (.ok a, c')) : (p >>= f) c = f a c' := by
  show Parse.bind p f c = f a c'
  rw [Parse.bind, h]

theorem bind_error {p : Parse ε κ α} {f : α → Parse ε κ β} {c c' : Cursor κ} {e : ε}
    (h : p c = (.error e, c')) : (p >>= f) c = (.error e, c') := by
  show Parse.bind p f c = (.error e, c')
  rw [Parse.bind, h]

def fail (e : ε) : Parse ε κ α := fun c => (.error e, c)

/-- Fail if a condition holds. -/
def refuse (bad : Prop) [Decidable bad] (e : ε) : Parse ε κ Unit := if bad then fail e else pure ()

/-- The next `n` bytes. Where they are missing, the rest of the input is used up. -/
def take (n : Nat) (e : ε) : Parse ε κ (List UInt8) := fun c =>
  if n ≤ c.rest.length then (.ok (c.rest.take n), {c with rest := c.rest.drop n})
  else (.error e, {c with rest := []})

/-- Make a call and return whether the callee, who has seen the calls before, accepts it. -/
def call (accepts : List κ → κ → Bool) (k : κ) : Parse ε κ Bool := fun c =>
  (.ok (accepts c.calls k), {c with calls := c.calls ++ [k]})

/-- The number of bytes left. -/
def remaining : Parse ε κ Nat := fun c => (.ok c.rest.length, c)

/-- Add to an error what the caller knows of it. -/
def mapError (g : ε → ε') (p : Parse ε κ α) : Parse ε' κ α := fun c =>
  match p c with
  | (.ok a, c') => (.ok a, c')
  | (.error e, c') => (.error (g e), c')

end Parse

/-- `p` takes exactly `bs`, whatever follows, makes the calls `ks` and returns `a`. -/
def Reads {ε κ α : Type} (p : Parse ε κ α) (bs : List UInt8) (ks : List κ) (a : α) : Prop :=
  ∀ rest calls, p ⟨bs ++ rest, calls⟩ = (.ok a, ⟨rest, calls ++ ks⟩)

section Reads
variable {ε ε' κ α β : Type} {p : Parse ε κ α} {f : α → Parse ε κ β} {b c : List UInt8}
  {k l : List κ} {x : α} {y : β}

theorem Reads.pure (x : α) : Reads (Pure.pure x : Parse ε κ α) [] [] x := by
  intro rest calls
  rw [List.nil_append, List.append_nil]
  rfl

theorem Reads.bind (hp : Reads p b k x) (hf : Reads (f x) c l y) :
    Reads (p >>= f) (b ++ c) (k ++ l) y := by
  intro rest calls
  rw [List.append_assoc, Parse.bind_ok (hp _ _), hf, List.append_assoc]

/-- The last step of a program, after which only the result is computed. -/
theorem Reads.map (hp : Reads p b k x) (g : α → β) :
    Reads (p >>= fun a => Pure.pure (g a)) b k (g x) := by
  have h := hp.bind (f := fun a => Pure.pure (g a)) (.pure (g x))
  rwa [List.append_nil, List.append_nil] at h

theorem Reads.refuse {bad : Prop} [Decidable bad] (h : ¬bad) (e : ε) :
    Reads (Parse.refuse bad e : Parse ε κ Unit) [] [] () := by
  rw [Parse.refuse, if_neg h]
  exact .pure ()

theorem Reads.take {n : Nat} (hb : b.length = n) (e : ε) :
    Reads (Parse.take n e : Parse ε κ _) b [] b := by
  intro rest calls
  have hle : n ≤ (b ++ rest).length := by
    rw [List.length_append, hb]
    exact Nat.le_add_right _ _
  rw [Parse.take, if_pos hle, List.append_nil, ← hb, List.take_left, List.drop_left]

theorem Reads.call {accepts : List κ → κ → Bool} (haccepts : ∀ calls k, accepts calls k = true)
    (a : κ) : Reads (Parse.call accepts a : Parse ε κ Bool) [] [a] true := by
  intro rest calls
  rw [Parse.call, haccepts, List.nil_append]

theorem Reads.mapError (hp : Reads p b k x) (g : ε → ε') : Reads (p.mapError g) b k x := by
  intro rest calls
  rw [Parse.mapError, hp]

end Reads

/-- Where `p` succeeds, it has taken at least `n` bytes. -/
def Consumes {ε κ α : Type} (n : Nat) (p : Parse ε κ α) : Prop :=
  ∀ c a c', p c = (.ok a, c') → n + c'.rest.length ≤ c.rest.length

section Consumes
variable {ε κ α β : Type} {p : Parse ε κ α} {f : α → Parse ε κ β} {m n : Nat}

theorem Consumes.pure (x : α) : Consumes 0 (Pure.pure x : Parse ε κ α) := by
  intro c a c' h
  obtain ⟨-, rfl⟩ := Prod.mk.inj h
  exact Nat.le_of_eq (Nat.zero_add _)

theorem Consumes.bind (hp : Consumes m p) (hf : ∀ a, Consumes n (f a)) :
    Consumes (m + n) (p >>= f) := by
  intro c b c' h
  have hbind : Parse.bind p f c = (.ok b, c') := h
  unfold Parse.bind at hbind
  split at hbind
  · rename_i a c₁ heq
    have h₁ := hp c a c₁ heq
    have h₂ := hf a c₁ b c' hbind
    omega
  · cases hbind

theorem Consumes.refuse (bad : Prop) [Decidable bad] (e : ε) :
    Consumes 0 (Parse.refuse bad e : Parse ε κ Unit) := by
  unfold Parse.refuse
  split
  · intro c a c' h
    cases h
  · exact .pure ()

theorem Consumes.take (n : Nat) (e : ε) : Consumes n (Parse.take n e : Parse ε κ _) := by
  intro c a c' h
  unfold Parse.take at h
  split at h
  · obtain ⟨-, rfl⟩ := Prod.mk.inj h
    simp only [List.length_drop]
    omega
  · cases h

theorem Consumes.call (accepts : List κ → κ → Bool) (k : κ) :
    Consumes 0 (Parse.call accepts k : Parse ε κ Bool) := by
  intro c a c' h
  obtain ⟨-, rfl⟩ := Prod.mk.inj h
  exact Nat.le_of_eq (Nat.zero_add _)

theorem Consumes.weaken (hp : Consumes n p) (h : m ≤ n) : Consumes m p := by
  intro c a c' hc
  have := hp c a c' hc
  omega

end Consumes
end CongestionResponse.Lib
