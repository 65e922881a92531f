import Mathlib.Data.List.Basic
import Mathlib.Order.Lattice
import Mathlib.Algebra.GroupWithZero.Nat

/-! Ordered maps, as the loops of a C++ program see them.

An `OrderedMap` is the list of its entries in increasing key order. Iteration
from `begin()` is iteration over the list, `insert` keeps the entry that is
already there, `erase` removes at most one entry, and the usual pruning loop

    while (!m.empty()) { auto it = m.begin(); if (!p(it)) break; ...; m.erase(it); }

is `popWhile`, with whatever the loop accumulates. `find?_eq_some` reads a map as
the set of its entries; the `find?` lemmas of each operation follow from it. -/
namespace CongestionResponse.Lib

/-- Two elements of an ordered list are the same one, or one comes before the other. -/
theorem pairwise_cases {α : Type} {R : α → α → Prop} {l : List α} (h : l.Pairwise R) {x y : α}
    (hx : x ∈ l) (hy : y ∈ l) : x = y ∨ R x y ∨ R y x := by
  induction l with
  | nil => cases hx
  | cons e rest ih =>
    obtain ⟨hhead, htail⟩ := List.pairwise_cons.mp h
    rcases List.mem_cons.mp hx with rfl | hx' <;> rcases List.mem_cons.mp hy with rfl | hy'
    · exact .inl rfl
    · exact .inr (.inl (hhead y hy'))
    · exact .inr (.inr (hhead x hx'))
    · exact ih htail hx' hy'

/-- A list in increasing order of a key splits at any bound. -/
theorem filter_le_append_filter_lt {α : Type} {κ : Type} [LinearOrder κ] (key : α → κ) (n : κ)
    {l : List α} (h : l.Pairwise fun x y => key x < key y) :
    (l.filter fun x => decide (key x ≤ n)) ++ (l.filter fun x => decide (n < key x)) = l := by
  induction l with
  | nil => rfl
  | cons e rest ih =>
    obtain ⟨hhead, htail⟩ := List.pairwise_cons.mp h
    by_cases he : key e ≤ n
    · rw [List.filter_cons_of_pos (by simpa using he),
        List.filter_cons_of_neg (by simpa using he), List.cons_append, ih htail]
    · have hnil : (rest.filter fun x => decide (key x ≤ n)) = [] := by
        rw [List.filter_eq_nil_iff]
        intro x hx
        simpa using (not_le.mp he).trans (hhead x hx)
      have hall : (rest.filter fun x => decide (n < key x)) = rest := by
        rw [List.filter_eq_self]
        intro x hx
        simpa using (not_le.mp he).trans (hhead x hx)
      rw [List.filter_cons_of_neg (by simpa using he),
        List.filter_cons_of_pos (by simpa using he), hnil, hall, List.nil_append]

/-- From a list in order of a key, those that have the least possible key are taken first. -/
theorem filter_eq_initial {α : Type} {κ : Type} [LinearOrder κ] (key : α → κ) {k : κ} {l : List α}
    (h : l.Pairwise fun x y => key x ≤ key y) (hle : ∀ x ∈ l, k ≤ key x) :
    (l.filter fun x => decide (key x = k)) <+: l := by
  induction l with
  | nil => exact List.prefix_refl _
  | cons e rest ih =>
    obtain ⟨hhead, htail⟩ := List.pairwise_cons.mp h
    by_cases he : key e = k
    · rw [List.filter_cons_of_pos (by simpa using he), List.prefix_cons_inj]
      exact ih htail fun x hx => hle x (List.mem_cons_of_mem _ hx)
    · -- All keys are greater from here on.
      have hlt : k < key e := lt_of_le_of_ne (hle e List.mem_cons_self) (Ne.symm he)
      have hnil : ((e :: rest).filter fun x => decide (key x = k)) = [] := by
        rw [List.filter_eq_nil_iff]
        intro x hx
        rcases List.mem_cons.mp hx with rfl | hx
        · simpa using he
        · simpa using (hlt.trans_le (hhead x hx)).ne'
      rw [hnil]
      exact ⟨e :: rest, rfl⟩

/-- In a list in order of a key, those with the same key stand together. -/
theorem filter_eq_infix {α : Type} {κ : Type} [LinearOrder κ] (key : α → κ) (k : κ) {l : List α}
    (h : l.Pairwise fun x y => key x ≤ key y) :
    (l.filter fun x => decide (key x = k)) <:+: l := by
  induction l with
  | nil => exact List.infix_refl _
  | cons e rest ih =>
    obtain ⟨hhead, htail⟩ := List.pairwise_cons.mp h
    by_cases he : key e = k
    · have hle : ∀ x ∈ e :: rest, k ≤ key x := by
        intro x hx
        rcases List.mem_cons.mp hx with rfl | hx
        · exact he.ge
        · exact he.ge.trans (hhead x hx)
      exact (filter_eq_initial key h hle).isInfix
    · rw [List.filter_cons_of_neg (by simpa using he)]
      exact (ih htail).trans (List.suffix_cons e rest).isInfix

/-- A stretch of consecutive numbers is consecutive. -/
theorem eq_range'_of_infix {l : List Nat} {n m : Nat} (h : l <:+: List.range' n m) :
    ∃ k, l = List.range' k l.length := by
  obtain ⟨before, after, heq⟩ := h
  obtain ⟨i, -, hleft, -⟩ := List.range'_eq_append_iff.mp heq.symm
  obtain ⟨j, -, -, hl⟩ := List.range'_eq_append_iff.mp hleft.symm
  refine ⟨n + j * 1, ?_⟩
  have hlength : l.length = i - j := by rw [hl, List.length_range']
  rw [hlength]
  exact hl

/-- A finite map with its entries in strictly increasing key order. -/
structure OrderedMap (κ α : Type) [LinearOrder κ] where
  entries : List (κ × α)
  sorted : entries.Pairwise (fun a b => a.1 < b.1)

namespace OrderedMap
variable {κ α β : Type} [LinearOrder κ]

def empty : OrderedMap κ α := ⟨[], List.Pairwise.nil⟩

def keys (m : OrderedMap κ α) : List κ := m.entries.map Prod.fst

def find? (m : OrderedMap κ α) (k : κ) : Option α :=
  (m.entries.find? fun e => decide (e.1 = k)).map Prod.snd

/-- Keys are unique: two entries with one key are one entry. -/
theorem unique (m : OrderedMap κ α) {k : κ} {v w : α} (hv : (k, v) ∈ m.entries)
    (hw : (k, w) ∈ m.entries) : v = w := by
  rcases pairwise_cases m.sorted hv hw with h | h | h
  · exact (Prod.mk.inj h).2
  · exact absurd h (lt_irrefl k)
  · exact absurd h (lt_irrefl k)

theorem find?_eq_some {m : OrderedMap κ α} {k : κ} {v : α} :
    m.find? k = some v ↔ (k, v) ∈ m.entries := by
  unfold find?
  constructor
  · intro h
    obtain ⟨e, he, rfl⟩ := Option.map_eq_some_iff.mp h
    have hk : e.1 = k := by simpa using List.find?_some he
    rw [← hk]
    exact List.mem_of_find?_eq_some he
  · intro h
    cases hf : m.entries.find? (fun e => decide (e.1 = k)) with
    | none => exact absurd (decide_eq_true rfl) (List.find?_eq_none.mp hf (k, v) h)
    | some e =>
      have hk : e.1 = k := by simpa using List.find?_some hf
      have he : (k, e.2) ∈ m.entries := hk ▸ List.mem_of_find?_eq_some hf
      rw [Option.map_some, m.unique he h]

theorem mem_keys {m : OrderedMap κ α} {k : κ} : k ∈ m.keys ↔ ∃ v, m.find? k = some v := by
  simp only [keys, List.mem_map, find?_eq_some]
  constructor
  · rintro ⟨e, he, rfl⟩
    exact ⟨e.2, he⟩
  · rintro ⟨v, hv⟩
    exact ⟨(k, v), hv, rfl⟩

theorem find?_eq_none {m : OrderedMap κ α} {k : κ} : m.find? k = none ↔ k ∉ m.keys := by
  rw [mem_keys, Option.eq_none_iff_forall_ne_some]
  exact not_exists.symm

theorem mem_keys_of_find? {m : OrderedMap κ α} {k : κ} {v : α} (h : m.find? k = some v) :
    k ∈ m.keys := mem_keys.mpr ⟨v, h⟩

/-- The lookup of a key depends on the entries with that key only. -/
theorem find?_congr {m m' : OrderedMap κ α} {k : κ}
    (h : ∀ v, (k, v) ∈ m.entries ↔ (k, v) ∈ m'.entries) : m.find? k = m'.find? k := by
  apply Option.ext
  intro v
  rw [find?_eq_some, find?_eq_some]
  exact h v

@[simp] theorem find?_empty (k : κ) : (empty : OrderedMap κ α).find? k = none := rfl

@[simp] theorem keys_empty : (empty : OrderedMap κ α).keys = [] := rfl

/-! ### Insertion -/

/-- Put `(k, v)` at its place; an entry that has the key already stays as it is. -/
def insertEntry (k : κ) (v : α) : List (κ × α) → List (κ × α)
  | [] => [(k, v)]
  | e :: rest =>
    if k < e.1 then (k, v) :: e :: rest
    else if e.1 < k then e :: insertEntry k v rest
    else e :: rest

theorem mem_insertEntry (k : κ) (v : α) (l : List (κ × α))
    (hl : l.Pairwise (fun a b => a.1 < b.1)) (e : κ × α) :
    e ∈ insertEntry k v l ↔ e ∈ l ∨ (e = (k, v) ∧ ∀ d ∈ l, d.1 ≠ k) := by
  induction l with
  | nil => simp [insertEntry]
  | cons d rest ih =>
    obtain ⟨hhead, htail⟩ := List.pairwise_cons.mp hl
    unfold insertEntry
    split
    · rename_i hlt
      have hfresh : ∀ x ∈ d :: rest, x.1 ≠ k := by
        intro x hx
        rcases List.mem_cons.mp hx with rfl | hx
        · exact ne_of_gt hlt
        · exact ne_of_gt (lt_trans hlt (hhead x hx))
      rw [List.mem_cons]
      exact ⟨fun h => h.symm.imp id fun h => ⟨h, hfresh⟩, fun h => h.symm.imp And.left id⟩
    · split
      · rename_i hlt
        rw [List.mem_cons, ih htail, List.mem_cons, List.forall_mem_cons, or_assoc]
        have hne : d.1 ≠ k := ne_of_lt hlt
        simp [hne]
      · rename_i h1 h2
        have hk : d.1 = k := le_antisymm (not_lt.mp h1) (not_lt.mp h2)
        simp [hk]

theorem insertEntry_sorted (k : κ) (v : α) (l : List (κ × α))
    (hl : l.Pairwise (fun a b => a.1 < b.1)) :
    (insertEntry k v l).Pairwise (fun a b => a.1 < b.1) := by
  induction l with
  | nil => exact List.pairwise_singleton _ _
  | cons d rest ih =>
    obtain ⟨hhead, htail⟩ := List.pairwise_cons.mp hl
    unfold insertEntry
    split
    · rename_i hlt
      refine List.pairwise_cons.mpr ⟨fun x hx => ?_, hl⟩
      rcases List.mem_cons.mp hx with rfl | hx
      · exact hlt
      · exact lt_trans hlt (hhead x hx)
    · split
      · rename_i hlt
        refine List.pairwise_cons.mpr ⟨fun x hx => ?_, ih htail⟩
        rcases (mem_insertEntry k v rest htail x).mp hx with hx | ⟨rfl, _⟩
        · exact hhead x hx
        · exact hlt
      · exact hl

/-- `insert(make_pair(k, v))`: no effect when `k` is present. -/
def insert (m : OrderedMap κ α) (k : κ) (v : α) : OrderedMap κ α :=
  ⟨insertEntry k v m.entries, insertEntry_sorted k v m.entries m.sorted⟩

theorem mem_insert {m : OrderedMap κ α} {k : κ} {v : α} {e : κ × α} :
    e ∈ (m.insert k v).entries ↔ e ∈ m.entries ∨ (e = (k, v) ∧ k ∉ m.keys) := by
  rw [insert, mem_insertEntry k v m.entries m.sorted e]
  simp only [keys, List.mem_map, not_exists, not_and]

theorem find?_insert_of_ne (m : OrderedMap κ α) {k j : κ} (v : α) (h : j ≠ k) :
    (m.insert k v).find? j = m.find? j := by
  apply find?_congr
  intro w
  rw [mem_insert]
  simp [h]

theorem find?_insert_self (m : OrderedMap κ α) {k : κ} (v : α) (h : k ∉ m.keys) :
    (m.insert k v).find? k = some v := by
  rw [find?_eq_some, mem_insert]
  exact .inr ⟨rfl, h⟩

theorem mem_keys_insert {m : OrderedMap κ α} {k j : κ} {v : α} :
    j ∈ (m.insert k v).keys ↔ j ∈ m.keys ∨ j = k := by
  by_cases hj : j = k
  · subst hj
    simp only [or_true, iff_true]
    by_cases hm : j ∈ m.keys
    · obtain ⟨w, hw⟩ := mem_keys.mp hm
      exact mem_keys.mpr ⟨w, find?_eq_some.mpr (mem_insert.mpr (.inl (find?_eq_some.mp hw)))⟩
    · exact mem_keys_of_find? (find?_insert_self m v hm)
  · simp only [mem_keys, find?_insert_of_ne m v hj, hj, or_false]

/-- A key beyond all others goes to the end. -/
theorem insert_of_lt (m : OrderedMap κ α) {k : κ} (v : α) (h : ∀ j ∈ m.keys, j < k) :
    (m.insert k v).entries = m.entries ++ [(k, v)] := by
  have hl : ∀ l : List (κ × α), (∀ e ∈ l, e.1 < k) → insertEntry k v l = l ++ [(k, v)] := by
    intro l hl
    induction l with
    | nil => rfl
    | cons e rest ih =>
      have he := hl e (List.mem_cons_self ..)
      rw [insertEntry, if_neg (not_lt_of_gt he), if_pos he,
        ih fun x hx => hl x (List.mem_cons_of_mem e hx)]
      rfl
  exact hl m.entries fun e he => h e.1 (List.mem_map_of_mem he)

/-! ### Erasing and changing an entry -/

def erase (m : OrderedMap κ α) (k : κ) : OrderedMap κ α :=
  ⟨m.entries.filter fun e => decide (e.1 ≠ k), m.sorted.filter _⟩

theorem mem_erase {m : OrderedMap κ α} {k : κ} {e : κ × α} :
    e ∈ (m.erase k).entries ↔ e ∈ m.entries ∧ e.1 ≠ k := by
  simp [erase, List.mem_filter]

theorem find?_erase_of_ne (m : OrderedMap κ α) {k j : κ} (h : j ≠ k) :
    (m.erase k).find? j = m.find? j := by
  apply find?_congr
  intro w
  rw [mem_erase]
  simp [h]

theorem find?_erase_self (m : OrderedMap κ α) (k : κ) : (m.erase k).find? k = none := by
  rw [find?_eq_none]
  intro h
  obtain ⟨v, hv⟩ := mem_keys.mp h
  exact (mem_erase.mp (find?_eq_some.mp hv)).2 rfl

theorem erase_of_notMem (m : OrderedMap κ α) {k : κ} (h : k ∉ m.keys) : m.erase k = m := by
  rcases m with ⟨entries, sorted⟩
  simp only [erase, mk.injEq, List.filter_eq_self, decide_eq_true_eq]
  rintro e he rfl
  exact h (List.mem_map_of_mem he)

theorem mem_keys_erase {m : OrderedMap κ α} {k j : κ} :
    j ∈ (m.erase k).keys ↔ j ∈ m.keys ∧ j ≠ k := by
  by_cases hj : j = k
  · subst hj
    simp [mem_keys, find?_erase_self]
  · simp only [mem_keys, find?_erase_of_ne m hj, ne_eq, hj, not_false_iff, and_true]

/-- Change the value stored at `k`, if there is one: a write through a pointer. -/
def modify (m : OrderedMap κ α) (k : κ) (f : α → α) : OrderedMap κ α :=
  ⟨m.entries.map fun e => if e.1 = k then (e.1, f e.2) else e, by
    have hfst : ∀ e : κ × α, (if e.1 = k then (e.1, f e.2) else e).1 = e.1 := by
      intro e
      split <;> rfl
    rw [List.pairwise_map]
    exact m.sorted.imp fun h => by rw [hfst, hfst]; exact h⟩

theorem keys_modify (m : OrderedMap κ α) (k : κ) (f : α → α) : (m.modify k f).keys = m.keys := by
  simp only [keys, modify, List.map_map]
  apply List.map_congr_left
  intro e _
  simp only [Function.comp]
  split <;> rfl

/-! ### Pruning from the front -/

/-- Pop entries off the front while `p` accepts their keys, folding `f` over them. -/
def popLoop (p : κ → Bool) (f : β → κ × α → β) : β → List (κ × α) → β × List (κ × α)
  | b, [] => (b, [])
  | b, e :: rest => if p e.1 then popLoop p f (f b e) rest else (b, e :: rest)

omit [LinearOrder κ] in
theorem popLoop_eq (p : κ → Bool) (f : β → κ × α → β) (b : β) (l : List (κ × α)) :
    popLoop p f b l =
      ((l.takeWhile fun e => p e.1).foldl f b, l.dropWhile fun e => p e.1) := by
  induction l generalizing b with
  | nil => rfl
  | cons e rest ih =>
    rw [popLoop, List.takeWhile_cons, List.dropWhile_cons]
    split
    · rw [ih, List.foldl_cons]
    · rfl

/-- The pruning loop over a map: what it accumulated and what it left. -/
def popWhile (m : OrderedMap κ α) (p : κ → Bool) (f : β → κ × α → β) (b : β) :
    β × OrderedMap κ α :=
  ((popLoop p f b m.entries).1, ⟨(popLoop p f b m.entries).2, by
    rw [popLoop_eq]
    exact m.sorted.sublist (List.dropWhile_sublist _)⟩)

/-- On a sorted list the keys up to `n` are a prefix. -/
theorem span_le (n : κ) (l : List (κ × α)) (hl : l.Pairwise (fun a b => a.1 < b.1)) :
    (l.takeWhile fun e => decide (e.1 ≤ n)) = l.filter (fun e => decide (e.1 ≤ n)) ∧
      (l.dropWhile fun e => decide (e.1 ≤ n)) = l.filter fun e => decide (n < e.1) := by
  induction l with
  | nil => exact ⟨rfl, rfl⟩
  | cons e rest ih =>
    obtain ⟨hhead, htail⟩ := List.pairwise_cons.mp hl
    rw [List.takeWhile_cons, List.dropWhile_cons, List.filter_cons, List.filter_cons]
    by_cases he : e.1 ≤ n
    · simp [he, ih htail, not_lt.mpr he]
    · have hn : n < e.1 := not_le.mp he
      have hrest : ∀ x ∈ rest, n < x.1 := fun x hx => lt_trans hn (hhead x hx)
      have hnone : rest.filter (fun x => decide (x.1 ≤ n)) = [] := by
        rw [List.filter_eq_nil_iff]
        intro x hx
        simpa using hrest x hx
      have hall : rest.filter (fun x => decide (n < x.1)) = rest := by
        rw [List.filter_eq_self]
        intro x hx
        simpa using hrest x hx
      simp [he, hn, hnone, hall]

/-- Pruning up to `n` consumes the entries with keys at most `n`, in order. -/
theorem popWhile_le_acc (m : OrderedMap κ α) (n : κ) (f : β → κ × α → β) (b : β) :
    (m.popWhile (fun k => decide (k ≤ n)) f b).1 =
      (m.entries.filter fun e => decide (e.1 ≤ n)).foldl f b := by
  simp only [popWhile, popLoop_eq, (span_le n m.entries m.sorted).1]

/-- Pruning up to `n` leaves the entries with keys above `n`. -/
theorem popWhile_le_entries (m : OrderedMap κ α) (n : κ) (f : β → κ × α → β) (b : β) :
    (m.popWhile (fun k => decide (k ≤ n)) f b).2.entries =
      m.entries.filter fun e => decide (n < e.1) := by
  simp only [popWhile, popLoop_eq, (span_le n m.entries m.sorted).2]

/-- The loop without a condition empties the map. -/
theorem popWhile_all (m : OrderedMap κ α) (f : β → κ × α → β) (b : β) :
    (m.popWhile (fun _ => true) f b).1 = m.entries.foldl f b ∧
      (m.popWhile (fun _ => true) f b).2.entries = [] := by
  have hloop : ∀ (l : List (κ × α)) (b : β), popLoop (fun _ => true) f b l = (l.foldl f b, []) := by
    intro l
    induction l with
    | nil => exact fun _ => rfl
    | cons e rest ih => exact fun b => ih (f b e)
  simp only [popWhile, hloop, and_self]

/-! ### Weights -/

/-- The entries with one key: at most one. -/
theorem filter_key (m : OrderedMap κ α) (k : κ) :
    (m.entries.filter fun e => decide (e.1 = k)) = (m.find? k).toList.map (Prod.mk k) := by
  cases h : m.find? k with
  | none =>
    simp only [Option.toList_none, List.map_nil, List.filter_eq_nil_iff, decide_eq_true_eq]
    rintro ⟨j, v⟩ he rfl
    exact find?_eq_none.mp h (mem_keys.mpr ⟨v, find?_eq_some.mpr he⟩)
  | some v =>
    have hall : ∀ e ∈ m.entries.filter (fun e => decide (e.1 = k)), e = (k, v) := by
      rintro ⟨j, w⟩ he
      obtain ⟨hmem, hk⟩ := List.mem_filter.mp he
      obtain rfl : j = k := of_decide_eq_true hk
      rw [m.unique hmem (find?_eq_some.mp h)]
    have hmem : (k, v) ∈ m.entries.filter fun e => decide (e.1 = k) :=
      List.mem_filter.mpr ⟨find?_eq_some.mp h, decide_eq_true rfl⟩
    have hsorted := m.sorted.filter fun e => decide (e.1 = k)
    match hl : m.entries.filter (fun e => decide (e.1 = k)) with
    | [] =>
      rw [hl] at hmem
      cases hmem
    | [e] =>
      rw [hl] at hall
      rw [hl, hall e (List.mem_singleton_self e)]
      rfl
    | d :: e :: rest =>
      -- A second entry would have the same key, but keys increase.
      rw [hl] at hall hsorted
      have hd := hall d (by simp)
      have he := hall e (by simp)
      have hlt := (List.pairwise_cons.mp hsorted).1 e (by simp)
      rw [hd, he] at hlt
      exact absurd hlt (lt_irrefl _)

/-- The keys with a weight of each entry. -/
def weights (m : OrderedMap κ α) (w : α → Nat) : List (κ × Nat) :=
  m.entries.map fun e => (e.1, w e.2)

theorem keys_weights (m : OrderedMap κ α) (w : α → Nat) : (m.weights w).map Prod.fst = m.keys := by
  rw [weights, List.map_map]
  rfl

/-- A key above all others goes to the end. -/
theorem weights_insert (m : OrderedMap κ α) (w : α → Nat) {k : κ} (v : α)
    (h : ∀ j ∈ m.keys, j < k) : (m.insert k v).weights w = m.weights w ++ [(k, w v)] := by
  rw [weights, insert_of_lt _ _ h, List.map_append]
  rfl

theorem filter_weights (m : OrderedMap κ α) (w : α → Nat) (q : κ → Bool) :
    ((m.weights w).filter fun e => q e.1) =
      (m.entries.filter fun e => q e.1).map fun e => (e.1, w e.2) := List.filter_map

/-- The weights of the keys that satisfy `q`, added up. -/
def weightOn (l : List (κ × Nat)) (q : κ → Bool) : Nat :=
  ((l.filter fun e => q e.1).map Prod.snd).sum

theorem weightOn_eq (m : OrderedMap κ α) (w : α → Nat) (k : κ) :
    weightOn (m.weights w) (fun j => decide (j = k)) = ((m.find? k).map w).getD 0 := by
  rw [weightOn, m.filter_weights w fun j => decide (j = k), filter_key]
  cases m.find? k <;> simp

/-- What lies below a key, at it and above it is everything. -/
theorem weightOn_split (l : List (κ × Nat)) (k : κ) :
    (l.map Prod.snd).sum = weightOn l (fun j => decide (j < k)) +
      weightOn l (fun j => decide (j = k)) + weightOn l (fun j => decide (k < j)) := by
  induction l with
  | nil => rfl
  | cons e rest ih =>
    simp only [weightOn, List.filter_cons, decide_eq_true_eq, List.map_cons, List.sum_cons] at ih ⊢
    rcases lt_trichotomy e.1 k with h | h | h
    · simp [h, h.ne, h.not_gt]
      omega
    · simp [h]
      omega
    · simp [h, h.ne', h.not_gt]
      omega

theorem weightOn_le (l : List (κ × Nat)) (k : κ) :
    weightOn l (fun j => decide (j ≤ k)) =
      weightOn l (fun j => decide (j < k)) + weightOn l (fun j => decide (j = k)) := by
  induction l with
  | nil => rfl
  | cons e rest ih =>
    simp only [weightOn, List.filter_cons, decide_eq_true_eq] at ih ⊢
    rcases lt_trichotomy e.1 k with h | h | h
    · simp [h, h.le, h.ne]
      omega
    · simp [h]
      omega
    · simp [h.not_ge, h.ne', h.not_gt]
      omega

omit [LinearOrder κ] in
theorem weightOn_congr {l : List (κ × Nat)} {q r : κ → Bool} (h : ∀ e ∈ l, q e.1 = r e.1) :
    weightOn l q = weightOn l r := by
  rw [weightOn, weightOn, List.filter_congr h]

omit [LinearOrder κ] in
theorem weightOn_append (l l' : List (κ × Nat)) (q : κ → Bool) :
    weightOn (l ++ l') q = weightOn l q + weightOn l' q := by
  simp [weightOn]

omit [LinearOrder κ] in
theorem weightOn_le_sum (l : List (κ × Nat)) (q : κ → Bool) :
    weightOn l q ≤ (l.map Prod.snd).sum := by
  induction l with
  | nil => exact Nat.le_refl _
  | cons e rest ih =>
    rw [weightOn, List.filter_cons]
    rw [weightOn] at ih
    split
    · simpa using ih
    · simp only [List.map_cons, List.sum_cons]
      omega

/-- With one key more, the weight of its entry comes on top. -/
theorem weightOn_insert {l : List (κ × Nat)} (h : (l.map Prod.fst).Nodup) {ks : List κ} {k : κ}
    (hk : k ∉ ks) {w : Nat} (hw : (k, w) ∈ l) :
    weightOn l (fun j => decide (j ∈ ks ++ [k])) = weightOn l (fun j => decide (j ∈ ks)) + w := by
  induction l with
  | nil => cases hw
  | cons e rest ih =>
    obtain ⟨hfirst, hrest⟩ := List.nodup_cons.mp h
    rw [← List.singleton_append, weightOn_append, weightOn_append]
    rcases List.mem_cons.mp hw with rfl | hmem
    · -- No other entry has the key.
      have hsame : weightOn rest (fun j => decide (j ∈ ks ++ [k])) =
          weightOn rest fun j => decide (j ∈ ks) := by
        apply weightOn_congr
        intro e he
        have hne : e.1 ≠ k := fun heq => hfirst (List.mem_map.mpr ⟨e, he, heq⟩)
        simp [hne]
      rw [hsame]
      simp [weightOn, hk, Nat.add_comm]
    · have hne : e.1 ≠ k := fun heq => hfirst (List.mem_map.mpr ⟨(k, w), hmem, heq.symm⟩)
      have hsame : weightOn [e] (fun j => decide (j ∈ ks ++ [k])) =
          weightOn [e] fun j => decide (j ∈ ks) := by
        apply weightOn_congr
        intro e' he'
        rw [List.mem_singleton.mp he']
        simp [hne]
      rw [hsame, ih hrest hmem, Nat.add_assoc]

end OrderedMap
end CongestionResponse.Lib
