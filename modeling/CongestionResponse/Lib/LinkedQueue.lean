import Mathlib.Data.Nat.Basic
import CongestionResponse.Lib.OrderedMap

/-! A queue of heap cells with raw `prev` and `next` pointers.

Addresses are given out in increasing order and never again, so a pointer to a
deleted cell stays recognisable: reading, writing or deleting through it fails
(`none`). A heap is `Chained` when its cells, in order of address, are linked in
both directions. Seen from outside such a heap is the list of its `contents`;
`append_spec`, `update_spec` and `release_spec` say what the pointer operations do
to that list, and that they succeed. -/
namespace CongestionResponse.Lib

structure Cell (α : Type) where
  value : α
  prev : Option Nat
  next : Option Nat

/-- The live cells by address, and the next address to give out. -/
structure Heap (α : Type) where
  cells : OrderedMap Nat (Cell α)
  fresh : Nat
  below : ∀ a ∈ cells.keys, a < fresh

namespace Heap
variable {α : Type}

def empty : Heap α := ⟨.empty, 0, by simp⟩

/-! ### Pointer operations -/

def read (h : Heap α) (a : Nat) : Option (Cell α) := h.cells.find? a

/-- Write through a pointer. -/
def write (h : Heap α) (a : Nat) (f : Cell α → Cell α) : Option (Heap α) :=
  (h.read a).map fun _ =>
    ⟨h.cells.modify a f, h.fresh, by rw [OrderedMap.keys_modify]; exact h.below⟩

/-- `new`. -/
def alloc (h : Heap α) (c : Cell α) : Heap α where
  cells := h.cells.insert h.fresh c
  fresh := h.fresh + 1
  below := by
    intro a ha
    rcases OrderedMap.mem_keys_insert.mp ha with ha | rfl
    · exact Nat.lt_succ_of_lt (h.below a ha)
    · exact Nat.lt_succ_self _

/-- `delete`. -/
def free (h : Heap α) (a : Nat) : Option (Heap α) :=
  (h.read a).map fun _ =>
    ⟨h.cells.erase a, h.fresh, fun b hb => h.below b (OrderedMap.mem_keys_erase.mp hb).1⟩

/-! ### Queue operations -/

/-- Change the value of a cell, not its links. -/
def update (h : Heap α) (a : Nat) (f : α → α) : Option (Heap α) :=
  h.write a fun c => {c with value := f c.value}

/-- Allocate a cell behind `last` and link the two. -/
def append (h : Heap α) (last : Option Nat) (v : α) : Option (Heap α) :=
  match last with
  | none => some (h.alloc ⟨v, none, none⟩)
  | some q => (h.alloc ⟨v, some q, none⟩).write q fun c => {c with next := some h.fresh}

/-- Unlink the cell behind `a` and delete `a`. -/
def release (h : Heap α) (a : Nat) : Option (Heap α) := do
  let c ← h.read a
  let h ← match c.next with
    | none => some h
    | some n => h.write n fun d => {d with prev := none}
  h.free a

/-! ### Chains -/

/-- The cells are linked to each other in both directions, the first one to `prev`. -/
def ChainFrom (prev : Option Nat) : List (Nat × Cell α) → Prop
  | [] => True
  | e :: rest => e.2.prev = prev ∧ e.2.next = rest.head?.map Prod.fst ∧ ChainFrom (some e.1) rest

def Chained (h : Heap α) : Prop := ChainFrom none h.cells.entries

/-- Address and value of every live cell, in order. -/
def contents (h : Heap α) : List (Nat × α) := h.cells.entries.map fun e => (e.1, e.2.value)

theorem contents_sorted (h : Heap α) : h.contents.Pairwise fun x y => x.1 < y.1 :=
  List.pairwise_map.mpr h.cells.sorted

theorem lt_fresh {h : Heap α} {x : Nat × α} (hx : x ∈ h.contents) : x.1 < h.fresh := by
  obtain ⟨e, he, rfl⟩ := List.mem_map.mp hx
  exact h.below e.1 (List.mem_map_of_mem he)

theorem mem_contents {h : Heap α} {a : Nat} {v : α} :
    (a, v) ∈ h.contents ↔ ∃ c, h.read a = some c ∧ c.value = v := by
  constructor
  · intro hx
    obtain ⟨⟨b, c⟩, he, hbc⟩ := List.mem_map.mp hx
    obtain ⟨rfl, rfl⟩ := Prod.mk.inj hbc
    exact ⟨c, OrderedMap.find?_eq_some.mpr he, rfl⟩
  · rintro ⟨c, hread, rfl⟩
    exact List.mem_map.mpr ⟨(a, c), OrderedMap.find?_eq_some.mp hread, rfl⟩

theorem contents_unique {h : Heap α} {a : Nat} {v w : α} (hv : (a, v) ∈ h.contents)
    (hw : (a, w) ∈ h.contents) : v = w := by
  rcases pairwise_cases h.contents_sorted hv hw with heq | hlt | hlt
  · exact (Prod.mk.inj heq).2
  · exact absurd hlt (Nat.lt_irrefl a)
  · exact absurd hlt (Nat.lt_irrefl a)

/-- Contents with the value at one address changed. -/
def mapAt (a : Nat) (f : α → α) (l : List (Nat × α)) : List (Nat × α) :=
  l.map fun x => if x.1 = a then (x.1, f x.2) else x

theorem mem_mapAt {h : Heap α} {a : Nat} {v : α} (hv : (a, v) ∈ h.contents) (f : α → α)
    {x : Nat × α} : x ∈ mapAt a f h.contents ↔ x = (a, f v) ∨ x ∈ h.contents ∧ x.1 ≠ a := by
  rw [mapAt, List.mem_map]
  constructor
  · rintro ⟨⟨b, w⟩, hy, rfl⟩
    by_cases hb : b = a
    · subst hb
      rw [contents_unique hy hv, if_pos rfl]
      exact .inl rfl
    · rw [if_neg hb]
      exact .inr ⟨hy, hb⟩
  · rintro (rfl | ⟨hx, hne⟩)
    · exact ⟨(a, v), hv, if_pos rfl⟩
    · exact ⟨x, hx, if_neg hne⟩

/-- Changing a value keeps the addresses. -/
theorem mem_mapAt_cases {a : Nat} {f : α → α} {l : List (Nat × α)} {x : Nat × α}
    (hx : x ∈ mapAt a f l) : ∃ v, (x.1, v) ∈ l ∧ (x.1 = a ∧ x.2 = f v ∨ x.1 ≠ a ∧ x.2 = v) := by
  obtain ⟨⟨b, v⟩, hy, rfl⟩ := List.mem_map.mp hx
  by_cases hb : b = a
  · simp only [hb, if_true] at hy ⊢
    exact ⟨v, hy, .inl ⟨trivial, rfl⟩⟩
  · simp only [hb, if_false]
    exact ⟨v, hy, .inr ⟨hb, rfl⟩⟩

theorem exists_mem_mapAt (a : Nat) (f : α → α) {l : List (Nat × α)} {b : Nat}
    (h : ∃ v, (b, v) ∈ l) : ∃ v, (b, v) ∈ mapAt a f l := by
  obtain ⟨v, hv⟩ := h
  refine ⟨if b = a then f v else v, List.mem_map.mpr ⟨(b, v), hv, ?_⟩⟩
  split <;> rfl

theorem mapAt_concat {a : Nat} (f : α → α) (v : α) {l : List (Nat × α)} (h : ∀ x ∈ l, x.1 ≠ a) :
    mapAt a f (l ++ [(a, v)]) = l ++ [(a, f v)] := by
  rw [mapAt, List.map_append, List.map_singleton, if_pos rfl]
  congr 1
  conv_rhs => rw [← List.map_id l]
  apply List.map_congr_left
  intro x hx
  exact if_neg (h x hx)

theorem mapAt_self (a : Nat) (f : α → α) (v : α) (l : List (Nat × α)) :
    mapAt a (fun _ => v) (mapAt a f l) = mapAt a (fun _ => v) l := by
  rw [mapAt, mapAt, mapAt, List.map_map]
  apply List.map_congr_left
  intro x _
  by_cases hx : x.1 = a <;> simp [hx]

theorem mapAt_comm {a b : Nat} (hab : a ≠ b) (f g : α → α) (l : List (Nat × α)) :
    mapAt a f (mapAt b g l) = mapAt b g (mapAt a f l) := by
  rw [mapAt, mapAt, mapAt, mapAt, List.map_map, List.map_map]
  apply List.map_congr_left
  intro x _
  by_cases ha : x.1 = a
  · simp [ha, hab]
  · by_cases hb : x.1 = b <;> simp [ha, hb, hab.symm]

/-! ### What the links say -/

theorem chainFrom_split {prev : Option Nat} {l r : List (Nat × Cell α)} {e : Nat × Cell α}
    (h : ChainFrom prev (l ++ e :: r)) :
    e.2.prev = (l.getLast?.map Prod.fst).or prev ∧ e.2.next = r.head?.map Prod.fst := by
  induction l generalizing prev with
  | nil => exact ⟨h.1, h.2.1⟩
  | cons x l ih =>
    obtain ⟨hprev, hnext⟩ := ih h.2.2
    refine ⟨?_, hnext⟩
    rw [hprev]
    cases l <;> simp [List.getLast?_cons]

/-- A cell points to its two neighbours. -/
theorem read_spec {h : Heap α} (hc : h.Chained) {a : Nat} {c : Cell α} (hread : h.read a = some c) :
    ∃ l r, h.contents = l ++ (a, c.value) :: r ∧ c.prev = l.getLast?.map Prod.fst ∧
      c.next = r.head?.map Prod.fst := by
  obtain ⟨l, r, hentries⟩ := List.append_of_mem (OrderedMap.find?_eq_some.mp hread)
  have hc' : ChainFrom none h.cells.entries := hc
  rw [hentries] at hc'
  obtain ⟨hprev, hnext⟩ := chainFrom_split hc'
  refine ⟨l.map fun e => (e.1, e.2.value), r.map fun e => (e.1, e.2.value), ?_, ?_, ?_⟩
  · rw [contents, hentries, List.map_append, List.map_cons]
  · rw [hprev, List.getLast?_map, Option.map_map, Option.or_none]
    rfl
  · rw [hnext, List.head?_map, Option.map_map]
    rfl

/-- What lies before and after an address in the contents. -/
theorem split_sorted {h : Heap α} {a : Nat} {v : α} {l r : List (Nat × α)}
    (hcontents : h.contents = l ++ (a, v) :: r) :
    (∀ x ∈ l, x.1 < a) ∧ (∀ x ∈ r, a < x.1) := by
  have hsorted := h.contents_sorted
  rw [hcontents, List.pairwise_append, List.pairwise_cons] at hsorted
  exact ⟨fun x hx => hsorted.2.2 x hx (a, v) (List.mem_cons_self ..), hsorted.2.1.1⟩

theorem prev_none {h : Heap α} (hc : h.Chained) {a : Nat} {c : Cell α} (hread : h.read a = some c)
    (hprev : c.prev = none) : ∀ x ∈ h.contents, a ≤ x.1 := by
  obtain ⟨l, r, hcontents, hl, -⟩ := read_spec hc hread
  obtain rfl : l = [] := by simpa [hprev] using hl.symm
  intro x hx
  rw [hcontents, List.nil_append] at hx
  rcases List.mem_cons.mp hx with rfl | hx
  · exact Nat.le_refl _
  · exact Nat.le_of_lt ((split_sorted hcontents).2 x hx)

/-- `prev` is the live cell with the next smaller address. -/
theorem prev_some {h : Heap α} (hc : h.Chained) {a q : Nat} {c : Cell α} (hread : h.read a = some c)
    (hprev : c.prev = some q) :
    (∃ d, (q, d) ∈ h.contents) ∧ q < a ∧ ∀ x ∈ h.contents, x.1 < a → x.1 ≤ q := by
  obtain ⟨l, r, hcontents, hl, -⟩ := read_spec hc hread
  rw [hprev] at hl
  obtain ⟨y, hy, rfl⟩ := Option.map_eq_some_iff.mp hl.symm
  obtain ⟨l', rfl⟩ := List.getLast?_eq_some_iff.mp hy
  obtain ⟨hbefore, hafter⟩ := split_sorted hcontents
  refine ⟨⟨y.2, ?_⟩, hbefore y (by simp), ?_⟩
  · rw [hcontents]
    simp
  intro x hx hlt
  rw [hcontents, List.mem_append, List.mem_cons] at hx
  rcases hx with hx | rfl | hx
  · rcases List.mem_append.mp hx with hx | hx
    · have hsorted := h.contents_sorted
      rw [hcontents, List.pairwise_append, List.pairwise_append] at hsorted
      exact Nat.le_of_lt (hsorted.1.2.2 x hx y (List.mem_singleton_self _))
    · rw [List.mem_singleton.mp hx]
  · exact absurd hlt (Nat.lt_irrefl _)
  · exact absurd (hafter x hx) (Nat.lt_asymm hlt)

theorem next_none {h : Heap α} (hc : h.Chained) {a : Nat} {c : Cell α} (hread : h.read a = some c)
    (hnext : c.next = none) : ∀ x ∈ h.contents, x.1 ≤ a := by
  obtain ⟨l, r, hcontents, -, hr⟩ := read_spec hc hread
  obtain rfl : r = [] := by simpa [hnext] using hr.symm
  intro x hx
  rw [hcontents, List.mem_append, List.mem_singleton] at hx
  rcases hx with hx | rfl
  · exact Nat.le_of_lt ((split_sorted hcontents).1 x hx)
  · exact Nat.le_refl _

/-- `next` is the live cell with the next larger address. -/
theorem next_some {h : Heap α} (hc : h.Chained) {a n : Nat} {c : Cell α} (hread : h.read a = some c)
    (hnext : c.next = some n) :
    (∃ d, (n, d) ∈ h.contents) ∧ a < n ∧ ∀ x ∈ h.contents, a < x.1 → n ≤ x.1 := by
  obtain ⟨l, r, hcontents, -, hr⟩ := read_spec hc hread
  rw [hnext] at hr
  obtain ⟨y, hy, rfl⟩ := Option.map_eq_some_iff.mp hr.symm
  obtain ⟨r', rfl⟩ := List.head?_eq_some_iff.mp hy
  obtain ⟨hbefore, hafter⟩ := split_sorted hcontents
  refine ⟨⟨y.2, ?_⟩, hafter y (List.mem_cons_self ..), ?_⟩
  · rw [hcontents]
    simp
  intro x hx hlt
  rw [hcontents, List.mem_append, List.mem_cons] at hx
  rcases hx with hx | rfl | hx
  · exact absurd (hbefore x hx) (Nat.lt_asymm hlt)
  · exact absurd hlt (Nat.lt_irrefl _)
  · rcases List.mem_cons.mp hx with rfl | hx
    · exact Nat.le_refl _
    · have hsorted := h.contents_sorted
      rw [hcontents, List.pairwise_append, List.pairwise_cons, List.pairwise_cons] at hsorted
      exact Nat.le_of_lt (hsorted.2.1.2.1 x hx)

/-- The two links of neighbours are inverse to each other. -/
theorem next_iff_prev {h : Heap α} (hc : h.Chained) {a n : Nat} {c d : Cell α}
    (hreada : h.read a = some c) (hreadn : h.read n = some d) :
    c.next = some n ↔ d.prev = some a := by
  have hmema := mem_contents.mpr ⟨c, hreada, rfl⟩
  have hmemn := mem_contents.mpr ⟨d, hreadn, rfl⟩
  constructor
  · intro hnext
    obtain ⟨-, hlt, hleast⟩ := next_some hc hreada hnext
    cases hprev : d.prev with
    | none => exact absurd (prev_none hc hreadn hprev _ hmema) (Nat.not_le.mpr hlt)
    | some q =>
      obtain ⟨⟨v, hq⟩, hqn, hgreatest⟩ := prev_some hc hreadn hprev
      have haq : a ≤ q := hgreatest _ hmema hlt
      rcases Nat.lt_or_eq_of_le haq with haq | rfl
      · exact absurd (hleast _ hq haq) (Nat.not_le.mpr hqn)
      · rfl
  · intro hprev
    obtain ⟨-, hlt, hgreatest⟩ := prev_some hc hreadn hprev
    cases hnext : c.next with
    | none => exact absurd (next_none hc hreada hnext _ hmemn) (Nat.not_le.mpr hlt)
    | some q =>
      obtain ⟨⟨v, hq⟩, haq, hleast⟩ := next_some hc hreada hnext
      have hqn : q ≤ n := hleast _ hmemn hlt
      rcases Nat.lt_or_eq_of_le hqn with hqn | rfl
      · exact absurd (hgreatest _ hq hqn) (Nat.not_le.mpr haq)
      · rfl

/-! ### Updates -/

theorem write_eq {h : Heap α} {a : Nat} {c : Cell α} (hread : h.read a = some c)
    (f : Cell α → Cell α) :
    ∃ h', h.write a f = some h' ∧ h'.fresh = h.fresh ∧
      h'.cells.entries = h.cells.entries.map fun e => if e.1 = a then (e.1, f e.2) else e := by
  rw [write, hread]
  exact ⟨_, rfl, rfl, rfl⟩

theorem free_eq {h : Heap α} {a : Nat} {c : Cell α} (hread : h.read a = some c) :
    ∃ h', h.free a = some h' ∧ h'.fresh = h.fresh ∧
      h'.cells.entries = h.cells.entries.filter fun e => decide (e.1 ≠ a) := by
  rw [free, hread]
  exact ⟨_, rfl, rfl, rfl⟩

theorem chainFrom_map {g : Nat × Cell α → Nat × Cell α} (haddr : ∀ e, (g e).1 = e.1)
    (hprev : ∀ e, (g e).2.prev = e.2.prev) (hnext : ∀ e, (g e).2.next = e.2.next)
    {prev : Option Nat} {l : List (Nat × Cell α)} (h : ChainFrom prev l) :
    ChainFrom prev (l.map g) := by
  induction l generalizing prev with
  | nil => trivial
  | cons e rest ih =>
    refine ⟨(hprev e).trans h.1, ?_, ?_⟩
    · rw [hnext, h.2.1, List.head?_map]
      cases rest.head? <;> simp [haddr]
    · rw [haddr]
      exact ih h.2.2

theorem update_spec {h : Heap α} (hc : h.Chained) {a : Nat} {v : α} (hv : (a, v) ∈ h.contents)
    (f : α → α) :
    ∃ h', h.update a f = some h' ∧ h'.Chained ∧ h'.fresh = h.fresh ∧
      h'.contents = mapAt a f h.contents := by
  obtain ⟨c, hread, -⟩ := mem_contents.mp hv
  obtain ⟨h', hwrite, hfresh, hentries⟩ := write_eq hread fun c => {c with value := f c.value}
  refine ⟨h', hwrite, ?_, hfresh, ?_⟩
  · rw [Chained, hentries]
    apply chainFrom_map _ _ _ hc
    all_goals
      intro e
      split <;> rfl
  · rw [contents, hentries, contents, mapAt, List.map_map, List.map_map]
    apply List.map_congr_left
    intro e _
    simp only [Function.comp]
    split <;> rfl

/-! ### Appending -/

theorem alloc_entries (h : Heap α) (c : Cell α) :
    (h.alloc c).cells.entries = h.cells.entries ++ [(h.fresh, c)] :=
  OrderedMap.insert_of_lt _ _ h.below

/-- Linking the last cell to a new one. -/
theorem chainFrom_append {prev : Option Nat} {l : List (Nat × Cell α)}
    (hsorted : l.Pairwise fun a b => a.1 < b.1) (h : ChainFrom prev l) {q : Nat}
    (hq : l.getLast?.map Prod.fst = some q) (a : Nat) (v : α) :
    ChainFrom prev ((l.map fun e => if e.1 = q then (e.1, {e.2 with next := some a}) else e) ++
      [(a, ⟨v, some q, none⟩)]) := by
  induction l generalizing prev with
  | nil => cases hq
  | cons e rest ih =>
    obtain ⟨hhead, htail⟩ := List.pairwise_cons.mp hsorted
    obtain ⟨hprev, hnext, hrest⟩ := h
    cases rest with
    | nil =>
      obtain rfl : e.1 = q := by simpa using hq
      simp [ChainFrom, hprev]
    | cons d rest =>
      have hq' : (d :: rest).getLast?.map Prod.fst = some q := by
        rwa [List.getLast?_cons_cons] at hq
      -- `q` is the address of a later cell, hence not that of `e`.
      have hne : e.1 ≠ q := by
        obtain ⟨x, hx, rfl⟩ := Option.map_eq_some_iff.mp hq'
        exact Nat.ne_of_lt (hhead x (List.mem_of_getLast? hx))
      rw [List.map_cons, if_neg hne, List.cons_append]
      refine ⟨hprev, ?_, ih htail hrest hq'⟩
      rw [hnext, List.map_cons, List.cons_append, List.head?_cons, List.head?_cons]
      split <;> rfl

theorem append_spec {h : Heap α} (hc : h.Chained) {last : Option Nat}
    (hlast : last = h.contents.getLast?.map Prod.fst) (v : α) :
    ∃ h', h.append last v = some h' ∧ h'.Chained ∧ h'.fresh = h.fresh + 1 ∧
      h'.contents = h.contents ++ [(h.fresh, v)] := by
  have hlast' : h.cells.entries.getLast?.map Prod.fst = last := by
    rw [hlast, contents, List.getLast?_map, Option.map_map]
    rfl
  cases last with
  | none =>
    have hnil : h.cells.entries = [] := by simpa using hlast'
    refine ⟨_, rfl, ?_, rfl, ?_⟩
    · rw [Chained, alloc_entries, hnil]
      simp [ChainFrom]
    · rw [contents, alloc_entries, List.map_append]
      rfl
  | some q =>
    have hread : ∃ c, (h.alloc ⟨v, some q, none⟩).read q = some c := by
      obtain ⟨x, hx, rfl⟩ := Option.map_eq_some_iff.mp hlast'
      refine ⟨x.2, OrderedMap.find?_eq_some.mpr ?_⟩
      rw [alloc_entries]
      exact List.mem_append_left _ (List.mem_of_getLast? hx)
    obtain ⟨c, hread⟩ := hread
    obtain ⟨h', hwrite, hfresh, hentries⟩ := write_eq hread fun c => {c with next := some h.fresh}
    -- The new cell is not the one that is written.
    have hq : h.fresh ≠ q := by
      obtain ⟨x, hx, rfl⟩ := Option.map_eq_some_iff.mp hlast'
      exact Nat.ne_of_gt (h.below x.1 (List.mem_map_of_mem (List.mem_of_getLast? hx)))
    rw [alloc_entries, List.map_append, List.map_singleton, if_neg hq] at hentries
    refine ⟨h', hwrite, ?_, hfresh, ?_⟩
    · rw [Chained, hentries]
      exact chainFrom_append h.cells.sorted hc hlast' h.fresh v
    · rw [contents, hentries, List.map_append, List.map_map, contents]
      congr 1
      apply List.map_congr_left
      intro e _
      simp only [Function.comp]
      split <;> rfl

/-! ### Deleting from the front -/

theorem filter_head {a : Nat} {c : Cell α} {rest : List (Nat × Cell α)}
    (hsorted : ((a, c) :: rest).Pairwise fun x y => x.1 < y.1) :
    (((a, c) :: rest).filter fun e => decide (e.1 ≠ a)) = rest := by
  have hne : ∀ e ∈ rest, e.1 ≠ a := by
    intro e he
    exact Nat.ne_of_gt ((List.pairwise_cons.mp hsorted).1 e he)
  rw [List.filter_cons_of_neg (by simp), List.filter_eq_self]
  intro e he
  simpa using hne e he

theorem map_second {a n : Nat} {c d : Cell α} {rest : List (Nat × Cell α)}
    (hsorted : ((a, c) :: (n, d) :: rest).Pairwise fun x y => x.1 < y.1)
    (f : Cell α → Cell α) :
    (((a, c) :: (n, d) :: rest).map fun e => if e.1 = n then (e.1, f e.2) else e) =
      (a, c) :: (n, f d) :: rest := by
  obtain ⟨hhead, htail⟩ := List.pairwise_cons.mp hsorted
  have han : a ≠ n := Nat.ne_of_lt (hhead (n, d) (List.mem_cons_self ..))
  have hrest : (rest.map fun e => if e.1 = n then (e.1, f e.2) else e) = rest := by
    conv_rhs => rw [← List.map_id rest]
    apply List.map_congr_left
    intro e he
    exact if_neg (Nat.ne_of_gt ((List.pairwise_cons.mp htail).1 e he))
  rw [List.map_cons, List.map_cons, if_neg han, if_pos rfl, hrest]

theorem free_head {h : Heap α} {a : Nat} {c : Cell α} {es : List (Nat × Cell α)}
    (hentries : h.cells.entries = (a, c) :: es) :
    ∃ h', h.free a = some h' ∧ h'.fresh = h.fresh ∧ h'.cells.entries = es := by
  have hsorted := h.cells.sorted
  have hread : h.read a = some c :=
    OrderedMap.find?_eq_some.mpr (by rw [hentries]; exact List.mem_cons_self ..)
  obtain ⟨h', hfree, hfresh, hentries'⟩ := free_eq hread
  rw [hentries] at hsorted hentries'
  exact ⟨h', hfree, hfresh, hentries'.trans (filter_head hsorted)⟩

/-- Deleting the first cell leaves the rest of the queue, and no pointer to it. -/
theorem release_spec {h : Heap α} (hc : h.Chained) {a : Nat} {v : α} {rest : List (Nat × α)}
    (hcontents : h.contents = (a, v) :: rest) :
    ∃ h', h.release a = some h' ∧ h'.Chained ∧ h'.fresh = h.fresh ∧ h'.contents = rest := by
  obtain ⟨⟨b, c⟩, es, hentries, hac, rfl⟩ := List.map_eq_cons_iff.mp hcontents
  obtain ⟨rfl, rfl⟩ : b = a ∧ c.value = v := Prod.mk.inj hac
  have hsorted := h.cells.sorted
  have hc' : ChainFrom none h.cells.entries := hc
  rw [hentries] at hsorted hc'
  have hread : h.read b = some c :=
    OrderedMap.find?_eq_some.mpr (by rw [hentries]; exact List.mem_cons_self ..)
  cases es with
  | nil =>
    obtain ⟨h', hfree, hfresh, hentries'⟩ := free_head hentries
    refine ⟨h', ?_, ?_, hfresh, ?_⟩
    · have hnext : c.next = none := hc'.2.1
      simp only [release, hread, Option.bind_eq_bind, Option.bind_some, hnext]
      exact hfree
    · rw [Chained, hentries']
      trivial
    · rw [contents, hentries']
  | cons e es =>
    obtain ⟨n, d⟩ := e
    have hreadn : h.read n = some d :=
      OrderedMap.find?_eq_some.mpr (by rw [hentries]; simp)
    obtain ⟨h₁, hwrite, hfresh₁, hentries₁⟩ := write_eq hreadn fun d => {d with prev := none}
    rw [hentries, map_second hsorted fun d => {d with prev := none}] at hentries₁
    obtain ⟨h', hfree, hfresh, hentries'⟩ := free_head hentries₁
    refine ⟨h', ?_, ?_, hfresh.trans hfresh₁, ?_⟩
    · have hnext : c.next = some n := hc'.2.1
      simp only [release, hread, Option.bind_eq_bind, Option.bind_some, hnext, hwrite]
      exact hfree
    · rw [Chained, hentries']
      exact ⟨rfl, hc'.2.2.2⟩
    · rw [contents, hentries']
      rfl

/-- The first cell can be deleted whatever its links. -/
theorem free_spec {h : Heap α} {a : Nat} {v : α} {rest : List (Nat × α)}
    (hcontents : h.contents = (a, v) :: rest) :
    ∃ h', h.free a = some h' ∧ h'.fresh = h.fresh ∧ h'.contents = rest := by
  obtain ⟨⟨b, c⟩, es, hentries, hac, rfl⟩ := List.map_eq_cons_iff.mp hcontents
  obtain ⟨rfl, -⟩ : b = a ∧ c.value = v := Prod.mk.inj hac
  obtain ⟨h', hfree, hfresh, hentries'⟩ := free_head hentries
  exact ⟨h', hfree, hfresh, by rw [contents, hentries']⟩

/-- The rule for a loop that takes cells from the front: what one round does to the first
cell, the loop does to all it visits. -/
theorem foldl_front {P : Heap α → Prop} {f : Heap α → Nat → Option (Heap α)}
    (hf : ∀ h a v rest, P h → h.contents = (a, v) :: rest →
      ∃ h', f h a = some h' ∧ P h' ∧ h'.fresh = h.fresh ∧ h'.contents = rest)
    {h : Heap α} (hP : P h) {l r : List (Nat × α)} (hcontents : h.contents = l ++ r) :
    ∃ h', (l.map Prod.fst).foldl (fun acc a => acc.bind fun h => f h a) (some h) = some h' ∧
      P h' ∧ h'.fresh = h.fresh ∧ h'.contents = r := by
  induction l generalizing h with
  | nil => exact ⟨h, rfl, hP, rfl, hcontents⟩
  | cons x l ih =>
    obtain ⟨h₁, hf₁, hP₁, hfresh₁, hcontents₁⟩ := hf h x.1 x.2 (l ++ r) hP hcontents
    obtain ⟨h', hfold, hP', hfresh, hcontents'⟩ := ih hP₁ hcontents₁
    refine ⟨h', ?_, hP', hfresh.trans hfresh₁, hcontents'⟩
    rw [List.map_cons, List.foldl_cons, Option.bind_some, hf₁]
    exact hfold

end Heap
end CongestionResponse.Lib
