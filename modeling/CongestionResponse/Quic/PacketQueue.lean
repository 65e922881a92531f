import Mathlib.Data.List.Basic
import Mathlib.Data.List.Count

/-! `PacketNumberIndexedQueue`: entries by packet number, in a deque.

The deque holds a slot for every number from `first_packet_` on; an entry that is not
present, or not any more, is an empty slot. The front slot is never empty, which is what
`Cleanup` is for. `contents` reads the queue as the list of its present entries in order
of their numbers, and the three operations are described by what they do to that list. -/
namespace CongestionResponse.Quic

structure PacketNumberIndexedQueue (α : Type) where
  entries : List (Option α)
  numberOfPresentEntries : Nat
  firstPacket : Nat
  counted : numberOfPresentEntries = entries.countP Option.isSome
  front : ∀ rest, entries ≠ none :: rest
  start : entries = [] → firstPacket = 0

namespace PacketNumberIndexedQueue
variable {α : Type}

def empty : PacketNumberIndexedQueue α where
  entries := []
  numberOfPresentEntries := 0
  firstPacket := 0
  counted := rfl
  front := by intro rest h; cases h
  start := fun _ => rfl

variable (q : PacketNumberIndexedQueue α)

def isEmpty : Bool := decide (q.numberOfPresentEntries = 0)

theorem isEmpty_iff : q.isEmpty = true ↔ q.entries = [] := by
  rw [isEmpty, decide_eq_true_eq, q.counted]
  cases h : q.entries with
  | nil => simp
  | cons slot rest =>
    cases slot with
    | none => exact absurd h (q.front rest)
    | some v => simp

def lastPacket : Nat := if q.isEmpty then 0 else q.firstPacket + q.entries.length - 1

/-- `GetEntry`, with `GetEntryWrapper`. -/
def getEntry (packetNumber : Nat) : Option α :=
  if packetNumber < q.firstPacket then none
  else (q.entries[packetNumber - q.firstPacket]?).join

/-- The slots after `Emplace` beyond the end: the missing ones are filled up. -/
def extend (packetNumber : Nat) (value : α) : List (Option α) :=
  let offset := packetNumber - q.firstPacket
  q.entries ++ List.replicate (offset - q.entries.length) none ++ [some value]

theorem front_extend (packetNumber : Nat) (value : α) (h : q.entries ≠ []) :
    ∀ rest, q.extend packetNumber value ≠ none :: rest := by
  intro rest heq
  obtain ⟨slot, slots, hentries⟩ := List.exists_cons_of_ne_nil h
  simp only [extend, hentries, List.cons_append, List.cons.injEq] at heq
  exact q.front slots (by rw [hentries, heq.1])

/-- `Emplace`: whether it succeeded. -/
def emplace (packetNumber : Nat) (value : α) : Bool × PacketNumberIndexedQueue α :=
  if hempty : q.isEmpty then
    (true,
      { entries := q.entries ++ [some value]
        numberOfPresentEntries := 1
        firstPacket := packetNumber
        counted := by rw [q.isEmpty_iff.mp hempty]; rfl
        front := by rw [q.isEmpty_iff.mp hempty]; simp
        start := by simp })
  -- Do not allow insertion out-of-order.
  else if packetNumber ≤ q.lastPacket then (false, q)
  else
    (true,
      { entries := q.extend packetNumber value
        numberOfPresentEntries := q.numberOfPresentEntries + 1
        firstPacket := q.firstPacket
        counted := by simp [extend, q.counted, List.countP_replicate]
        front := q.front_extend packetNumber value fun h => hempty (q.isEmpty_iff.mpr h)
        start := by simp [extend] })

/-! ### Present entries -/

/-- The present entries of a row of slots, with the numbers they have from `first` on. -/
def present : Nat → List (Option α) → List (Nat × α)
  | _, [] => []
  | first, none :: rest => present (first + 1) rest
  | first, some v :: rest => (first, v) :: present (first + 1) rest

theorem present_append (first : Nat) (a b : List (Option α)) :
    present first (a ++ b) = present first a ++ present (first + a.length) b := by
  induction a generalizing first with
  | nil => rfl
  | cons slot rest ih =>
    have hlength : first + (slot :: rest).length = first + 1 + rest.length := by
      rw [List.length_cons]
      omega
    rw [hlength]
    cases slot with
    | none => exact ih (first + 1)
    | some v =>
      show (first, v) :: present (first + 1) (rest ++ b) = _
      rw [ih (first + 1)]
      rfl

theorem present_replicate_none (first n : Nat) :
    present first (List.replicate n (none : Option α)) = [] := by
  induction n generalizing first with
  | zero => rfl
  | succ n ih => exact ih (first + 1)

theorem mem_present {first k : Nat} {slots : List (Option α)} {v : α} :
    (k, v) ∈ present first slots ↔ first ≤ k ∧ slots[k - first]? = some (some v) := by
  induction slots generalizing first with
  | nil => simp [present]
  | cons slot rest ih =>
    by_cases hk : k = first
    · -- The number of the first slot is none of the later ones.
      subst hk
      have hrest : (k, v) ∉ present (k + 1) rest := fun h => by
        have := (ih.mp h).1
        omega
      cases slot with
      | none => simp [present, hrest]
      | some w => simp [present, hrest, eq_comm]
    · have hstep : (k, v) ∈ present (first + 1) rest ↔
          first ≤ k ∧ (slot :: rest)[k - first]? = some (some v) := by
        rw [ih]
        by_cases hle : first ≤ k
        · obtain ⟨d, rfl⟩ : ∃ d, k = first + 1 + d := ⟨k - (first + 1), by omega⟩
          have hd : first + 1 + d - first = d + 1 := by omega
          simp [hd]
          omega
        · simp [hle]
          omega
      cases slot with
      | none => exact hstep
      | some w => simpa [present, hk] using hstep

theorem present_set_none (first i : Nat) (slots : List (Option α)) :
    present first (slots.set i none) =
      (present first slots).filter fun e => decide (e.1 ≠ first + i) := by
  induction slots generalizing first i with
  | nil => rfl
  | cons slot rest ih =>
    cases i with
    | zero =>
      have hrest : (present (first + 1) rest).filter (fun e => decide (e.1 ≠ first)) =
          present (first + 1) rest := by
        rw [List.filter_eq_self]
        rintro ⟨k, v⟩ hmem
        have := (mem_present.mp hmem).1
        simp only [ne_eq, decide_eq_true_eq]
        omega
      cases slot with
      | none => exact hrest.symm
      | some v => simpa [present] using hrest.symm
    | succ i =>
      have hrest := ih (first + 1) i
      rw [show first + 1 + i = first + (i + 1) by omega] at hrest
      cases slot with
      | none => exact hrest
      | some v => simpa [present] using hrest

/-! ### Removal -/

/-- The loop of `Cleanup`. -/
def popAbsent : Nat → List (Option α) → Nat × List (Option α)
  | first, none :: rest => popAbsent (first + 1) rest
  | first, slots => (first, slots)

/-- `Cleanup`. -/
def cleanup (first : Nat) (slots : List (Option α)) : Nat × List (Option α) :=
  let popped := popAbsent first slots
  (if popped.2.isEmpty then 0 else popped.1, popped.2)

/-- What `Cleanup` keeps: the present entries with their numbers, and the end. -/
structure Cleans (first : Nat) (slots : List (Option α)) (cleaned : Nat × List (Option α)) :
    Prop where
  present : present cleaned.1 cleaned.2 = present first slots
  counted : cleaned.2.countP Option.isSome = slots.countP Option.isSome
  front : ∀ rest, cleaned.2 ≠ none :: rest
  start : cleaned.2 = [] → cleaned.1 = 0
  last : cleaned.2 ≠ [] → cleaned.1 + cleaned.2.length = first + slots.length

theorem cleans_cleanup (first : Nat) (slots : List (Option α)) :
    Cleans first slots (cleanup first slots) := by
  induction slots generalizing first with
  | nil => exact ⟨rfl, rfl, by simp [cleanup, popAbsent], fun _ => rfl, fun h => absurd rfl h⟩
  | cons slot rest ih =>
    cases slot with
    | none =>
      have h := ih (first + 1)
      exact
        { present := h.present
          counted := h.counted.trans (by simp)
          front := h.front
          start := h.start
          last := fun hne => (h.last hne).trans (by rw [List.length_cons]; omega) }
    | some v =>
      exact ⟨rfl, rfl, by simp [cleanup, popAbsent], by simp [cleanup, popAbsent],
        fun _ => rfl⟩

/-- The slots, and the first number, after an entry is removed. -/
def vacate (packetNumber : Nat) : Nat × List (Option α) :=
  let slots := q.entries.set (packetNumber - q.firstPacket) none
  if packetNumber = q.firstPacket then cleanup q.firstPacket slots else (q.firstPacket, slots)

variable {q} {packetNumber : Nat}

theorem getEntry_eq_some {v : α} : q.getEntry packetNumber = some v ↔
    (packetNumber, v) ∈ present q.firstPacket q.entries := by
  rw [mem_present, getEntry]
  split
  · simp
    omega
  · rw [Option.join_eq_some_iff]
    simp
    omega

/-- Where the front is not removed it stays, and nothing needs to be cleaned up. -/
theorem cleans_vacate (h : (q.getEntry packetNumber).isSome) :
    Cleans q.firstPacket (q.entries.set (packetNumber - q.firstPacket) none)
      (q.vacate packetNumber) := by
  unfold vacate
  by_cases hfirst : packetNumber = q.firstPacket
  · rw [if_pos hfirst]
    exact cleans_cleanup _ _
  · obtain ⟨v, hv⟩ := Option.isSome_iff_exists.mp h
    have hle := (mem_present.mp (getEntry_eq_some.mp hv)).1
    rw [if_neg hfirst]
    refine ⟨rfl, rfl, ?_, ?_, fun _ => rfl⟩
    · obtain ⟨i, hi⟩ : ∃ i, packetNumber - q.firstPacket = i + 1 :=
        ⟨packetNumber - q.firstPacket - 1, by omega⟩
      intro rest heq
      rw [hi] at heq
      cases hentries : q.entries with
      | nil => simp [hentries] at heq
      | cons slot slots =>
        simp only [hentries, List.set_cons_succ, List.cons.injEq] at heq
        exact q.front slots (by rw [hentries, heq.1])
    · intro hnil
      exact q.start (by simpa using hnil)

theorem countP_vacate (h : (q.getEntry packetNumber).isSome) :
    q.numberOfPresentEntries - 1 = (q.vacate packetNumber).2.countP Option.isSome := by
  obtain ⟨v, hv⟩ := Option.isSome_iff_exists.mp h
  obtain ⟨hlt, hget⟩ := List.getElem?_eq_some_iff.mp (mem_present.mp (getEntry_eq_some.mp hv)).2
  rw [(cleans_vacate h).counted, q.counted, List.countP_set hlt, hget]
  simp

variable (q)

/-- `Remove`: whether it succeeded. -/
def remove (packetNumber : Nat) : Bool × PacketNumberIndexedQueue α :=
  if hentry : (q.getEntry packetNumber).isSome then
    (true,
      { entries := (q.vacate packetNumber).2
        numberOfPresentEntries := q.numberOfPresentEntries - 1
        firstPacket := (q.vacate packetNumber).1
        counted := countP_vacate hentry
        front := (cleans_vacate hentry).front
        start := (cleans_vacate hentry).start })
  else (false, q)

/-! ### What the operations do -/

/-- The present entries, in order of their packet numbers. -/
def contents : List (Nat × α) := present q.firstPacket q.entries

theorem mem_contents {v : α} :
    (packetNumber, v) ∈ q.contents ↔ q.getEntry packetNumber = some v := getEntry_eq_some.symm

theorem lastPacket_of_ne {q : PacketNumberIndexedQueue α} (h : q.entries ≠ []) :
    q.lastPacket = q.firstPacket + q.entries.length - 1 :=
  if_neg fun hempty => h (q.isEmpty_iff.mp hempty)

theorem le_lastPacket {q : PacketNumberIndexedQueue α} {v : α} (h : (packetNumber, v) ∈ q.contents) :
    q.entries ≠ [] ∧ packetNumber ≤ q.lastPacket := by
  obtain ⟨hle, hget⟩ := mem_present.mp h
  obtain ⟨hlt, -⟩ := List.getElem?_eq_some_iff.mp hget
  have hne : q.entries ≠ [] := List.ne_nil_of_length_pos (by omega)
  rw [lastPacket_of_ne hne]
  exact ⟨hne, by omega⟩

/-- A number beyond the last one ever inserted goes to the end. -/
theorem emplace_spec (value : α) (h : q.entries ≠ [] → q.lastPacket < packetNumber) :
    (q.emplace packetNumber value).1 = true ∧
      (q.emplace packetNumber value).2.contents = q.contents ++ [(packetNumber, value)] ∧
      (q.emplace packetNumber value).2.lastPacket = packetNumber := by
  unfold emplace
  by_cases hempty : q.isEmpty
  · rw [dif_pos hempty]
    have hnil := q.isEmpty_iff.mp hempty
    refine ⟨rfl, ?_, ?_⟩
    · simp [contents, hnil, present]
    · rw [lastPacket_of_ne (by simp)]
      simp [hnil]
  · have hne : q.entries ≠ [] := fun hnil => hempty (q.isEmpty_iff.mpr hnil)
    have hbeyond := h hne
    have hlast := lastPacket_of_ne hne
    have hlength := List.length_pos_iff.mpr hne
    rw [dif_neg hempty, if_neg (Nat.not_le.mpr hbeyond)]
    refine ⟨rfl, ?_, ?_⟩
    · -- The slots that are filled up end right before the new number.
      have hnumber : q.firstPacket + (q.entries.length +
          (packetNumber - q.firstPacket - q.entries.length)) = packetNumber := by omega
      simp only [contents, extend, present_append, present_replicate_none, List.append_nil,
        List.length_append, List.length_replicate, hnumber]
      rfl
    · rw [lastPacket_of_ne (by simp [extend])]
      simp only [extend, List.length_append, List.length_replicate, List.length_singleton]
      omega

theorem remove_of_none (h : q.getEntry packetNumber = none) : (q.remove packetNumber).2 = q := by
  rw [remove, dif_neg (by rw [h]; simp)]

theorem contents_remove (packetNumber : Nat) : (q.remove packetNumber).2.contents =
    q.contents.filter fun e => decide (e.1 ≠ packetNumber) := by
  unfold remove
  split
  · rename_i hentry
    obtain ⟨v, hv⟩ := Option.isSome_iff_exists.mp hentry
    have hle := (mem_present.mp (getEntry_eq_some.mp hv)).1
    refine (cleans_vacate hentry).present.trans ?_
    rw [present_set_none, Nat.add_sub_cancel' hle]
    rfl
  · rename_i hentry
    symm
    rw [List.filter_eq_self]
    rintro ⟨k, v⟩ hmem
    simp only [ne_eq, decide_eq_true_eq]
    rintro rfl
    exact hentry (by rw [(q.mem_contents).mp hmem]; rfl)

/-- A removal moves the end only where nothing is left. -/
theorem lastPacket_remove (packetNumber : Nat) (h : (q.remove packetNumber).2.entries ≠ []) :
    q.entries ≠ [] ∧ (q.remove packetNumber).2.lastPacket = q.lastPacket := by
  by_cases hentry : (q.getEntry packetNumber).isSome
  · have hcleans := cleans_vacate hentry
    have hremove : (q.remove packetNumber).2.entries = (q.vacate packetNumber).2 ∧
        (q.remove packetNumber).2.firstPacket = (q.vacate packetNumber).1 := by
      rw [remove, dif_pos hentry]
      exact ⟨rfl, rfl⟩
    have hne : q.entries ≠ [] := by
      rintro hnil
      simp [getEntry, hnil] at hentry
    have hend := hcleans.last (by rwa [hremove.1] at h)
    rw [List.length_set] at hend
    rw [lastPacket_of_ne h, lastPacket_of_ne hne, hremove.1, hremove.2, hend]
    exact ⟨hne, rfl⟩
  · have hremove : (q.remove packetNumber).2 = q := by rw [remove, dif_neg hentry]
    rw [hremove] at h ⊢
    exact ⟨h, rfl⟩

end PacketNumberIndexedQueue
end CongestionResponse.Quic
