/-!
# String maps

A finite map from texts to values, kept as its entries in ascending key order.
The order is part of the type, so two maps with the same entries are equal as
values, and printing a map needs no sorting.
-/

namespace ConnectorKeeper

/-- A map from texts, as its entries in ascending order of keys. -/
structure StringMap (α : Type) where
  /-- The entries. -/
  entries : List (String × α)
  /-- Every key lies below those after it. -/
  sorted : entries.Pairwise (·.1 < ·.1)

namespace StringMap

variable {α β : Type}

instance [DecidableEq α] : DecidableEq (StringMap α) := fun a b =>
  if h : a.entries = b.entries then
    .isTrue (by cases a; cases b; simp_all)
  else .isFalse (by intro e; exact h (e ▸ rfl))

/-- The map without entries. -/
def empty : StringMap α := ⟨[], .nil⟩

instance : Inhabited (StringMap α) := ⟨empty⟩

/-- The value of a key in a list of entries, the first one. -/
def lookup (key : String) : List (String × α) → Option α
  | [] => none
  | (k, v) :: rest => if k = key then some v else lookup key rest

/-- The value of a key. -/
def get? (m : StringMap α) (key : String) : Option α := lookup key m.entries

/-- Whether a key has a value. -/
def contains (m : StringMap α) (key : String) : Bool := (m.get? key).isSome

/-- The number of entries. -/
def size (m : StringMap α) : Nat := m.entries.length

/-- The keys, ascending. -/
def keys (m : StringMap α) : List String := m.entries.map (·.1)

/-- Entries with one of them set, in order if they were in order. -/
def insertEntry (key : String) (value : α) : List (String × α) → List (String × α)
  | [] => [(key, value)]
  | (k, v) :: rest =>
      if key < k then (key, value) :: (k, v) :: rest
      else if key = k then (key, value) :: rest
      else (k, v) :: insertEntry key value rest

theorem mem_insertEntry {key : String} {value : α} {e : String × α} {l : List (String × α)}
    (h : e ∈ insertEntry key value l) : e = (key, value) ∨ e ∈ l := by
  induction l with
  | nil => exact .inl (List.mem_singleton.1 h)
  | cons a l ih =>
    obtain ⟨k, v⟩ := a
    simp only [insertEntry] at h
    split at h
    · simpa using h
    · split at h
      · rcases List.mem_cons.1 h with h | h
        · exact .inl h
        · exact .inr (List.mem_cons_of_mem _ h)
      · rcases List.mem_cons.1 h with h | h
        · exact .inr (h ▸ List.mem_cons_self ..)
        · exact (ih h).imp_right (List.mem_cons_of_mem _)

/-- Of two different texts one is the lesser. -/
theorem lt_of_not_lt_of_ne {a b : String} (h : ¬ a < b) (hne : a ≠ b) : b < a := by
  by_cases hba : b < a
  · exact hba
  · exact absurd (String.le_antisymm (String.not_lt.1 hba) (String.not_lt.1 h)) hne

theorem sorted_insertEntry (key : String) (value : α) {l : List (String × α)}
    (h : l.Pairwise (·.1 < ·.1)) : (insertEntry key value l).Pairwise (·.1 < ·.1) := by
  induction l with
  | nil => simp [insertEntry]
  | cons a l ih =>
    obtain ⟨k, v⟩ := a
    rw [List.pairwise_cons] at h
    simp only [insertEntry]
    split
    · next hlt =>
      refine List.pairwise_cons.2 ⟨?_, List.pairwise_cons.2 h⟩
      intro e he
      rcases List.mem_cons.1 he with rfl | he
      · exact hlt
      · exact String.lt_trans hlt (h.1 e he)
    · next hnlt =>
      split
      · next heq =>
        subst heq
        exact List.pairwise_cons.2 ⟨h.1, h.2⟩
      · next hne =>
        refine List.pairwise_cons.2 ⟨?_, ih h.2⟩
        intro e he
        rcases mem_insertEntry he with rfl | he
        · exact lt_of_not_lt_of_ne hnlt hne
        · exact h.1 e he

/-- The map with one entry set. -/
def insert (m : StringMap α) (key : String) (value : α) : StringMap α :=
  ⟨insertEntry key value m.entries, sorted_insertEntry key value m.sorted⟩

/-- The map without one key. -/
def erase (m : StringMap α) (key : String) : StringMap α :=
  ⟨m.entries.filter (·.1 ≠ key), m.sorted.filter _⟩

theorem lookup_filter_self (key : String) (l : List (String × α)) :
    lookup key (l.filter (·.1 ≠ key)) = none := by
  induction l with
  | nil => rfl
  | cons e l ih =>
    by_cases h : e.1 = key
    · rw [List.filter_cons_of_neg (by simp [h]), ih]
    · rw [List.filter_cons_of_pos (by simpa using h), lookup, if_neg h, ih]

@[simp] theorem get?_erase_self (m : StringMap α) (key : String) : (m.erase key).get? key = none :=
  lookup_filter_self key m.entries

/-- The map of a list of entries, a later one winning over an earlier one of the same key. -/
def ofList (l : List (String × α)) : StringMap α :=
  l.foldl (fun m e => m.insert e.1 e.2) empty

/-- The entries, ascending. -/
def toList (m : StringMap α) : List (String × α) := m.entries

end StringMap

end ConnectorKeeper
