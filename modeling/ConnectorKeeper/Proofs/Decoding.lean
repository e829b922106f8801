import Mathlib
import ConnectorKeeper.Json.Decoder
import ConnectorKeeper.Json.MergePatch

/-!
# What decoded values depend on

A decoded structure depends on the values of its fields alone, not on where
they stand among the members of the object (`required_eq_value_iff`,
`optional_eq_value_iff`, `latest?_congr`).  A merge patch of one member leaves
the values of all others (`valuesAt_setKey_of_ne`), so it leaves what is read
from them.
-/

namespace ConnectorKeeper.Json

variable {α β : Type}

/-! ## Outcomes without a fault -/

namespace Decoded

/-- Both parts are read, or nothing is. -/
theorem seq_eq_value_iff {f : Decoded (α → β)} {a : Decoded α} {b : β} :
    f <*> a = .value b ↔ ∃ g x, f = .value g ∧ a = .value x ∧ g x = b := by
  constructor
  · intro h
    cases f with
    | fault e => cases a <;> cases h
    | value g =>
      cases a with
      | fault e => cases h
      | value x => exact ⟨g, x, rfl, rfl, value.inj h⟩
  · rintro ⟨g, x, rfl, rfl, rfl⟩
    rfl

theorem map_eq_value_iff {f : α → β} {a : Decoded α} {b : β} :
    f <$> a = .value b ↔ ∃ x, a = .value x ∧ f x = b := by
  constructor
  · intro h
    cases a with
    | value x => exact ⟨x, rfl, value.inj h⟩
    | fault e => cases h
  · rintro ⟨x, rfl, rfl⟩
    rfl

theorem seqRight_eq_value_iff {a : Decoded α} {b : Decoded β} {y : β} :
    a *> b = .value y ↔ (∃ x, a = .value x) ∧ b = .value y := by
  constructor
  · intro h
    cases a with
    | fault e => cases b <;> cases h
    | value x => exact ⟨⟨x, rfl⟩, (seqRight_value x b).symm.trans h⟩
  · rintro ⟨⟨x, rfl⟩, rfl⟩
    exact seqRight_value x _

theorem seqLeft_eq_value_iff {a : Decoded α} {b : Decoded β} {x : α} :
    a <* b = .value x ↔ a = .value x ∧ ∃ y, b = .value y := by
  constructor
  · intro h
    cases b with
    | fault e => cases a <;> cases h
    | value y =>
      cases a with
      | fault e => cases h
      | value _ => exact ⟨h, y, rfl⟩
  · rintro ⟨rfl, y, rfl⟩
    rfl

/-- Where a fault is found does not matter to what is read. -/
theorem under_eq_value_iff {i : Nat} {a : Decoded α} {x : α} :
    a.under i = .value x ↔ a = .value x := by
  cases a with
  | value _ => rfl
  | fault _ => exact ⟨nofun, nofun⟩

/-- An option holds what was read, and no fault. -/
theorem toOption_eq_some_iff {a : Decoded α} {x : α} : a.toOption = some x ↔ a = .value x := by
  cases a with
  | value _ => exact ⟨fun h => congrArg _ (Option.some.inj h), fun h => congrArg _ (value.inj h)⟩
  | fault _ => exact ⟨nofun, nofun⟩

end Decoded

open Decoded

/-! ## The values of a key -/

/-- The values of a key among members, in their order. -/
def valuesAt (key : String) (ms : List (Option String × Json)) : List Json :=
  ms.filterMap fun m => if m.1 = some key then some m.2 else none

variable {key key' : String} {v : Json} {ms : List (Option String × Json)}

theorem valuesAt_cons_self (key : String) (v : Json) (ms : List (Option String × Json)) :
    valuesAt key ((some key, v) :: ms) = v :: valuesAt key ms := by
  simp [valuesAt]

theorem valuesAt_cons_of_ne {k : Option String} (h : k ≠ some key) (v : Json)
    (ms : List (Option String × Json)) : valuesAt key ((k, v) :: ms) = valuesAt key ms := by
  simp [valuesAt, h]

/-- A key that is erased has no values left. -/
theorem valuesAt_eraseKey_self (key : String) (ms : List (Option String × Json)) :
    valuesAt key (eraseKey (some key) ms) = [] := by
  simp [valuesAt, eraseKey, List.filterMap_eq_nil_iff]

theorem valuesAt_eraseKey_of_ne (h : key' ≠ key) (ms : List (Option String × Json)) :
    valuesAt key (eraseKey (some key') ms) = valuesAt key ms := by
  induction ms with
  | nil => rfl
  | cons m ms ih =>
    obtain ⟨k, w⟩ := m
    by_cases hk : k = some key'
    · rw [eraseKey, List.filter_cons_of_neg (by simp [hk]), ← eraseKey, ih, hk,
        valuesAt_cons_of_ne (by simpa using h)]
    · rw [eraseKey, List.filter_cons_of_pos (by simpa using hk), ← eraseKey]
      by_cases hk' : k = some key
      · rw [hk', valuesAt_cons_self, valuesAt_cons_self, ih]
      · rw [valuesAt_cons_of_ne hk', valuesAt_cons_of_ne hk', ih]

/-- A key that is set has the one value. -/
theorem valuesAt_setKey_self (key : String) (v : Json) (ms : List (Option String × Json)) :
    valuesAt key (setKey (some key) v ms) = [v] := by
  induction ms with
  | nil => exact valuesAt_cons_self key v []
  | cons m ms ih =>
    obtain ⟨k, w⟩ := m
    rw [setKey]
    split
    · next heq => rw [heq, valuesAt_cons_self, valuesAt_eraseKey_self]
    · next hne => rw [valuesAt_cons_of_ne hne, ih]

theorem valuesAt_setKey_of_ne (h : key' ≠ key) (v : Json) (ms : List (Option String × Json)) :
    valuesAt key (setKey (some key') v ms) = valuesAt key ms := by
  have hne : some key' ≠ some key := fun heq => h (Option.some.inj heq)
  induction ms with
  | nil => exact valuesAt_cons_of_ne hne v []
  | cons m ms ih =>
    obtain ⟨k, w⟩ := m
    rw [setKey]
    split
    · next heq =>
      rw [heq, valuesAt_cons_of_ne hne, valuesAt_cons_of_ne hne, valuesAt_eraseKey_of_ne h]
    · by_cases hk : k = some key
      · rw [hk, valuesAt_cons_self, valuesAt_cons_self, ih]
      · rw [valuesAt_cons_of_ne hk, valuesAt_cons_of_ne hk, ih]

/-- The value that a patch of a key is merged into. -/
theorem valueAt_of_valuesAt (h : valuesAt key ms = [v]) : valueAt (some key) ms = v := by
  induction ms with
  | nil => cases h
  | cons m ms ih =>
    obtain ⟨k, w⟩ := m
    by_cases hk : k = some key
    · rw [hk, valuesAt_cons_self] at h
      simp [valueAt, hk, (List.cons.inj h).1]
    · rw [valuesAt_cons_of_ne hk] at h
      rw [← ih h]
      simp [valueAt, hk]

/-! ## Fields -/

namespace Fields

/-- The values of one field. -/
def values (f : Fields) (name : String) : List Json := (f.named name).map (·.2)

/-- A field of an object has the values of its key, whatever their order is. -/
theorem values_numbered (names : List String) (room : Nat) (positional : Bool) (name : String)
    (index : Nat) (ms : List (Option String × Json)) :
    (Fields.mk names room (numbered index ms) positional).values name = valuesAt name ms := by
  induction ms generalizing index with
  | nil => rfl
  | cons m ms ih =>
    obtain ⟨k, w⟩ := m
    have hrest := ih (index + 1)
    simp only [values, named, numbered, valuesAt, List.filterMap_cons] at hrest ⊢
    by_cases hk : k = some name
    · simp only [hk, if_true, List.map_cons, hrest]
    · simp only [hk, if_false, hrest]

/-- A field is read from its only value. -/
theorem field_eq_value_iff {f : Fields} {name : String} {d : Decoder α} {missing : Decoded α}
    {a : α} : f.field name d missing = .value a ↔
      (f.values name = [] ∧ missing = .value a) ∨
        ∃ v, f.values name = [v] ∧ d f.room v = .value a := by
  rw [field, values]
  rcases f.named name with _ | ⟨⟨i, v⟩, _ | ⟨⟨j, w⟩, rest⟩⟩
  · simp
  · simp [under_eq_value_iff]
  · simp [seqLeft_eq_value_iff, failAt]

/-- A required field is read if it is there once and fits. -/
theorem required_eq_value_iff {f : Fields} {name : String} {d : Decoder α} {a : α} :
    f.required name d = .value a ↔ ∃ v, f.values name = [v] ∧ d f.room v = .value a := by
  rw [required, field_eq_value_iff]
  simp [failAt]

/-- An optional field is read if it is absent, or there once and fits. -/
theorem optional_eq_value_iff {f : Fields} (hf : f.positional = false) {name : String}
    {d : Decoder α} {a : Option α} :
    f.optional name d = .value a ↔ (f.values name = [] ∧ a = none) ∨
      ∃ v, f.values name = [v] ∧ Decoder.nullable d f.room v = .value a := by
  rw [optional, field_eq_value_iff, hf]
  simp only [Bool.false_eq_true, if_false, value.injEq, @eq_comm _ none a]

/-- A lenient field that is read from the same values reads the same. -/
theorem lastOf_congr {d : Decoder α} {room : Nat} {previous a b : Option α}
    {ps ps' : List (Nat × Json)} (hvalues : ps.map (·.2) = ps'.map (·.2))
    (ha : lastOf d room previous ps = .value a) (hb : lastOf d room previous ps' = .value b) :
    a = b := by
  induction ps generalizing ps' a b with
  | nil =>
    obtain rfl : ps' = [] := by simpa using hvalues.symm
    exact value.inj (ha.symm.trans hb)
  | cons p ps ih =>
    obtain ⟨p', ps', rfl, hp, hrest⟩ := List.map_eq_cons_iff.1 hvalues.symm
    cases ps with
    | nil =>
      obtain rfl : ps' = [] := by simpa using hrest
      rw [lastOf, under_eq_value_iff] at ha hb
      rw [hp] at hb
      exact value.inj (ha.symm.trans hb)
    | cons p₂ ps =>
      obtain ⟨p₂', ps', rfl, -, -⟩ := List.map_eq_cons_iff.1 hrest
      rw [lastOf, seqRight_eq_value_iff] at ha hb
      · exact ih hrest.symm ha.2 hb.2
      · simp
      · simp

/-- A lenient field is read from the last of its values. -/
theorem last_of_lastOf {d : Decoder α} {room : Nat} {previous a : Option α}
    {ps : List (Nat × Json)} (h : lastOf d room previous ps = .value a) :
    (ps = [] ∧ a = previous) ∨
      ∃ v, (ps.map (·.2)).getLast? = some v ∧ Decoder.nullable d room v = .value a := by
  induction ps with
  | nil => exact .inl ⟨rfl, (value.inj h).symm⟩
  | cons p ps ih =>
    cases ps with
    | nil => exact .inr ⟨p.2, rfl, under_eq_value_iff.1 h⟩
    | cons p' ps =>
      rw [lastOf, seqRight_eq_value_iff] at h
      · obtain ⟨hnil, -⟩ | ⟨v, hv, hread⟩ := ih h.2
        · cases hnil
        · refine .inr ⟨v, ?_, hread⟩
          rw [List.map_cons, List.map_cons, List.getLast?_cons_cons]
          exact hv
      · exact List.cons_ne_nil _ _

/-- What is read of a field depends on its values alone. -/
theorem latest?_congr {f g : Fields} {name : String} {d : Decoder α} {a b : Option α}
    (hroom : f.room = g.room) (hvalues : f.values name = g.values name)
    (ha : f.latest? name d = .value a) (hb : g.latest? name d = .value b) : a = b := by
  rw [latest?, hroom] at ha
  exact lastOf_congr hvalues ha hb

/-- A field with one value is read as that value. -/
theorem latest?_eq_value_iff {f : Fields} {name : String} {v : Json} (h : f.values name = [v])
    {d : Decoder α} {a : Option α} :
    f.latest? name d = .value a ↔ Decoder.nullable d f.room v = .value a := by
  obtain ⟨⟨i, v'⟩, hnamed, rfl⟩ := List.map_eq_singleton_iff.1 h
  rw [latest?, hnamed, lastOf, under_eq_value_iff]

end Fields

end ConnectorKeeper.Json
