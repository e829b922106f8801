import Mathlib
import ConnectorKeeper.Decision
import ConnectorKeeper.Proofs.Percent

/-!
# Equal configurations

A map keeps its entries in ascending order of keys, so it is determined by what
its keys look up.  The comparison that decides about drift counts the keys and
looks those of one map up in the other.  It takes no look at the other keys, but
there are none: keys without repetition that are all found among equally many
are all of them.  So the comparison is equality (`sameConfig_iff`), in terms of
keys and bytes (`comparison_agrees`).
-/

namespace ConnectorKeeper

namespace StringMap

variable {α : Type} {key : String} {value : α}

theorem mem_of_lookup {l : List (String × α)} (h : lookup key l = some value) :
    (key, value) ∈ l := by
  induction l with
  | nil => cases h
  | cons e l ih =>
    obtain ⟨k, v⟩ := e
    rw [lookup] at h
    split at h
    · next heq =>
      cases heq
      cases h
      exact List.mem_cons_self
    · exact List.mem_cons_of_mem _ (ih h)

theorem lookup_of_mem {l : List (String × α)} (hsorted : l.Pairwise (·.1 < ·.1))
    (h : (key, value) ∈ l) : lookup key l = some value := by
  induction l with
  | nil => cases h
  | cons e l ih =>
    obtain ⟨k, v⟩ := e
    rw [List.pairwise_cons] at hsorted
    rw [lookup]
    cases List.mem_cons.1 h with
    | inl heq =>
      cases heq
      exact if_pos rfl
    | inr hmem =>
      have hne : k ≠ key := (hsorted.1 _ hmem).ne
      rw [if_neg hne]
      exact ih hsorted.2 hmem

theorem get?_eq_some_iff {m : StringMap α} : m.get? key = some value ↔ (key, value) ∈ m.entries :=
  ⟨mem_of_lookup, lookup_of_mem m.sorted⟩

theorem nodup_entries (m : StringMap α) : m.entries.Nodup :=
  m.sorted.imp fun hlt heq => (heq ▸ hlt).false

/-- Maps with the same entries, in whatever order, are equal. -/
theorem eq_of_perm {a b : StringMap α} (h : a.entries.Perm b.entries) : a = b := by
  have hentries : a.entries = b.entries :=
    h.eq_of_pairwise (fun _ _ _ _ hab hba => absurd hab hba.asymm) a.sorted b.sorted
  cases a
  cases b
  cases hentries
  rfl

/-- Maps in which every key has the same value are equal. -/
theorem ext_get? {a b : StringMap α} (h : ∀ key, a.get? key = b.get? key) : a = b := by
  refine eq_of_perm ((List.perm_ext_iff_of_nodup a.nodup_entries b.nodup_entries).2 ?_)
  rintro ⟨key, value⟩
  rw [← get?_eq_some_iff, ← get?_eq_some_iff, h]

theorem lookup_insertEntry (key k : String) (value : α) (l : List (String × α)) :
    lookup k (insertEntry key value l) = if k = key then some value else lookup k l := by
  induction l with
  | nil =>
    by_cases hk : k = key
    · simp [insertEntry, lookup, hk]
    · simp [insertEntry, lookup, hk, Ne.symm hk]
  | cons e l ih =>
    obtain ⟨k', v'⟩ := e
    simp only [insertEntry]
    split
    · simp [lookup, eq_comm]
    · split
      · next heq =>
        subst heq
        by_cases hk : k = key
        · simp [lookup, hk]
        · simp [lookup, hk, Ne.symm hk]
      · next hne =>
        simp only [lookup, ih]
        by_cases hk : k = key
        · simp [hk, Ne.symm hne]
        · simp [hk]

/-- The values after one entry was set. -/
theorem get?_insert (m : StringMap α) (key k : String) (value : α) :
    (m.insert key value).get? k = if k = key then some value else m.get? k :=
  lookup_insertEntry key k value m.entries

theorem lookup_filter_of_ne {key k : String} (h : k ≠ key) (l : List (String × α)) :
    lookup k (l.filter (·.1 ≠ key)) = lookup k l := by
  induction l with
  | nil => rfl
  | cons e l ih =>
    by_cases he : e.1 = key
    · rw [List.filter_cons_of_neg (by simp [he]), ih, lookup, if_neg (he ▸ h.symm)]
    · rw [List.filter_cons_of_pos (by simpa using he), lookup, lookup, ih]

theorem get?_erase_of_ne (m : StringMap α) {key k : String} (h : k ≠ key) :
    (m.erase key).get? k = m.get? k := lookup_filter_of_ne h m.entries

/-- Different entries may be set in either order. -/
theorem insert_comm (m : StringMap α) {key key' : String} (h : key ≠ key') (value value' : α) :
    (m.insert key value).insert key' value' = (m.insert key' value').insert key value := by
  refine ext_get? fun k => ?_
  simp only [get?_insert]
  by_cases hk : k = key
  · simp [hk, h]
  · simp [hk]

/-- Maps with the same keys and, under each of them, the same bytes. -/
structure Agree (a b : StringMap String) : Prop where
  /-- What is a key of one is a key of the other. -/
  keys : ∀ key, key ∈ a.keys ↔ key ∈ b.keys
  /-- A key has the same bytes in both. -/
  values : ∀ key, (a.get? key).map Text.utf8 = (b.get? key).map Text.utf8

theorem agree_iff {a b : StringMap String} : a.Agree b ↔ a = b := by
  constructor
  · intro h
    refine ext_get? fun key => ?_
    exact Option.map_injective (fun _ _ => Text.utf8_inj) (h.values key)
  · rintro rfl
    exact ⟨fun _ => Iff.rfl, fun _ => rfl⟩

end StringMap

/-- Configurations count as the same exactly if they are equal. -/
theorem sameConfig_iff {desired observed : Config} :
    sameConfig desired observed = true ↔ desired = observed := by
  constructor
  · intro h
    simp only [sameConfig, Bool.and_eq_true, beq_iff_eq, List.all_eq_true] at h
    obtain ⟨hsize, hall⟩ := h
    have hsubset : desired.entries ⊆ observed.entries := by
      intro e he
      exact StringMap.mem_of_lookup (hall e he)
    have hsubperm := List.subperm_of_subset desired.nodup_entries hsubset
    exact StringMap.eq_of_perm (hsubperm.perm_of_length_le hsize.ge)
  · rintro rfl
    simp only [sameConfig, Bool.and_eq_true, beq_iff_eq, List.all_eq_true, true_and]
    intro e he
    exact StringMap.get?_eq_some_iff.2 he

/-- What is chosen for a connector that is there depends on its configuration alone. -/
theorem Action.choose_present (desired config : Config) (runtime : Option RuntimeStatus) :
    choose desired ⟨true, some config, runtime⟩ =
      if desired = config then .noAction else .update := by
  simp only [choose, if_true, sameConfig_iff]

/-- A connector is left alone exactly if it is there with the configuration that is wanted. -/
theorem Action.choose_eq_noAction_iff {desired : Config} {seen : Observation} :
    choose desired seen = .noAction ↔ seen.found = true ∧ seen.config = some desired := by
  obtain ⟨found, config, runtime⟩ := seen
  cases found with
  | false => simp [choose]
  | true =>
    cases config with
    | none => simp [choose]
    | some active => simp [choose_present, eq_comm]

/-- Configurations count as the same exactly if they agree in their keys and in the bytes of each
value.  So it does not matter which of them comes first, and a connector is left alone exactly if
it is there with a configuration that agrees with the one that is wanted. -/
theorem comparison_agrees :
    (∀ a b : Config, sameConfig a b = true ↔ a.Agree b) ∧
    Equivalence (fun a b : Config => sameConfig a b = true) ∧
    (∀ a b : Config, sameConfig a b = sameConfig b a) ∧
    ∀ (desired : Config) (seen : Observation), Action.choose desired seen = .noAction ↔
      seen.found = true ∧ ∃ active, seen.config = some active ∧ desired.Agree active := by
  refine ⟨?_, ?_, ?_, ?_⟩
  · intro a b
    rw [sameConfig_iff, StringMap.agree_iff]
  · simp only [sameConfig_iff]
    exact eq_equivalence
  · intro a b
    rw [Bool.eq_iff_iff, sameConfig_iff, sameConfig_iff, eq_comm]
  · intro desired seen
    simp only [Action.choose_eq_noAction_iff, StringMap.agree_iff, exists_eq_right']

end ConnectorKeeper
