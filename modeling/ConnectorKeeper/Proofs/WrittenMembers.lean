import ConnectorKeeper.Proofs.StoredDocuments

/-!
# Members that are read back

An object that we write has its members in a fixed order, some of them only if
there is something to write (`Json.optional`).  What a field of a structure reads
from such an object are the values written under its name (`Json.writtenAt`).
-/

namespace ConnectorKeeper.Json

variable {α : Type} {names : List String} {key name : String} {l : List (String × Json)}

/-! ## Values of a key -/

/-- The values written under a key. -/
def writtenAt (key : String) (l : List (String × Json)) : List Json :=
  l.filterMap fun m => if m.1 = key then some m.2 else none

/-- Members as those of an object. -/
def asMembers (l : List (String × Json)) : List (Option String × Json) :=
  l.map fun m => (some m.1, m.2)

theorem record_eq (l : List (String × Json)) : record l = .object (asMembers l) := rfl

/-- What a reader finds under a key is what was written under it. -/
theorem valuesAt_asMembers (key : String) (l : List (String × Json)) :
    valuesAt key (asMembers l) = writtenAt key l := by
  simp [valuesAt, writtenAt, asMembers, List.filterMap_map]

@[simp] theorem writtenAt_nil (key : String) : writtenAt key [] = [] := rfl

@[simp] theorem writtenAt_cons (key k : String) (v : Json) (l : List (String × Json)) :
    writtenAt key ((k, v) :: l) = if k = key then v :: writtenAt key l else writtenAt key l := by
  by_cases h : k = key
  · simp [writtenAt, h]
  · simp [writtenAt, h]

@[simp] theorem writtenAt_append (key : String) (l l' : List (String × Json)) :
    writtenAt key (l ++ l') = writtenAt key l ++ writtenAt key l' := List.filterMap_append

/-- An optional member is written once or not at all. -/
@[simp] theorem writtenAt_optional (key k : String) (v : Option Json) :
    writtenAt key (optional k v) = if k = key then v.toList else [] := by
  cases v with
  | none => simp [optional]
  | some v => simp [optional]

theorem text_ne_null (s : String) : text s ≠ .null := nofun

theorem int_ne_null (n : Int) : int n ≠ .null := nofun

theorem bool_ne_null (b : Bool) : bool b ≠ .null := nofun

theorem array_ne_null (vs : List Json) : array vs ≠ .null := nofun

theorem record_ne_null (l : List (String × Json)) : record l ≠ .null := nofun

/-! ## Keys -/

/-- An optional member has the key that it is written under. -/
theorem subset_optional (h : key ∈ names) (v : Option Json) :
    (optional key v).map (·.1) ⊆ names := by
  cases v with
  | none => exact List.nil_subset _
  | some v => simpa [optional] using h

/-- Members can be read if each is a field or was read to its end. -/
theorem Readable.of_forall (h : ∀ m ∈ l, m.1 ∈ names ∨ m.2.hasCut = false) :
    Readable names (asMembers l) := by
  intro m hm
  obtain ⟨m', hm', rfl⟩ := List.mem_map.1 hm
  exact ⟨m'.1, rfl, h m' hm'⟩

theorem Readable.of_subset (h : l.map (·.1) ⊆ names) : Readable names (asMembers l) :=
  .of_forall fun _ hm => .inl (h (List.mem_map_of_mem hm))

/-! ## Lenient fields -/

namespace Fields

variable {d : Decoder α}

/-- Where null may stand for nothing, any other value is read as without it. -/
theorem nullable_of_ne {room : Nat} {v : Json} (h : v ≠ .null) :
    Decoder.nullable d room v = some <$> d room v := by
  unfold Decoder.nullable
  split
  · exact absurd rfl h
  · rfl

/-- A field whose value is written, if there is one, is read as the value. -/
theorem latest?_asMembers {room : Nat} (enc : α → Json) (a : Option α)
    (hwritten : writtenAt name l = (a.map enc).toList)
    (hnull : ∀ x ∈ a, enc x ≠ .null) (hread : ∀ x ∈ a, d room (enc x) = .value x) :
    (Fields.mk names room (numbered 0 (asMembers l)) false).latest? name d = .value a := by
  have hvalues : (Fields.mk names room (numbered 0 (asMembers l)) false).values name =
      (a.map enc).toList := by
    rw [values_numbered, valuesAt_asMembers, hwritten]
  cases a with
  | none =>
    have hnamed : (Fields.mk names room (numbered 0 (asMembers l)) false).named name = [] :=
      List.map_eq_nil_iff.1 hvalues
    rw [latest?, hnamed]
    rfl
  | some x =>
    rw [latest?_eq_value_iff hvalues, nullable_of_ne (hnull x rfl), hread x rfl]
    rfl

/-- A field that is written is read from what is written. -/
theorem latest?_asMembers_iff {room : Nat} {a : Option α} {v : Json}
    (hwritten : writtenAt name l = [v]) (hnull : v ≠ .null) :
    (Fields.mk names room (numbered 0 (asMembers l)) false).latest? name d = .value a ↔
      ∃ x, d room v = .value x ∧ some x = a := by
  have hvalues : (Fields.mk names room (numbered 0 (asMembers l)) false).values name = [v] := by
    rw [values_numbered, valuesAt_asMembers, hwritten]
  rw [latest?_eq_value_iff hvalues, nullable_of_ne hnull, Decoded.map_eq_value_iff]

/-- A member that is written once is read as what is written. -/
theorem latest_asMembers_iff {room : Nat} {default x : α} {v : Json}
    (hwritten : writtenAt name l = [v]) (hnull : v ≠ .null) :
    (Fields.mk names room (numbered 0 (asMembers l)) false).latest name default d = .value x ↔
      d room v = .value x := by
  simp only [latest, Decoded.map_eq_value_iff, latest?_asMembers_iff hwritten hnull]
  constructor
  · rintro ⟨_, ⟨_, h, rfl⟩, rfl⟩
    exact h
  · intro h
    exact ⟨_, ⟨_, h, rfl⟩, rfl⟩

end Fields

/-! ## Items -/

/-- Related lists have a partner for each member. -/
theorem exists_mem_of_forall₂ {α β : Type} {R : α → β → Prop} {l : List α} {l' : List β}
    (h : List.Forall₂ R l l') {a : α} (ha : a ∈ l) : ∃ b ∈ l', R a b := by
  induction h with
  | nil => cases ha
  | cons hab _ ih =>
    cases ha with
    | head => exact ⟨_, List.mem_cons_self, hab⟩
    | tail _ ha =>
      obtain ⟨b, hb, hR⟩ := ih ha
      exact ⟨b, List.mem_cons_of_mem _ hb, hR⟩

/-- Items are read one by one, none left out. -/
theorem Decoder.decodeItems_eq_value_iff {d : Json → Decoded α} {index : Nat} {vs : List Json}
    {l : List α} :
    decodeItems d index vs = .value l ↔ List.Forall₂ (fun v a => d v = .value a) vs l := by
  induction vs generalizing index l with
  | nil => simp [decodeItems, eq_comm]
  | cons v vs ih =>
    simp only [decodeItems, Decoded.seq_eq_value_iff, Decoded.map_eq_value_iff,
      Decoded.under_eq_value_iff, ih, List.forall₂_cons_left_iff]
    constructor
    · rintro ⟨_, rest, ⟨a, ha, rfl⟩, hrest, rfl⟩
      exact ⟨a, rest, ha, hrest, rfl⟩
    · rintro ⟨a, rest, ha, hrest, rfl⟩
      exact ⟨_, rest, ⟨a, ha, rfl⟩, hrest, rfl⟩

/-- A list is read from an array, item by item. -/
theorem Decoder.list_array_eq_value_iff {d : Decoder α} {room : Nat} {vs : List Json}
    {l : List α} : Decoder.list d (room + 1) (.array vs) = .value l ↔
      List.Forall₂ (fun v a => d room v = .value a) vs l := decodeItems_eq_value_iff

end ConnectorKeeper.Json
