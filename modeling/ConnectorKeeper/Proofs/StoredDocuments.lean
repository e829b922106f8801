import ConnectorKeeper.Proofs.RecordPatch

/-!
# Documents that read as records

A document of the API server may hold members that no record has, in any order.
What is shown here is that our patches never make it unreadable: after a patch of
the finalizers it reads as the record with these finalizers, and after a patch of
the status as the record with this status.

A structure is read from the values of its fields, as long as its other members
can be read at all (`Json.Readable`).  A patch keeps those members, sets the field
to a value that is read back, and leaves the values of the other fields.
-/

namespace ConnectorKeeper

open Json (Decoded Decoder Fields valuesAt valueAt setKey eraseKey decode?)

/-! ## Members that are no fields -/

namespace Json

/-- Every member has a key, and can be read or is a field. -/
def Readable (names : List String) (ms : List (Option String × Json)) : Prop :=
  ∀ m ∈ ms, ∃ key, m.1 = some key ∧ (key ∈ names ∨ m.2.hasCut = false)

variable {names : List String} {ms : List (Option String × Json)} {key : String} {v : Json}

theorem map_numbered (index : Nat) (ms : List (Option String × Json)) :
    (numbered index ms).map (·.2) = ms := by
  induction ms generalizing index with
  | nil => rfl
  | cons m ms ih => rw [numbered, List.map_cons, ih]

theorem Fields.stray_eq_value_iff {room : Nat} {positional : Bool} {u : Unit} :
    (Fields.mk names room (numbered 0 ms) positional).stray = .value u ↔ Readable names ms := by
  have hmem : ∀ m, m ∈ ms ↔ ∃ p ∈ numbered 0 ms, p.2 = m := by
    intro m
    rw [← List.mem_map, map_numbered]
  simp only [Fields.stray, Readable]
  split
  · next p hfind =>
    refine ⟨nofun, ?_⟩
    intro hreadable
    have hbad := List.find?_some hfind
    obtain ⟨key, hkey, hok⟩ := hreadable p.2 ((hmem _).2 ⟨p, List.mem_of_find?_eq_some hfind, rfl⟩)
    rw [hkey] at hbad
    rcases hok with hok | hok
    · simp [hok] at hbad
    · simp [hok] at hbad
  · next hfind =>
    refine ⟨?_, fun _ => rfl⟩
    rintro - m hm
    obtain ⟨p, hp, rfl⟩ := (hmem m).1 hm
    have hgood := List.find?_eq_none.1 hfind p hp
    cases hkey : p.2.1 with
    | none => simp [hkey] at hgood
    | some key =>
      refine ⟨key, rfl, ?_⟩
      by_cases hname : key ∈ names
      · exact .inl hname
      · right
        simpa [hkey, hname] using hgood

/-- A patch of a key without values is merged into nothing. -/
theorem valueAt_of_valuesAt_nil (h : valuesAt key ms = []) : valueAt (some key) ms = .null := by
  induction ms with
  | nil => rfl
  | cons m ms ih =>
    obtain ⟨k, w⟩ := m
    by_cases hk : k = some key
    · rw [hk, valuesAt_cons_self] at h
      cases h
    · rw [valuesAt_cons_of_ne hk] at h
      rw [← ih h]
      simp [valueAt, hk]

theorem mem_setKey {k : Option String} {m : Option String × Json} (h : m ∈ setKey k v ms) :
    m = (k, v) ∨ m ∈ ms := by
  induction ms with
  | nil => exact .inl (List.mem_singleton.1 h)
  | cons m' ms ih =>
    obtain ⟨k', w⟩ := m'
    rw [setKey] at h
    split at h
    · next heq =>
      cases List.mem_cons.1 h with
      | inl h => exact .inl (heq ▸ h)
      | inr h => exact .inr (List.mem_cons_of_mem _ (List.mem_filter.1 h).1)
    · cases List.mem_cons.1 h with
      | inl h => exact .inr (h ▸ List.mem_cons_self)
      | inr h => exact (ih h).imp_right (List.mem_cons_of_mem _)

theorem Readable.setKey (h : Readable names ms) (hkey : key ∈ names) (v : Json) :
    Readable names (setKey (some key) v ms) := by
  intro m hm
  cases mem_setKey hm with
  | inl heq => exact ⟨key, by rw [heq], .inl hkey⟩
  | inr hm => exact h m hm

theorem Decoder.strict_object_eq_value_iff {α : Type} {build : Fields → Decoded α} {room : Nat}
    {a : α} : Decoder.strict names build (room + 1) (.object ms) = .value a ↔
      Readable names ms ∧ build ⟨names, room, numbered 0 ms, false⟩ = .value a := by
  refine Decoded.seqRight_eq_value_iff.trans (and_congr_left fun _ => ?_)
  simp only [Fields.stray_eq_value_iff, exists_const]

theorem Decoder.lenient_object_eq_value_iff {α : Type} {build : Fields → Decoded α} {room : Nat}
    {a : α} : Decoder.lenient names build (room + 1) (.object ms) = .value a ↔
      Readable names ms ∧ build ⟨names, room, numbered 0 ms, false⟩ = .value a := by
  refine Decoded.seqRight_eq_value_iff.trans (and_congr_left fun _ => ?_)
  simp only [Fields.stray_eq_value_iff, exists_const]

/-! ## Fields with the same values -/

namespace Fields

variable {α : Type} {d : Decoder α} {name : String} {a : Option α}

theorem lastOf_of_values {room : Nat} {previous : Option α} {ps ps' : List (Nat × Json)}
    (hvalues : ps.map (·.2) = ps'.map (·.2)) (h : lastOf d room previous ps = .value a) :
    lastOf d room previous ps' = .value a := by
  induction ps generalizing ps' with
  | nil =>
    obtain rfl : ps' = [] := by simpa using hvalues.symm
    exact h
  | cons p ps ih =>
    obtain ⟨p', ps', rfl, hp, hrest⟩ := List.map_eq_cons_iff.1 hvalues.symm
    cases ps with
    | nil =>
      obtain rfl : ps' = [] := by simpa using hrest
      rw [lastOf, Decoded.under_eq_value_iff] at h ⊢
      rw [hp, h]
    | cons p₂ ps =>
      obtain ⟨p₂', ps', rfl, hp₂, hrest⟩ := List.map_eq_cons_iff.1 hrest
      rw [lastOf, Decoded.seqRight_eq_value_iff] at h ⊢
      · obtain ⟨⟨b, hb⟩, h⟩ := h
        rw [Decoded.under_eq_value_iff] at hb
        refine ⟨⟨b, ?_⟩, ih ?_ h⟩
        · rw [Decoded.under_eq_value_iff, hp, hb]
        · rw [List.map_cons, List.map_cons, hp₂, hrest]
      · exact List.cons_ne_nil _ _
      · exact List.cons_ne_nil _ _

theorem latest?_setKey_of_ne {room : Nat} (h : key ≠ name)
    (ha : (Fields.mk names room (numbered 0 ms) false).latest? name d = .value a) :
    (Fields.mk names room (numbered 0 (Json.setKey (some key) v ms)) false).latest? name d =
      .value a := by
  refine lastOf_of_values ?_ ha
  show values _ name = values _ name
  rw [values_numbered, values_numbered, valuesAt_setKey_of_ne h]

theorem latest?_setKey_self {room : Nat} :
    (Fields.mk names room (numbered 0 (Json.setKey (some key) v ms)) false).latest? key d =
      .value a ↔ Decoder.nullable d room v = .value a := by
  refine latest?_eq_value_iff ?_
  rw [values_numbered, valuesAt_setKey_self]

end Fields

end Json

/-! ## Metadata -/

namespace Metadata

/-- The fields of metadata. -/
def fieldNames : List String :=
  ["annotations", "creationTimestamp", "deletionGracePeriodSeconds", "deletionTimestamp",
    "finalizers", "generateName", "generation", "labels", "managedFields", "name", "namespace",
    "ownerReferences", "resourceVersion", "selfLink", "uid"]

/-- The fields of metadata read as they are in `m`. -/
structure Reads (f : Fields) (m : Metadata) : Prop where
  annotations : f.latest? "annotations" textMap = .value m.annotations
  creationTimestamp : f.latest? "creationTimestamp" moment = .value m.creationTimestamp
  deletionGracePeriodSeconds :
    f.latest? "deletionGracePeriodSeconds" Decoder.int64 = .value m.deletionGracePeriodSeconds
  deletionTimestamp : f.latest? "deletionTimestamp" moment = .value m.deletionTimestamp
  finalizers : f.latest? "finalizers" (Decoder.list Decoder.string) = .value m.finalizers
  generateName : f.latest? "generateName" Decoder.string = .value m.generateName
  generation : f.latest? "generation" Decoder.int64 = .value m.generation
  labels : f.latest? "labels" textMap = .value m.labels
  managedFields :
    f.latest? "managedFields" (Decoder.list ManagedFields.decoder) = .value m.managedFields
  name : f.latest? "name" Decoder.string = .value m.name
  namespaceName : f.latest? "namespace" Decoder.string = .value m.namespaceName
  ownerReferences :
    f.latest? "ownerReferences" (Decoder.list OwnerReference.decoder) = .value m.ownerReferences
  resourceVersion : f.latest? "resourceVersion" Decoder.string = .value m.resourceVersion
  selfLink : f.latest? "selfLink" Decoder.string = .value m.selfLink
  uid : f.latest? "uid" Decoder.string = .value m.uid

theorem decoder_object_eq_value_iff {room : Nat} {ms : List (Option String × Json)}
    {m : Metadata} : decoder (room + 1) (.object ms) = .value m ↔
      Json.Readable fieldNames ms ∧
        Reads ⟨fieldNames, room, Json.numbered 0 ms, false⟩ m := by
  unfold decoder
  rw [Decoder.lenient_object_eq_value_iff]
  refine and_congr_right fun _ => ?_
  simp only [Decoded.seq_eq_value_iff, Decoded.map_eq_value_iff]
  constructor
  · rintro
      ⟨_, _, ⟨_, _, ⟨_, _, ⟨_, _, ⟨_, _, ⟨_, _, ⟨_, _, ⟨_, _, ⟨_, _, ⟨_, _, ⟨_, _, ⟨_, _, ⟨_, _,
        ⟨_, _, ⟨_, h₁, rfl⟩, h₂, rfl⟩, h₃, rfl⟩, h₄, rfl⟩, h₅, rfl⟩, h₆, rfl⟩, h₇, rfl⟩, h₈, rfl⟩,
        h₉, rfl⟩, h₁₀, rfl⟩, h₁₁, rfl⟩, h₁₂, rfl⟩, h₁₃, rfl⟩, h₁₄, rfl⟩, h₁₅, rfl⟩
    exact ⟨h₁, h₂, h₃, h₄, h₅, h₆, h₇, h₈, h₉, h₁₀, h₁₁, h₁₂, h₁₃, h₁₄, h₁₅⟩
  · rintro ⟨h₁, h₂, h₃, h₄, h₅, h₆, h₇, h₈, h₉, h₁₀, h₁₁, h₁₂, h₁₃, h₁₄, h₁₅⟩
    exact
      ⟨_, _, ⟨_, _, ⟨_, _, ⟨_, _, ⟨_, _, ⟨_, _, ⟨_, _, ⟨_, _, ⟨_, _, ⟨_, _, ⟨_, _, ⟨_, _, ⟨_, _,
        ⟨_, _, ⟨_, h₁, rfl⟩, h₂, rfl⟩, h₃, rfl⟩, h₄, rfl⟩, h₅, rfl⟩, h₆, rfl⟩, h₇, rfl⟩, h₈, rfl⟩,
        h₉, rfl⟩, h₁₀, rfl⟩, h₁₁, rfl⟩, h₁₂, rfl⟩, h₁₃, rfl⟩, h₁₄, rfl⟩, h₁₅, rfl⟩

variable {room : Nat} {ms : List (Option String × Json)} {m : Metadata}

/-- Metadata with the finalizers set. -/
theorem decoder_setKey_finalizers (h : decoder (room + 2) (.object ms) = .value m)
    (l : List String) :
    decoder (room + 2) (.object (setKey (some "finalizers") (textListJson l) ms)) =
      .value { m with finalizers := some l } := by
  obtain ⟨hreadable, hreads⟩ := decoder_object_eq_value_iff.1 h
  refine decoder_object_eq_value_iff.2 ⟨hreadable.setKey (by decide) _, ?_⟩
  cases hreads
  constructor
  case finalizers =>
    refine Fields.latest?_setKey_self.2 (Decoded.map_eq_value_iff.2 ⟨l, ?_, rfl⟩)
    exact Json.Decoder.decodeItems_text room 0 l
  all_goals exact Fields.latest?_setKey_of_ne (by decide) (by assumption)

/-- Metadata with the version set. -/
theorem decoder_setKey_resourceVersion (h : decoder (room + 1) (.object ms) = .value m)
    (version : String) :
    decoder (room + 1) (.object (setKey (some "resourceVersion") (.text version) ms)) =
      .value { m with resourceVersion := some version } := by
  obtain ⟨hreadable, hreads⟩ := decoder_object_eq_value_iff.1 h
  refine decoder_object_eq_value_iff.2 ⟨hreadable.setKey (by decide) _, ?_⟩
  cases hreads
  constructor
  case resourceVersion => exact Fields.latest?_setKey_self.2 rfl
  all_goals exact Fields.latest?_setKey_of_ne (by decide) (by assumption)

/-- Metadata after the changes of a patch of the finalizers. -/
theorem decoder_mergeMembers (h : decoder (room + 2) (.object ms) = .value m) (l : List String)
    (version : Option String) :
    decoder (room + 2) (.object (Json.mergeMembers ms
      (([("finalizers", textListJson l)] ++ Json.optional "resourceVersion"
        (version.map .text)).map fun m => (some m.1, m.2)))) =
      .value { m with finalizers := some l, resourceVersion := version.or m.resourceVersion } := by
  have hfinalizers := decoder_setKey_finalizers h l
  cases version with
  | none => exact hfinalizers
  | some version => exact decoder_setKey_resourceVersion hfinalizers version

end Metadata

/-! ## Statuses -/

theorem Phase.decoder_text (room : Nat) (p : Phase) :
    Phase.decoder room (.text p.text) = .value p := by
  cases p <;> rfl

theorem Condition.decoder_toJson (room : Nat) (c : Condition) :
    Condition.decoder (room + 1) c.toJson = .value c := by
  rfl

theorem Status.decodeItems_conditions (room index : Nat) (l : List Condition) :
    Decoder.decodeItems (Condition.decoder (room + 1)) index (l.map Condition.toJson) =
      .value l := by
  induction l generalizing index with
  | nil => rfl
  | cons c l ih => rw [List.map_cons, Decoder.decodeItems, Condition.decoder_toJson, ih]; rfl

/-- The fields of a status. -/
def Status.fieldNames : List String := ["phase", "conditions"]

/-- A value that a status may be written over: its other members can be read. -/
theorem Status.readable_members {room : Nat} {v : Json} {st : Option Status}
    (h : Decoder.nullable Status.decoder (room + 1) v = .value st) :
    Json.Readable fieldNames v.members := by
  cases v with
  | object ms =>
    obtain ⟨st, hst, -⟩ := Decoded.map_eq_value_iff.1 h
    exact (Decoder.strict_object_eq_value_iff.1 hst).1
  | null | bool | number | string | array | cut => exact List.forall_mem_nil _

/-- A status after the changes of a patch reads as the status of the patch. -/
theorem Status.decoder_merge {room : Nat} {v : Json} (h : Json.Readable fieldNames v.members)
    (st : Status) : Status.decoder (room + 3) (v.merge st.toJson) = .value st := by
  have hmerged : v.merge st.toJson = .object
      (setKey (some "conditions") (.array (st.conditions.map Condition.toJson))
        (setKey (some "phase") (.text st.phase.text) v.members)) := by
    simp [toJson, Json.record, Json.text, Json.merge, Json.mergeMembers]
  rw [hmerged]
  refine Decoder.strict_object_eq_value_iff.2
    ⟨(h.setKey (by decide) _).setKey (by decide) _, ?_⟩
  simp only [Decoded.seq_eq_value_iff, Decoded.map_eq_value_iff]
  refine ⟨_, st.conditions, ⟨st.phase, ?_, rfl⟩, ?_, rfl⟩
  · refine Fields.field_eq_value_iff.2 (.inr ⟨.text st.phase.text, ?_, Phase.decoder_text _ _⟩)
    rw [Fields.values_numbered, Json.valuesAt_setKey_of_ne (by decide), Json.valuesAt_setKey_self]
  · refine Fields.field_eq_value_iff.2
      (.inr ⟨.array (st.conditions.map Condition.toJson), ?_, decodeItems_conditions room 0 _⟩)
    rw [Fields.values_numbered, Json.valuesAt_setKey_self]

/-! ## Records -/

namespace Record

/-- The fields of a record. -/
def fieldNames : List String := ["metadata", "spec", "status"]

theorem decoder_object_eq_value_iff {room : Nat} {ms : List (Option String × Json)} {r : Record} :
    decoder (room + 1) (.object ms) = .value r ↔ Json.Readable fieldNames ms ∧
      (∃ v, valuesAt "metadata" ms = [v] ∧ Metadata.decoder room v = .value r.metadata) ∧
      (∃ v, valuesAt "spec" ms = [v] ∧ Spec.decoder room v = .value r.spec) ∧
      ((valuesAt "status" ms = [] ∧ r.status = none) ∨ ∃ v, valuesAt "status" ms = [v] ∧
        Decoder.nullable Status.decoder room v = .value r.status) := by
  unfold decoder
  rw [Decoder.strict_object_eq_value_iff]
  refine and_congr_right fun _ => ?_
  simp only [Decoded.seq_eq_value_iff, Decoded.map_eq_value_iff, Fields.required_eq_value_iff,
    Fields.optional_eq_value_iff, Fields.values_numbered]
  constructor
  · rintro ⟨_, status, ⟨_, spec, ⟨metadata, hmetadata, rfl⟩, hspec, rfl⟩, hstatus, rfl⟩
    exact ⟨hmetadata, hspec, hstatus⟩
  · rintro ⟨hmetadata, hspec, hstatus⟩
    exact ⟨_, _, ⟨_, _, ⟨_, hmetadata, rfl⟩, hspec, rfl⟩, hstatus, rfl⟩

/-- The record with the finalizers replaced, and the version if one is given. -/
def withFinalizers (r : Record) (l : List String) (version : Option String) : Record :=
  { r with
    metadata :=
      { r.metadata with
        finalizers := some l, resourceVersion := version.or r.metadata.resourceVersion } }

/-- The record with the status replaced. -/
def withStatus (r : Record) (st : Status) : Record := { r with status := some st }

variable {ms : List (Option String × Json)} {r : Record}

/-- A document after a patch of the finalizers reads as the record with these. -/
theorem decode_merge_finalizers (h : decode? decoder (.object ms) = some r) (q : Record)
    (l : List String) :
    decode? decoder ((Json.object ms).merge (Store.finalizersPatch q l)) =
      some (r.withFinalizers l q.metadata.resourceVersion) := by
  rw [decode?, Decoded.toOption_eq_some_iff] at h ⊢
  obtain ⟨hreadable, ⟨v, hv, hmetadata⟩, hspec, hstatus⟩ := decoder_object_eq_value_iff.1 h
  obtain ⟨mm, -, rfl, -⟩ := Metadata.decoder_eq_value hmetadata
  show decoder _ ((Json.object ms).merge (.record [("metadata", .object _)])) = _
  rw [Json.merge_member]
  refine decoder_object_eq_value_iff.2 ⟨hreadable.setKey (by decide) _,
    ⟨_, Json.valuesAt_setKey_self .., ?_⟩, ?_, ?_⟩
  · rw [Json.members, Json.valueAt_of_valuesAt hv, Json.merge, Json.members]
    exact Metadata.decoder_mergeMembers hmetadata l q.metadata.resourceVersion
  · rw [Json.valuesAt_setKey_of_ne (by decide)]
    exact hspec
  · rw [Json.valuesAt_setKey_of_ne (by decide)]
    exact hstatus

/-- A document after a patch of the status reads as the record with it. -/
theorem decode_merge_status (h : decode? decoder (.object ms) = some r) (st : Status) :
    decode? decoder ((Json.object ms).merge (Store.statusPatch st)) = some (r.withStatus st) := by
  rw [decode?, Decoded.toOption_eq_some_iff] at h ⊢
  obtain ⟨hreadable, hmetadata, hspec, hstatus⟩ := decoder_object_eq_value_iff.1 h
  have hmembers : Json.Readable Status.fieldNames (valueAt (some "status") ms).members := by
    obtain ⟨hnone, -⟩ | ⟨v, hv, hread⟩ := hstatus
    · rw [Json.valueAt_of_valuesAt_nil hnone]
      exact List.forall_mem_nil _
    · rw [Json.valueAt_of_valuesAt hv]
      exact Status.readable_members hread
  show decoder _ ((Json.object ms).merge (.record [("status", .object _)])) = _
  rw [Json.merge_member]
  refine decoder_object_eq_value_iff.2 ⟨hreadable.setKey (by decide) _, ?_, ?_,
    .inr ⟨_, Json.valuesAt_setKey_self .., ?_⟩⟩
  · rw [Json.valuesAt_setKey_of_ne (by decide)]
    exact hmetadata
  · rw [Json.valuesAt_setKey_of_ne (by decide)]
    exact hspec
  · exact Decoded.map_eq_value_iff.2 ⟨st, Status.decoder_merge hmembers st, rfl⟩

end Record

end ConnectorKeeper
