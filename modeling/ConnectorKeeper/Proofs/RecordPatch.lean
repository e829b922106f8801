import ConnectorKeeper.Proofs.Decoding
import ConnectorKeeper.Store

/-!
# Records after a patch

What the API server makes of a record when it applies one of our patches.  The
server keeps a document that reads as the record; it merges the patch into it,
and the result reads as the new record, but for the entries that the server
writes itself (`Record.Patched`).

A patch of the finalizers sets them and leaves spec and deletion mark
(`Record.Patched.of_finalizers`); a patch of the status leaves both and the
finalizers too (`Record.Patched.of_status`).
-/

namespace ConnectorKeeper

open Json (Decoded Fields valuesAt setKey decode?)

/-! ## Reading a record -/

theorem Json.Decoder.strict_object_eq_value {α : Type} {names : List String}
    {build : Fields → Decoded α} {room : Nat} {ms : List (Option String × Json)} {a : α}
    (h : Decoder.strict names build room (.object ms) = .value a) :
    ∃ below, room = below + 1 ∧ build ⟨names, below, Json.numbered 0 ms, false⟩ = .value a := by
  cases room with
  | zero => cases h
  | succ below => exact ⟨below, rfl, (Decoded.seqRight_eq_value_iff.1 h).2⟩

theorem Json.Decoder.lenient_eq_value {α : Type} {names : List String}
    {build : Fields → Decoded α} {room : Nat} {v : Json} {a : α}
    (h : Decoder.lenient names build room v = .value a) :
    ∃ below ms, room = below + 1 ∧ v = .object ms ∧
      build ⟨names, below, Json.numbered 0 ms, false⟩ = .value a := by
  cases v with
  | object ms =>
    cases room with
    | zero => cases h
    | succ below => exact ⟨below, ms, rfl, rfl, (Decoded.seqRight_eq_value_iff.1 h).2⟩
  | null | bool | array | cut => cases h
  | number n =>
    cases hn : n.finite <;> simp [lenient, misfit, hn, Decoded.fail] at h
  | string s => cases s <;> cases h

/-- The parts that a record is read from. -/
theorem Record.decoder_object_eq_value {room : Nat} {ms : List (Option String × Json)}
    {r : Record} (h : Record.decoder room (.object ms) = .value r) :
    ∃ below, room = below + 1 ∧
      (∃ v, valuesAt "metadata" ms = [v] ∧ Metadata.decoder below v = .value r.metadata) ∧
      (∃ v, valuesAt "spec" ms = [v] ∧ Spec.decoder below v = .value r.spec) ∧
      ((valuesAt "status" ms = [] ∧ r.status = none) ∨ ∃ v, valuesAt "status" ms = [v] ∧
        Json.Decoder.nullable Status.decoder below v = .value r.status) := by
  obtain ⟨below, rfl, hparts⟩ := Json.Decoder.strict_object_eq_value h
  simp only [Decoded.seq_eq_value_iff, Decoded.map_eq_value_iff, Fields.required_eq_value_iff,
    Fields.optional_eq_value_iff, Fields.values_numbered] at hparts
  obtain ⟨_, status, ⟨_, spec, ⟨metadata, hmetadata, rfl⟩, hspec, rfl⟩, hstatus, rfl⟩ := hparts
  exact ⟨below, rfl, hmetadata, hspec, hstatus⟩

/-- The parts of metadata that the life of a record depends on. -/
theorem Metadata.decoder_eq_value {room : Nat} {v : Json} {m : Metadata}
    (h : Metadata.decoder room v = .value m) :
    ∃ ms f, v = .object ms ∧ Fields.room f + 1 = room ∧
      (∀ name, f.values name = valuesAt name ms) ∧
      f.latest? "deletionTimestamp" moment = .value m.deletionTimestamp ∧
      f.latest? "finalizers" (Json.Decoder.list Json.Decoder.string) = .value m.finalizers := by
  obtain ⟨below, ms, rfl, rfl, hparts⟩ := Json.Decoder.lenient_eq_value h
  simp only [Decoded.seq_eq_value_iff, Decoded.map_eq_value_iff] at hparts
  obtain
    ⟨_, _, ⟨_, _, ⟨_, _, ⟨_, _, ⟨_, _, ⟨_, _, ⟨_, _, ⟨_, _, ⟨_, _, ⟨_, _, ⟨_, _, ⟨_, _, ⟨_, _,
      ⟨_, _, ⟨_, _, rfl⟩, _, rfl⟩, _, rfl⟩, hdeletion, rfl⟩, hfinalizers, rfl⟩, _, rfl⟩, _,
      rfl⟩, _, rfl⟩, _, rfl⟩, _, rfl⟩, _, rfl⟩, _, rfl⟩, _, rfl⟩, _, rfl⟩, _, rfl⟩ := hparts
  exact ⟨ms, _, rfl, rfl, fun name => Fields.values_numbered _ _ _ name 0 ms, hdeletion,
    hfinalizers⟩

/-- Metadata that differs in other members only has the same deletion mark. -/
theorem Metadata.deletionTimestamp_congr {room : Nat} {ms ms' : List (Option String × Json)}
    {m m' : Metadata} (h : decoder room (.object ms) = .value m)
    (h' : decoder room (.object ms') = .value m')
    (hvalues : valuesAt "deletionTimestamp" ms = valuesAt "deletionTimestamp" ms') :
    m.deletionTimestamp = m'.deletionTimestamp := by
  obtain ⟨_, f, hms, hroom, hf, hdeletion, -⟩ := decoder_eq_value h
  obtain ⟨_, f', hms', hroom', hf', hdeletion', -⟩ := decoder_eq_value h'
  cases hms
  cases hms'
  refine Fields.latest?_congr (by omega) ?_ hdeletion hdeletion'
  rw [hf, hf', hvalues]

theorem Json.Decoder.decodeItems_text (room index : Nat) (l : List String) :
    decodeItems (string room) index (l.map Json.text) = .value l := by
  induction l generalizing index with
  | nil => rfl
  | cons s l ih => rw [List.map_cons, decodeItems, ih]; rfl

/-- Finalizers that are there once are read. -/
theorem Metadata.finalizers_of_valuesAt {room : Nat} {ms : List (Option String × Json)}
    {m : Metadata} (h : decoder room (.object ms) = .value m) {l : List String}
    (hvalues : valuesAt "finalizers" ms = [textListJson l]) : m.finalizers = some l := by
  obtain ⟨_, f, hms, -, hf, -, hfinalizers⟩ := decoder_eq_value h
  cases hms
  rw [Fields.latest?_eq_value_iff ((hf _).trans hvalues)] at hfinalizers
  rw [textListJson, Json.Decoder.nullable, Decoded.map_eq_value_iff] at hfinalizers
  · obtain ⟨l', hl', hsome⟩ := hfinalizers
    rw [← hsome]
    cases hroom : f.room with
    | zero => rw [hroom] at hl'; cases hl'
    | succ below =>
      rw [hroom, Json.Decoder.list, Json.Decoder.enter, Json.Decoder.decodeItems_text] at hl'
      exact congrArg some (Decoded.value.inj hl').symm
  · exact nofun

/-! ## What a patch does to a document -/

/-- A record with the entries that the server writes itself. -/
def Record.restamp (r : Record) (version : Option String) (generation : Option Int)
    (managed : Option (List Metadata.ManagedFields)) : Record :=
  { r with
    metadata :=
      { r.metadata with resourceVersion := version, generation, managedFields := managed } }

/-- The server has applied a patch to a record: some document that reads as the
one reads as the other after the merge, up to the entries of the server. -/
def Record.Patched (r : Record) (patch : Json) (r' : Record) : Prop :=
  ∃ doc merged version generation managed, decode? Record.decoder doc = some r ∧
    decode? Record.decoder (doc.merge patch) = some merged ∧
    r' = merged.restamp version generation managed

theorem Json.merge_member (doc : Json) (key : String) (changes : List (Option String × Json)) :
    doc.merge (.record [(key, .object changes)]) =
      .object (setKey (some key) ((Json.valueAt (some key) doc.members).merge (.object changes))
        doc.members) := by
  simp only [Json.record, List.map_cons, List.map_nil, Json.merge, Json.mergeMembers]

/-- A patch of a part other than the spec is applied to an object, and leaves the
spec of the record. -/
theorem Record.spec_of_merge {room : Nat} {doc : Json} {r merged : Record} {key : String}
    {changes : List (Option String × Json)} (hkey : key ≠ "spec")
    (h : Record.decoder room doc = .value r)
    (h' : Record.decoder room (doc.merge (.record [(key, .object changes)])) = .value merged) :
    (∃ ms, doc = .object ms) ∧ merged.spec = r.spec := by
  rw [Json.merge_member] at h'
  obtain ⟨below, rfl, -, ⟨v', hv', hspec'⟩, -⟩ := decoder_object_eq_value h'
  rw [Json.valuesAt_setKey_of_ne hkey] at hv'
  cases doc with
  | object ms =>
    refine ⟨⟨ms, rfl⟩, ?_⟩
    obtain ⟨_, hbelow, -, ⟨v, hv, hspec⟩, -⟩ := decoder_object_eq_value h
    obtain rfl := Nat.succ.inj hbelow
    obtain rfl : v' = v := by simpa using hv'.symm.trans hv
    exact Decoded.value.inj (hspec'.symm.trans hspec)
  | null | bool | number | string | array | cut => cases hv'

/-- The metadata of a record after a patch of them. -/
theorem Record.metadata_of_merge {room : Nat} {ms : List (Option String × Json)}
    {r merged : Record} {changes : List (Option String × Json)}
    (h : Record.decoder room (.object ms) = .value r)
    (h' : Record.decoder room ((Json.object ms).merge (.record [("metadata", .object changes)])) =
      .value merged) :
    ∃ below mm, Metadata.decoder below (.object mm) = .value r.metadata ∧
      Metadata.decoder below (.object (Json.mergeMembers mm changes)) = .value merged.metadata := by
  rw [Json.merge_member, Json.members] at h'
  obtain ⟨below, rfl, ⟨v, hv, hm⟩, -⟩ := decoder_object_eq_value h
  obtain ⟨_, hbelow, ⟨v', hv', hm'⟩, -⟩ := decoder_object_eq_value h'
  obtain rfl := Nat.succ.inj hbelow
  obtain ⟨mm, _, rfl, -⟩ := Metadata.decoder_eq_value hm
  rw [Json.valuesAt_setKey_self, Json.valueAt_of_valuesAt hv] at hv'
  obtain rfl := (List.cons.inj hv').1
  rw [Json.merge, Json.members] at hm'
  exact ⟨below, mm, hm, hm'⟩

/-- The members of metadata after a patch of the finalizers. -/
theorem Store.valuesAt_finalizersPatch (l : List String) (version : Option String)
    (mm : List (Option String × Json)) :
    let mm' := Json.mergeMembers mm <| List.map (fun m => (some m.1, m.2)) <|
      [("finalizers", Metadata.textListJson l)] ++
        Json.optional "resourceVersion" (version.map .text)
    valuesAt "finalizers" mm' = [Metadata.textListJson l] ∧
      valuesAt "deletionTimestamp" mm' = valuesAt "deletionTimestamp" mm := by
  cases version with
  | none =>
    simp [Json.optional, Metadata.textListJson, Json.mergeMembers, Json.merge,
      Json.valuesAt_setKey_self, Json.valuesAt_setKey_of_ne]
  | some version =>
    simp [Json.optional, Metadata.textListJson, Json.text, Json.mergeMembers, Json.merge,
      Json.valuesAt_setKey_self, Json.valuesAt_setKey_of_ne]

/-- A patch of the status leaves the metadata. -/
theorem Record.metadata_of_merge_status {room : Nat} {ms : List (Option String × Json)}
    {r merged : Record} {changes : List (Option String × Json)}
    (h : Record.decoder room (.object ms) = .value r)
    (h' : Record.decoder room ((Json.object ms).merge (.record [("status", .object changes)])) =
      .value merged) : merged.metadata = r.metadata := by
  rw [Json.merge_member] at h'
  obtain ⟨below, rfl, ⟨v, hv, hm⟩, -⟩ := decoder_object_eq_value h
  obtain ⟨_, hbelow, ⟨v', hv', hm'⟩, -⟩ := decoder_object_eq_value h'
  obtain rfl := Nat.succ.inj hbelow
  rw [Json.valuesAt_setKey_of_ne (by decide), Json.members, hv] at hv'
  obtain rfl := (List.cons.inj hv').1
  exact Decoded.value.inj (hm'.symm.trans hm)

namespace Record.Patched

variable {r r' : Record}

/-- A patch of the finalizers sets them, and leaves spec and deletion mark. -/
theorem of_finalizers {q : Record} {l : List String}
    (h : r.Patched (Store.finalizersPatch q l) r') :
    r'.spec = r.spec ∧ r'.deletionRequested = r.deletionRequested ∧ r'.finalizers = l := by
  obtain ⟨doc, merged, version, generation, managed, h, h', rfl⟩ := h
  rw [decode?, Decoded.toOption_eq_some_iff] at h h'
  obtain ⟨⟨ms, rfl⟩, hspec⟩ := Record.spec_of_merge (by decide) h h'
  obtain ⟨below, mm, hm, hm'⟩ := Record.metadata_of_merge h h'
  obtain ⟨hfinalizers, hdeletion⟩ :=
    Store.valuesAt_finalizersPatch l q.metadata.resourceVersion mm
  refine ⟨hspec, ?_, ?_⟩
  · show merged.deletionRequested = r.deletionRequested
    exact congrArg Option.isSome (Metadata.deletionTimestamp_congr hm' hm hdeletion)
  · show merged.finalizers = l
    exact congrArg (·.getD []) (Metadata.finalizers_of_valuesAt hm' hfinalizers)

/-- A patch of the status leaves all else. -/
theorem of_status {status : Status} (h : r.Patched (Store.statusPatch status) r') :
    r'.spec = r.spec ∧ r'.deletionRequested = r.deletionRequested ∧
      r'.finalizers = r.finalizers := by
  obtain ⟨doc, merged, version, generation, managed, h, h', rfl⟩ := h
  rw [decode?, Decoded.toOption_eq_some_iff] at h h'
  obtain ⟨⟨ms, rfl⟩, hspec⟩ := Record.spec_of_merge (by decide) h h'
  have hmetadata := Record.metadata_of_merge_status h h'
  refine ⟨hspec, ?_, ?_⟩
  · exact congrArg (·.deletionTimestamp.isSome) hmetadata
  · exact congrArg (·.finalizers.getD []) hmetadata

end Record.Patched

end ConnectorKeeper
