import ConnectorKeeper.Proofs.WrittenMetadata
import ConnectorKeeper.Validation.Checks

/-!
# Records that are written and read

The text of a record is read as the record (`Record.faithful_texts`), up to what becomes
of its metadata (`Metadata.reread`).  So a record that was read once, from whatever text,
is written, read and written again without a change: the first reading has settled what
could be spelled in several ways.
-/

namespace ConnectorKeeper

open Json (Decoded Decoder Fields Legible decodeText?)
open Text (ByteText)

/-! ## Specs and statuses -/

namespace Json

variable {α : Type} {d : Decoder α} {names : List String} {room : Nat} {name : String}
  {l : List (String × Json)} {v : Json} {a : α}

/-- A strict field is read from what is written. -/
theorem Fields.field_asMembers (missing : Decoded α) (hwritten : writtenAt name l = [v])
    (hread : d room v = .value a) :
    (Fields.mk names room (numbered 0 (asMembers l)) false).field name d missing = .value a := by
  refine field_eq_value_iff.2 (.inr ⟨v, ?_, hread⟩)
  rw [values_numbered, valuesAt_asMembers, hwritten]

/-- Where a container is read, there is room for one more. -/
theorem Decoder.enter_eq_value {body : Nat → Decoded α} (h : enter room body = .value a) :
    ∃ below, room = below + 1 ∧ body below = .value a := by
  cases room with
  | zero => cases h
  | succ below => exact ⟨below, rfl, h⟩

/-- A strict structure is read from parts, whether they are members or items. -/
theorem Decoder.strict_eq_value {build : Fields → Decoded α}
    (h : strict names build room v = .value a) :
    ∃ f, room = Fields.room f + 1 ∧ build f = .value a := by
  unfold strict at h
  split at h
  · obtain ⟨below, rfl, hbody⟩ := enter_eq_value h
    exact ⟨_, rfl, (Decoded.seqRight_eq_value_iff.1 hbody).2⟩
  · obtain ⟨below, rfl, hbody⟩ := enter_eq_value h
    exact ⟨_, rfl, (Decoded.seqRight_eq_value_iff.1 hbody).2⟩
  · exact absurd h (misfit_ne_value _ _)

end Json

/-- A configuration is read as it was written. -/
theorem configDecoder_configJson (room : Nat) (c : Config) :
    configDecoder (room + 1) (configJson c) = .value c := Decoder.mapOf_texts room c

theorem Spec.decoder_toJson (room : Nat) (s : Spec) : decoder (room + 2) s.toJson = .value s := by
  rw [toJson, Json.record_eq, decoder, Decoder.strict_object_eq_value_iff]
  refine ⟨.of_subset (by simp), ?_⟩
  rw [Fields.required, Fields.field_asMembers _ (v := .text s.host) (a := s.host) (by simp) rfl,
    Fields.required, Fields.field_asMembers _ (v := configJson s.config) (by simp)
      (configDecoder_configJson room s.config)]
  rfl

/-- So is a status. -/
theorem Status.decoder_toJson (room : Nat) (st : Status) :
    decoder (room + 3) st.toJson = .value st := by
  rw [toJson, Json.record_eq, decoder, Decoder.strict_object_eq_value_iff]
  refine ⟨.of_subset (by simp), ?_⟩
  rw [Fields.defaulted, Fields.field_asMembers _ (v := .text st.phase.text) (by simp)
      (Phase.decoder_text _ st.phase),
    Fields.defaulted, Fields.field_asMembers _ (v := .array (st.conditions.map Condition.toJson))
      (by simp) (Decoder.list_map_eq fun c _ => Condition.decoder_toJson room c)]
  rfl

/-- The spec has no numbers that their text would change. -/
theorem Spec.reread_toJson (s : Spec) : s.toJson.reread = s.toJson := by
  have hconfig : (configJson s.config).reread = configJson s.config :=
    Metadata.reread_textMapJson s.config
  rw [toJson, Json.reread_record]
  simp only [List.map_cons, List.map_nil, Json.reread_text, hconfig]

theorem Condition.reread_toJson (c : Condition) : c.toJson.reread = c.toJson := by
  rw [toJson, Json.reread_record]
  rfl

theorem Status.reread_toJson (st : Status) : st.toJson.reread = st.toJson := by
  rw [toJson, Json.reread_record]
  simp only [List.map_cons, List.map_nil, Json.reread_text, Json.reread_array, List.map_map,
    Function.comp_def, Condition.reread_toJson]

theorem Spec.legible_toJson (s : Spec) : Legible s.toJson := by
  refine Json.legible_record ?_
  simp only [List.forall_mem_cons]
  exact ⟨.text _, Metadata.legible_textMapJson s.config, List.forall_mem_nil _⟩

theorem Condition.legible_toJson (c : Condition) : Legible c.toJson := by
  refine Json.legible_record ?_
  simp only [List.forall_mem_cons]
  exact ⟨.text _, .text _, .text _, .text _, .text _, List.forall_mem_nil _⟩

/-- A status can be printed and read. -/
theorem Status.legible_toJson (st : Status) : Legible st.toJson := by
  refine Json.legible_record ?_
  simp only [List.forall_mem_cons]
  exact ⟨.text _, Json.legible_array fun c _ => c.legible_toJson, List.forall_mem_nil _⟩

/-! ## Records -/

namespace Record

variable {r : Record}

/-- The record as it is read from its text. -/
def reread (r : Record) : Record := { r with metadata := r.metadata.reread }

/-- A record that is read again is at the same stage of its life. -/
theorem lifecycle_reread (r : Record) : r.reread.lifecycle = r.lifecycle := by
  simp [lifecycle, deletionRequested, finalizerPresent, finalizers, reread, Metadata.reread]

/-- A record whose times have no fractions is read as it was written. -/
theorem decoder_toJson {room : Nat} (h : r.metadata.Storable room)
    (hwhole : ∀ t ∈ r.metadata.times, t.whole = t) : decoder (room + 4) r.toJson = .value r := by
  rw [toJson, Json.record_eq, decoder_object_eq_value_iff]
  refine ⟨.of_forall ?_, ⟨r.metadata.toJson, ?_, Metadata.decoder_toJson h hwhole⟩,
    ⟨r.spec.toJson, ?_, Spec.decoder_toJson _ r.spec⟩, ?_⟩
  · simp only [List.forall_mem_append, List.forall_mem_cons]
    refine ⟨⟨.inr rfl, .inr rfl, .inl (by decide), .inl (by decide), List.forall_mem_nil _⟩, ?_⟩
    intro m hm
    exact .inl (Json.subset_optional (by decide) _ (List.mem_map_of_mem hm))
  · rw [Json.valuesAt_asMembers]
    simp
  · rw [Json.valuesAt_asMembers]
    simp
  · rw [Json.valuesAt_asMembers]
    cases hst : r.status with
    | none => exact .inl ⟨by simp, rfl⟩
    | some st =>
      have hnull : st.toJson ≠ .null := Json.record_ne_null _
      refine .inr ⟨st.toJson, by simp, ?_⟩
      rw [Fields.nullable_of_ne hnull, Status.decoder_toJson room st]
      rfl

/-- To write and read again is to write what is read again. -/
theorem reread_toJson {room : Nat} (h : r.metadata.Storable room) :
    r.toJson.reread = r.reread.toJson := by
  rw [toJson, Json.reread_record]
  simp only [List.map_append, List.map_cons, List.map_nil, Json.map_optional, Option.map_map,
    Function.comp_def, Json.reread_text, Metadata.reread_toJson h, Spec.reread_toJson,
    Status.reread_toJson]
  rfl

theorem legible_toJson {room : Nat} (h : r.metadata.Storable room)
    (hnumbers : ∀ v ∈ r.metadata.trees, ∀ n ∈ v.numbers, n.Settles) : Legible r.toJson := by
  refine Json.legible_record ?_
  simp only [List.forall_mem_append, List.forall_mem_cons]
  exact ⟨⟨.text _, .text _, Metadata.legible_toJson h hnumbers, Spec.legible_toJson _,
    List.forall_mem_nil _⟩, Json.legible_optional fun st _ => st.legible_toJson⟩

/-- The text of a record is read as the record. -/
theorem decodeText?_print (h : r.metadata.Storable 123)
    (hnumbers : ∀ v ∈ r.metadata.trees, ∀ n ∈ v.numbers, n.Settles) :
    decodeText? decoder (.ofString (Json.print r.toJson)) = some r.reread := by
  have hwhole : ∀ t ∈ r.reread.metadata.times, t.whole = t := by
    intro t ht
    rw [reread, Metadata.times_reread] at ht
    obtain ⟨t', -, rfl⟩ := List.mem_map.1 ht
    exact t'.whole_whole
  have hread : decoder Json.depthLimit r.reread.toJson = .value r.reread :=
    decoder_toJson (h.reread hnumbers) hwhole
  rw [decodeText?, Json.Document.ofText_print (legible_toJson h hnumbers), Json.Document.decode,
    reread_toJson h, hread]
  rfl

/-- Metadata that came with a record can be read again. -/
theorem storable_of_decodeText? {s : ByteText} (h : decodeText? decoder s = some r) :
    r.metadata.Storable 123 := by
  have hread : decoder Json.depthLimit (Json.Document.ofText s).root = .value r := by
    rw [decodeText?, Decoded.toOption_eq_some_iff, Json.Document.decode] at h
    split at h
    · next r' hread =>
      split at h
      · exact hread.trans h
      · cases h
    · cases h
  obtain ⟨f, hroom, hbuild⟩ := Decoder.strict_eq_value hread
  simp only [Decoded.seq_eq_value_iff, Decoded.map_eq_value_iff, Fields.required_eq_value_iff]
    at hbuild
  obtain ⟨_, _, ⟨_, _, ⟨metadata, ⟨v, -, hmetadata⟩, rfl⟩, -, rfl⟩, -, rfl⟩ := hbuild
  have hbelow : f.room = 123 + 3 := (Nat.succ.inj hroom).symm
  rw [hbelow] at hmetadata
  exact Metadata.storable_of_decoder hmetadata

/-- A record is printed alike after it was read again. -/
theorem print_reread {room : Nat} (h : r.metadata.Storable room)
    (hnumbers : ∀ v ∈ r.metadata.trees, ∀ n ∈ v.numbers, n.Settles) :
    Json.print r.reread.toJson = Json.print r.toJson := by
  rw [← reread_toJson h, Json.print, Json.print, (legible_toJson h hnumbers).chars_reread]

/-- The text of a record is read as the record, if its moments are whole seconds.  What is read
from any text is written, read and written again without a change.

The metadata must be such that they can be read again, which all metadata are that were read
(`storable_of_decodeText?`).  That they round-trip is assumed only of the numbers inside trees
that are not kept exactly, of which a reading may miss the last digit: those of the record are
read back, and the texts of those that were read settle. -/
theorem faithful_texts :
    (∀ r : Record, r.metadata.Storable 123 → (∀ t ∈ r.metadata.times, t.whole = t) →
      (∀ v ∈ r.metadata.trees, ∀ n ∈ v.numbers, n.isExact = false →
        Json.readNumber (n.chars.map some) = some (n, [])) →
      decodeText? decoder (.ofString (Json.print r.toJson)) = some r) ∧
    ∀ (s : ByteText) (r : Record), decodeText? decoder s = some r →
      (∀ v ∈ r.metadata.trees, ∀ n ∈ v.numbers, n.isExact = false → n.Settles) →
      ∃ r', decodeText? decoder (.ofString (Json.print r.toJson)) = some r' ∧
        Json.print r'.toJson = Json.print r.toJson ∧ r'.lifecycle = r.lifecycle ∧
        r'.connectorName = r.connectorName ∧ r'.spec.localChecks = r.spec.localChecks := by
  constructor
  · intro r h hwhole hnumbers
    have hself : ∀ v ∈ r.metadata.trees, ∀ n ∈ v.numbers,
        Json.readNumber (n.chars.map some) = some (n, []) := by
      intro v hv n hn
      cases hexact : n.isExact with
      | false => exact hnumbers v hv n hn hexact
      | true => exact n.readNumber_of_isExact hexact
    have hmetadata : r.metadata.reread = r.metadata :=
      Metadata.reread_eq hwhole fun v hv => (h.trees v hv).2.reread_eq fun n hn => by
        rw [Json.Number.reread, hself v hv n hn]
        rfl
    have hread := decodeText?_print h fun v hv n hn =>
      ⟨n, hself v hv n hn, (h.trees v hv).2.finite hn, rfl⟩
    rw [reread, hmetadata] at hread
    exact hread
  · intro s r hread hnumbers
    have h := storable_of_decodeText? hread
    have hsettles : ∀ v ∈ r.metadata.trees, ∀ n ∈ v.numbers, n.Settles :=
      fun v hv => (h.trees v hv).2.settles (hnumbers v hv)
    exact ⟨r.reread, decodeText?_print h hsettles, print_reread h hsettles, r.lifecycle_reread,
      rfl, rfl⟩

/-- A whole record, and a text that spells one in other ways. -/
theorem faithful_texts_orders :
    let tree : Json := .record [("f:spec", .array [.number (.decimal false ['1'] ['5'] 0)])]
    let r : Record :=
      ⟨{ Metadata.empty with
          name := some "orders"
          generation := some 2
          creationTimestamp := some ⟨1483228799, 1000000000⟩
          managedFields := some [⟨none, none, some tree, some "operator", none, none,
            some ⟨1709164800, 0⟩⟩] },
        ⟨"http://dbz:8083", .ofList [("name", "orders"), ("über\n", "\"\x01\\😀")]⟩,
        some ⟨.taskFailed, [⟨"Synced", "True", "Ready", "", ""⟩]⟩⟩
    (r.metadata.Storable 123 ∧ (∀ t ∈ r.metadata.times, t.whole = t) ∧
      (∀ v ∈ r.metadata.trees, ∀ n ∈ v.numbers, n.isExact = false →
        Json.readNumber (n.chars.map some) = some (n, [])) ∧
      decodeText? decoder (.ofString (Json.print r.toJson)) = some r) ∧
    let s := ByteText.ofString ("[\x7b\"deletionTimestamp\":\"2017-01-01T00:59:60.5+01:00\"," ++
      "\"managedFields\":[\x7b\"fieldsV1\":\x7b\"b\":[],\"a\":[7,0.25],\"b\":true\x7d\x7d]\x7d," ++
      "[\"http://dbz:8083\",\x7b\"name\":\"first\",\"name\":\"orders\"\x7d],\x7b\"more\":1.5\x7d]")
    ∃ r, decodeText? decoder s = some r ∧
      (∀ v ∈ r.metadata.trees, ∀ n ∈ v.numbers, n.isExact = false → n.Settles) ∧
      ∃ r', decodeText? decoder (.ofString (Json.print r.toJson)) = some r' ∧
        Json.print r'.toJson = Json.print r.toJson ∧ r'.lifecycle = r.lifecycle ∧
        r'.connectorName = r.connectorName ∧ r'.spec.localChecks = r.spec.localChecks := by
  intro tree r
  have hstorable : r.metadata.Storable 123 := by
    constructor
    case integers => decide
    case times => decide
    case trees =>
      refine List.forall_mem_singleton.2 ⟨Json.record_ne_null _, .record ?_ ?_⟩
      · exact List.pairwise_singleton ..
      · refine List.forall_mem_singleton.2 (.array (List.forall_mem_singleton.2 (.number ?_)))
        decide +kernel
  have hwhole : ∀ t ∈ r.metadata.times, t.whole = t := by decide
  have hnumbers : ∀ v ∈ r.metadata.trees, ∀ n ∈ v.numbers, n.isExact = false →
      Json.readNumber (n.chars.map some) = some (n, []) := by
    decide +kernel
  refine ⟨⟨hstorable, hwhole, hnumbers, faithful_texts.1 r hstorable hwhole hnumbers⟩, ?_⟩
  intro s
  have hread : (decodeText? decoder s).map (fun r => decide
      (∀ v ∈ r.metadata.trees, ∀ n ∈ v.numbers, n.isExact = false → n.Settles)) = some true := by
    decide +kernel
  obtain ⟨r, hr, htrue⟩ := Option.map_eq_some_iff.1 hread
  have hsettles := of_decide_eq_true htrue
  exact ⟨r, hr, hsettles, faithful_texts.2 s r hr hsettles⟩

end Record

end ConnectorKeeper
