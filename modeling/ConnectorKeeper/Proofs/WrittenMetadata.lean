import ConnectorKeeper.Proofs.Calendar
import ConnectorKeeper.Proofs.Configurations
import ConnectorKeeper.Proofs.FieldTrees

/-!
# Metadata that are written and read

Metadata are written with moments cut to whole seconds and with trees as they are kept.
What is read from them again (`Metadata.reread`) is the same but for these two.

Not all metadata can be read again.  Those that were read once can (`Metadata.Storable`,
`Metadata.storable_of_decoder`): their integers fit, their moments have a text and their
trees do not nest too deep.
-/

namespace ConnectorKeeper

open Json (Decoded Decoder Fields Legible Tree optional writtenAt)

/-! ## Maps -/

namespace StringMap

variable {α : Type}

/-- An entry with a key beyond all others goes to the end. -/
theorem insertEntry_of_forall_lt {key : String} {l : List (String × α)} (value : α)
    (h : ∀ e ∈ l, e.1 < key) : insertEntry key value l = l ++ [(key, value)] := by
  induction l with
  | nil => rfl
  | cons e l ih =>
    have hlt := h e List.mem_cons_self
    rw [insertEntry, if_neg hlt.asymm, if_neg hlt.ne',
      ih fun e he => h e (List.mem_cons_of_mem _ he)]
    rfl

/-- Entries that are inserted in their order stand in that order. -/
theorem entries_foldl_insert {l : List (String × α)} {m : StringMap α}
    (h : (m.entries ++ l).Pairwise (·.1 < ·.1)) :
    (l.foldl (fun m e => m.insert e.1 e.2) m).entries = m.entries ++ l := by
  induction l generalizing m with
  | nil => exact (List.append_nil _).symm
  | cons e l ih =>
    have hentries : (m.insert e.1 e.2).entries = m.entries ++ [e] :=
      insertEntry_of_forall_lt e.2 fun e' he' =>
        (List.pairwise_append.1 h).2.2 e' he' e List.mem_cons_self
    rw [List.foldl_cons, ih (by rwa [hentries, List.append_assoc]), hentries, List.append_assoc]
    rfl

/-- A map is made of its entries. -/
theorem ofList_toList (m : StringMap α) : ofList m.toList = m := by
  have hentries := @entries_foldl_insert α m.toList empty m.sorted
  exact eq_of_perm (.of_eq hentries)

end StringMap

namespace Json

/-- Written texts are read as they are. -/
theorem Decoder.decodeMembers_texts (room index : Nat) (l : List (String × String)) :
    decodeMembers (string room) index (asMembers (l.map fun e => (e.1, text e.2))) = .value l := by
  induction l generalizing index with
  | nil => rfl
  | cons e l ih =>
    show decodeMembers _ index ((some e.1, text e.2) :: asMembers (l.map _)) = _
    rw [decodeMembers, ih]
    rfl

/-- A map of texts is read back. -/
theorem Decoder.mapOf_texts (room : Nat) (m : StringMap String) :
    mapOf string (room + 1) (record (m.toList.map fun e => (e.1, text e.2))) = .value m := by
  rw [record_eq, mapOf, enter, decodeMembers_texts, Decoded.map_value, StringMap.ofList_toList]

/-- A text that is written, if there is one, is read back. -/
theorem Fields.latest?_text {names : List String} {room : Nat} {name : String}
    {l : List (String × Json)} (a : Option String)
    (hwritten : writtenAt name l = (a.map text).toList) :
    (Fields.mk names room (numbered 0 (asMembers l)) false).latest? name Decoder.string =
      .value a :=
  latest?_asMembers text a hwritten (fun _ _ => text_ne_null _) fun _ _ => rfl

/-- A list is read back from the values of its items. -/
theorem Decoder.list_map_eq {α : Type} {d : Decoder α} {room : Nat} {enc : α → Json} {l : List α}
    (h : ∀ a ∈ l, d room (enc a) = .value a) :
    Decoder.list d (room + 1) (.array (l.map enc)) = .value l := by
  rw [list_array_eq_value_iff, List.forall₂_map_left_iff, List.forall₂_same]
  exact h

theorem Decoder.int64_int {n : Int} (room : Nat)
    (h : -0x8000_0000_0000_0000 ≤ n ∧ n ≤ 0x7fff_ffff_ffff_ffff) :
    int64 room (int n) = .value n := by
  simp [int64, integer, int, h]

end Json

namespace Metadata

theorem moment_text {t : Timestamp} (room : Nat) (h : t.InRange) (hwhole : t.whole = t) :
    moment room (.text t.text) = .value t := by
  rw [moment, Json.text, Decoder.parsed, Timestamp.parse?_text h, hwhole]
  rfl

/-- A moment that is written, if there is one, is read back. -/
theorem latest?_moment {names : List String} {room : Nat} {name : String}
    {l : List (String × Json)} (a : Option Timestamp)
    (hwritten : writtenAt name l = (a.map fun t => Json.text t.text).toList)
    (h : ∀ t ∈ a, t.InRange ∧ t.whole = t) :
    (Fields.mk names room (Json.numbered 0 (Json.asMembers l)) false).latest? name moment =
      .value a := by
  refine Fields.latest?_asMembers (fun t => .text t.text) a hwritten
    (fun _ _ => Json.text_ne_null _) ?_
  intro t ht
  exact moment_text room (h t ht).1 (h t ht).2

/-! ## What can be read again -/

/-- The moments of metadata. -/
def times (m : Metadata) : List Timestamp :=
  m.creationTimestamp.toList ++ m.deletionTimestamp.toList ++
    (m.managedFields.getD []).flatMap (·.time.toList)

/-- The integers of metadata. -/
def integers (m : Metadata) : List Int :=
  m.deletionGracePeriodSeconds.toList ++ m.generation.toList

/-- The trees of metadata. -/
def trees (m : Metadata) : List Json := (m.managedFields.getD []).filterMap (·.fields)

/-- Metadata that can be read again where containers may nest so deep inside a tree. -/
structure Storable (room : Nat) (m : Metadata) : Prop where
  integers : ∀ n ∈ m.integers, -0x8000_0000_0000_0000 ≤ n ∧ n ≤ 0x7fff_ffff_ffff_ffff
  times : ∀ t ∈ m.times, t.InRange
  trees : ∀ v ∈ m.trees, v ≠ .null ∧ Tree room v

/-! ## Reading what was written -/

/-- An entry of managed fields is read as it was written. -/
theorem ManagedFields.decoder_toJson {room : Nat} {m : ManagedFields}
    (htree : ∀ v ∈ m.fields, v ≠ .null ∧ Tree room v)
    (htime : ∀ t ∈ m.time, t.InRange ∧ t.whole = t) : decoder (room + 1) m.toJson = .value m := by
  rw [toJson, Json.record_eq, decoder, Decoder.lenient_object_eq_value_iff]
  refine ⟨.of_subset ?_, ?_⟩
  · simp only [List.map_append, List.append_subset]
    and_intros <;> exact Json.subset_optional (by decide) _
  · rw [Fields.latest?_text m.apiVersion (by simp), Fields.latest?_text m.fieldsType (by simp),
      Fields.latest?_asMembers id m.fields (by simp) (fun v hv => (htree v hv).1)
        (fun v hv => (htree v hv).2.decoder_eq),
      Fields.latest?_text m.manager (by simp), Fields.latest?_text m.operation (by simp),
      Fields.latest?_text m.subresource (by simp),
      latest?_moment m.time (by simp) htime]
    rfl

theorem OwnerReference.decoder_toJson (room : Nat) (o : OwnerReference) :
    decoder (room + 1) o.toJson = .value o := by
  rw [toJson, Json.record_eq, decoder, Decoder.lenient_object_eq_value_iff]
  refine ⟨.of_subset ?_, ?_⟩
  · simp only [List.map_append, List.append_subset]
    and_intros
    · simp
    · exact Json.subset_optional (by decide) _
    · exact Json.subset_optional (by decide) _
    · simp
  · rw [(Fields.latest_asMembers_iff (v := .text o.apiVersion) (by simp)
        (Json.text_ne_null _)).2 rfl,
      Fields.latest?_asMembers .bool o.blockOwnerDeletion (by simp) (fun _ _ => Json.bool_ne_null _)
        (fun _ _ => rfl),
      Fields.latest?_asMembers .bool o.controller (by simp) (fun _ _ => Json.bool_ne_null _)
        (fun _ _ => rfl),
      (Fields.latest_asMembers_iff (v := .text o.kind) (by simp) (Json.text_ne_null _)).2 rfl,
      (Fields.latest_asMembers_iff (v := .text o.name) (by simp) (Json.text_ne_null _)).2 rfl,
      (Fields.latest_asMembers_iff (v := .text o.uid) (by simp) (Json.text_ne_null _)).2 rfl]
    rfl

section Parts

variable {m : Metadata} {t : Timestamp} {l : List ManagedFields} {e : ManagedFields}

theorem mem_integers_period {n : Int} (h : n ∈ m.deletionGracePeriodSeconds) : n ∈ m.integers :=
  List.mem_append_left _ (Option.mem_toList.2 h)

theorem mem_integers_generation {n : Int} (h : n ∈ m.generation) : n ∈ m.integers :=
  List.mem_append_right _ (Option.mem_toList.2 h)

theorem mem_times_creation (h : t ∈ m.creationTimestamp) : t ∈ m.times :=
  List.mem_append_left _ (List.mem_append_left _ (Option.mem_toList.2 h))

theorem mem_times_deletion (h : t ∈ m.deletionTimestamp) : t ∈ m.times :=
  List.mem_append_left _ (List.mem_append_right _ (Option.mem_toList.2 h))

theorem mem_times_managed (hl : m.managedFields = some l) (he : e ∈ l) (h : t ∈ e.time) :
    t ∈ m.times := by
  refine List.mem_append_right _ (List.mem_flatMap.2 ⟨e, ?_, Option.mem_toList.2 h⟩)
  rw [hl]
  exact he

/-- The trees of the metadata are the fields of their managers. -/
theorem mem_trees (hl : m.managedFields = some l) (he : e ∈ l) {v : Json} (h : v ∈ e.fields) :
    v ∈ m.trees := by
  refine List.mem_filterMap.2 ⟨e, ?_, h⟩
  rw [hl]
  exact he

end Parts

/-- Metadata without fractions of a second are read as they were written. -/
theorem decoder_toJson {room : Nat} {m : Metadata} (h : m.Storable room)
    (hwhole : ∀ t ∈ m.times, t.whole = t) : decoder (room + 3) m.toJson = .value m := by
  have htime : ∀ t ∈ m.times, t.InRange ∧ t.whole = t := fun t ht => ⟨h.times t ht, hwhole t ht⟩
  have hinteger : ∀ below, ∀ n ∈ m.integers, Decoder.int64 below (.int n) = .value n :=
    fun below n hn => Decoder.int64_int below (h.integers n hn)
  rw [toJson, Json.record_eq, decoder_object_eq_value_iff]
  refine ⟨.of_subset ?_, ?_⟩
  · simp only [List.map_append, List.append_subset]
    and_intros <;> exact Json.subset_optional (by decide) _
  · constructor
    case annotations =>
      exact Fields.latest?_asMembers textMapJson m.annotations (by simp)
        (fun _ _ => Json.record_ne_null _) (fun _ _ => Decoder.mapOf_texts _ _)
    case labels =>
      exact Fields.latest?_asMembers textMapJson m.labels (by simp)
        (fun _ _ => Json.record_ne_null _) (fun _ _ => Decoder.mapOf_texts _ _)
    case creationTimestamp =>
      exact latest?_moment m.creationTimestamp (by simp) fun t ht => htime t (mem_times_creation ht)
    case deletionTimestamp =>
      exact latest?_moment m.deletionTimestamp (by simp) fun t ht => htime t (mem_times_deletion ht)
    case deletionGracePeriodSeconds =>
      exact Fields.latest?_asMembers .int m.deletionGracePeriodSeconds (by simp)
        (fun _ _ => Json.int_ne_null _) (fun n hn => hinteger _ n (mem_integers_period hn))
    case generation =>
      exact Fields.latest?_asMembers .int m.generation (by simp)
        (fun _ _ => Json.int_ne_null _) (fun n hn => hinteger _ n (mem_integers_generation hn))
    case finalizers =>
      exact Fields.latest?_asMembers textListJson m.finalizers (by simp)
        (fun _ _ => Json.array_ne_null _) (fun l _ => Decoder.list_map_eq fun _ _ => rfl)
    case managedFields =>
      refine Fields.latest?_asMembers (fun l => .array (l.map ManagedFields.toJson))
        m.managedFields (by simp) (fun _ _ => Json.array_ne_null _) (fun l hl => ?_)
      refine Decoder.list_map_eq fun e he => ManagedFields.decoder_toJson ?_ ?_
      · exact fun v hv => h.trees v (mem_trees hl he hv)
      · exact fun t ht => htime t (mem_times_managed hl he ht)
    case ownerReferences =>
      exact Fields.latest?_asMembers (fun l => .array (l.map OwnerReference.toJson))
        m.ownerReferences (by simp) (fun _ _ => Json.array_ne_null _)
        (fun l _ => Decoder.list_map_eq fun o _ => OwnerReference.decoder_toJson _ o)
    all_goals exact Fields.latest?_text _ (by simp)

/-! ## What is read again -/

/-- The entry as it is read from its text. -/
def ManagedFields.reread (e : ManagedFields) : ManagedFields :=
  { e with fields := e.fields.map Json.reread, time := e.time.map Timestamp.whole }

/-- The metadata as they are read from their text. -/
def reread (m : Metadata) : Metadata :=
  { m with
    creationTimestamp := m.creationTimestamp.map Timestamp.whole
    deletionTimestamp := m.deletionTimestamp.map Timestamp.whole
    managedFields := m.managedFields.map fun l => l.map ManagedFields.reread }

/-- An entry is read as it is if its time has no fraction and its numbers are read as they
are. -/
theorem ManagedFields.reread_eq {e : ManagedFields} (htime : ∀ t ∈ e.time, t.whole = t)
    (htree : ∀ v ∈ e.fields, v.reread = v) : e.reread = e := by
  have hfields : e.fields.map Json.reread = e.fields :=
    (Option.map_congr htree).trans Option.map_id'
  have htimes : e.time.map Timestamp.whole = e.time := (Option.map_congr htime).trans Option.map_id'
  rw [reread, hfields, htimes]

/-- Metadata that are settled are read back as they are. -/
theorem reread_eq {m : Metadata} (htimes : ∀ t ∈ m.times, t.whole = t)
    (htrees : ∀ v ∈ m.trees, v.reread = v) : m.reread = m := by
  have hcreation : m.creationTimestamp.map Timestamp.whole = m.creationTimestamp :=
    (Option.map_congr fun t ht => htimes t (mem_times_creation ht)).trans Option.map_id'
  have hdeletion : m.deletionTimestamp.map Timestamp.whole = m.deletionTimestamp :=
    (Option.map_congr fun t ht => htimes t (mem_times_deletion ht)).trans Option.map_id'
  have hmanaged : m.managedFields.map (fun l => l.map ManagedFields.reread) = m.managedFields := by
    refine (Option.map_congr fun l hl => ?_).trans Option.map_id'
    refine (List.map_congr_left fun e he => ?_).trans (List.map_id' l)
    exact ManagedFields.reread_eq (fun t ht => htimes t (mem_times_managed hl he ht))
      (fun v hv => htrees v (mem_trees hl he hv))
  rw [reread, hcreation, hdeletion, hmanaged]

/-- Times are read without their fractions. -/
theorem times_reread (m : Metadata) : m.reread.times = m.times.map Timestamp.whole := by
  have hmanaged : (m.reread.managedFields.getD []).flatMap (·.time.toList) =
      ((m.managedFields.getD []).flatMap (·.time.toList)).map Timestamp.whole := by
    cases hl : m.managedFields with
    | none => simp [reread, hl]
    | some l => simp [reread, hl, List.map_flatMap, List.flatMap_map, ManagedFields.reread,
        Option.toList_map]
  rw [times, hmanaged]
  simp [times, reread, Option.toList_map]

/-- Trees are read with each number as its text is. -/
theorem trees_reread (m : Metadata) : m.reread.trees = m.trees.map Json.reread := by
  cases hl : m.managedFields with
  | none => simp [trees, reread, hl]
  | some l => simp [trees, reread, hl, List.filterMap_map, List.map_filterMap,
      ManagedFields.reread, Function.comp_def]

/-- Metadata that are read again can be stored again. -/
theorem Storable.reread {room : Nat} {m : Metadata} (h : m.Storable room)
    (hnumbers : ∀ v ∈ m.trees, ∀ n ∈ v.numbers, n.Settles) : m.reread.Storable room := by
  constructor
  case integers => exact h.integers
  case times =>
    intro t ht
    rw [times_reread] at ht
    obtain ⟨t', ht', rfl⟩ := List.mem_map.1 ht
    exact (h.times t' ht').whole
  case trees =>
    intro v hv
    rw [trees_reread] at hv
    obtain ⟨v', hv', rfl⟩ := List.mem_map.1 hv
    obtain ⟨hnull, htree⟩ := h.trees v' hv'
    exact ⟨Json.reread_ne_null hnull, htree.reread (hnumbers v' hv')⟩

/-- An integer of 64 bits is kept exactly. -/
theorem exact_of_bounds {n : Int}
    (h : -0x8000_0000_0000_0000 ≤ n ∧ n ≤ 0x7fff_ffff_ffff_ffff) : Json.Number.exact n = true := by
  simp only [Json.Number.exact, Bool.and_eq_true, decide_eq_true_eq]
  omega

theorem reread_textMapJson (m : StringMap String) :
    (textMapJson m).reread = textMapJson m := by
  rw [textMapJson, Json.reread_record, List.map_map]
  rfl

theorem reread_textListJson (l : List String) : (textListJson l).reread = textListJson l := by
  rw [textListJson, Json.reread_array, List.map_map]
  rfl

/-- To write and read again is to write what is read again. -/
theorem ManagedFields.reread_toJson (e : ManagedFields) : e.toJson.reread = e.reread.toJson := by
  rw [toJson, Json.reread_record]
  simp only [List.map_append, Json.map_optional, Option.map_map, Function.comp_def,
    Json.reread_text, toJson, ManagedFields.reread, Timestamp.text_whole]

theorem OwnerReference.reread_toJson (o : OwnerReference) : o.toJson.reread = o.toJson := by
  rw [toJson, Json.reread_record]
  simp only [List.map_append, Json.map_optional, Option.map_map, Function.comp_def,
    Json.reread_text, Json.reread_bool, List.map_cons, List.map_nil]

/-- The text of metadata is read as that of the metadata that are read from it. -/
theorem reread_toJson {room : Nat} {m : Metadata} (h : m.Storable room) :
    m.toJson.reread = m.reread.toJson := by
  have hinteger : ∀ n ∈ m.integers, (Json.int n).reread = .int n := fun n hn =>
    Json.reread_int (exact_of_bounds (h.integers n hn))
  have hperiod : m.deletionGracePeriodSeconds.map (fun n => (Json.int n).reread) =
      m.deletionGracePeriodSeconds.map .int := Option.map_congr fun n hn =>
    hinteger n (mem_integers_period hn)
  have hgeneration : m.generation.map (fun n => (Json.int n).reread) =
      m.generation.map .int := Option.map_congr fun n hn =>
    hinteger n (mem_integers_generation hn)
  rw [toJson, Json.reread_record]
  simp only [List.map_append, Json.map_optional, Option.map_map, Function.comp_def,
    Json.reread_text, reread_textMapJson, reread_textListJson, Json.reread_array, List.map_map,
    ManagedFields.reread_toJson, OwnerReference.reread_toJson, hperiod, hgeneration, toJson, reread,
    Timestamp.text_whole]

theorem legible_textMapJson (m : StringMap String) : Legible (textMapJson m) := by
  refine Json.legible_record fun e he => ?_
  obtain ⟨e', -, rfl⟩ := List.mem_map.1 he
  exact .text e'.2

theorem legible_texts (key : String) (a : Option String) :
    ∀ m ∈ optional key (a.map .text), Legible m.2 := Json.legible_optional fun s _ => .text s

theorem legible_moments (key : String) (a : Option Timestamp) :
    ∀ m ∈ optional key (a.map fun t => .text t.text), Legible m.2 :=
  Json.legible_optional fun t _ => .text t.text

/-- An entry can be printed and read if its fields can. -/
theorem ManagedFields.legible_toJson {e : ManagedFields} (h : ∀ v ∈ e.fields, Legible v) :
    Legible e.toJson := by
  have hfields : ∀ m ∈ optional "fieldsV1" e.fields, Legible m.2 := by
    simpa using @Json.legible_optional Json "fieldsV1" id e.fields h
  refine Json.legible_record ?_
  simp only [List.forall_mem_append, and_assoc]
  exact ⟨legible_texts _ _, legible_texts _ _, hfields, legible_texts _ _, legible_texts _ _,
    legible_texts _ _, legible_moments _ _⟩

theorem OwnerReference.legible_toJson (o : OwnerReference) : Legible o.toJson := by
  have hbool : ∀ key (a : Option Bool), ∀ m ∈ optional key (a.map .bool), Legible m.2 :=
    fun key a => Json.legible_optional fun b _ => .bool b
  refine Json.legible_record ?_
  simp only [List.forall_mem_append, and_assoc, List.forall_mem_cons]
  exact ⟨.text _, List.forall_mem_nil _, hbool _ _, hbool _ _, .text _, .text _, .text _,
    List.forall_mem_nil _⟩

/-- Metadata that can be read again have a text of JSON. -/
theorem legible_toJson {room : Nat} {m : Metadata} (h : m.Storable room)
    (hnumbers : ∀ v ∈ m.trees, ∀ n ∈ v.numbers, n.Settles) : Legible m.toJson := by
  have hmap : ∀ key (a : Option (StringMap String)),
      ∀ m ∈ optional key (a.map textMapJson), Legible m.2 :=
    fun key a => Json.legible_optional fun m _ => legible_textMapJson m
  have hinteger : ∀ n ∈ m.integers, Legible (.int n) := fun n hn =>
    Json.legible_int (exact_of_bounds (h.integers n hn))
  refine Json.legible_record ?_
  simp only [List.forall_mem_append, and_assoc]
  refine ⟨hmap _ _, legible_moments _ _, Json.legible_optional fun n hn => ?_,
    legible_moments _ _, Json.legible_optional fun l _ => ?_, legible_texts _ _,
    Json.legible_optional fun n hn => ?_, hmap _ _, Json.legible_optional fun l hl => ?_,
    legible_texts _ _, legible_texts _ _, Json.legible_optional fun l _ => ?_, legible_texts _ _,
    legible_texts _ _, legible_texts _ _⟩
  · exact hinteger n (mem_integers_period hn)
  · exact Json.legible_array fun s _ => .text s
  · exact hinteger n (mem_integers_generation hn)
  · refine Json.legible_array fun e he => ManagedFields.legible_toJson fun v hv => ?_
    have hmem := mem_trees hl he hv
    exact (h.trees v hmem).2.legible (hnumbers v hmem)
  · exact Json.legible_array fun o _ => OwnerReference.legible_toJson o

end Metadata

/-! ## What was read -/

namespace Json

variable {α : Type} {d : Decoder α} {room : Nat} {v : Json}

theorem misfit_ne_value (v : Json) (a : α) : misfit v ≠ .value a := by
  intro h
  unfold misfit at h
  split at h <;> cases h

/-- What was read of an optional field was read of a value there. -/
theorem Fields.exists_of_latest? {f : Fields} {name : String} {o : Option α} {a : α}
    (h : f.latest? name d = .value o) (ha : a ∈ o) : ∃ v, v ≠ .null ∧ d f.room v = .value a := by
  obtain rfl : o = some a := ha
  obtain ⟨-, hnone⟩ | ⟨v, -, hread⟩ := last_of_lastOf h
  · cases hnone
  · have hnull : v ≠ .null := by
      rintro rfl
      cases hread
    rw [nullable_of_ne hnull, Decoded.map_eq_value_iff] at hread
    obtain ⟨b, hread, heq⟩ := hread
    exact ⟨v, hnull, Option.some.inj heq ▸ hread⟩

/-- An integer that was read is within the bounds. -/
theorem Decoder.integer_bounds {low high n : Int} (h : integer low high room v = .value n) :
    low ≤ n ∧ n ≤ high := by
  unfold integer at h
  split at h
  · split at h
    · next hbounds =>
      cases h
      simpa using hbounds
    · exact absurd h (misfit_ne_value _ _)
  · exact absurd h (misfit_ne_value _ _)

theorem Decoder.parsed_eq_value {read : String → Option α} {a : α}
    (h : parsed read room v = .value a) : ∃ s, read s = some a := by
  unfold parsed at h
  split at h
  · next s =>
    cases hread : read s with
    | none => rw [hread] at h; cases h
    | some b => rw [hread] at h; cases h; exact ⟨s, hread⟩
  · exact absurd h (misfit_ne_value _ _)

/-- Each member of a list that was read was read of some value. -/
theorem Decoder.exists_of_mem_list {l : List α} {a : α}
    (h : Decoder.list d (room + 1) v = .value l) (ha : a ∈ l) : ∃ w, d room w = .value a := by
  unfold list at h
  split at h
  · obtain ⟨w, -, hw⟩ := exists_mem_of_forall₂ (decodeItems_eq_value_iff.1 h).flip ha
    exact ⟨w, hw⟩
  · exact absurd h (misfit_ne_value _ _)

end Json

namespace Metadata

theorem int64_bounds {f : Fields} {name : String} {o : Option Int}
    (h : f.latest? name Decoder.int64 = .value o) {n : Int} (hn : n ∈ o) :
    -0x8000_0000_0000_0000 ≤ n ∧ n ≤ 0x7fff_ffff_ffff_ffff := by
  obtain ⟨v, -, hv⟩ := Fields.exists_of_latest? h hn
  exact Decoder.integer_bounds hv

/-- A time that was read has a text. -/
theorem moment_inRange {f : Fields} {name : String} {o : Option Timestamp}
    (h : f.latest? name moment = .value o) {t : Timestamp} (ht : t ∈ o) : t.InRange := by
  obtain ⟨v, -, hv⟩ := Fields.exists_of_latest? h ht
  obtain ⟨s, hs⟩ := Decoder.parsed_eq_value hv
  exact Timestamp.inRange_of_parse? hs

/-- Managed fields that were read have times with a text, and trees. -/
theorem ManagedFields.of_decoder {room : Nat} {v : Json} {e : ManagedFields}
    (h : decoder (room + 1) v = .value e) :
    (∀ t ∈ e.time, t.InRange) ∧ ∀ v ∈ e.fields, v ≠ .null ∧ Tree room v := by
  obtain ⟨below, ms, hroom, rfl, hparts⟩ := Decoder.lenient_eq_value h
  obtain rfl := Nat.succ.inj hroom
  simp only [Decoded.seq_eq_value_iff, Decoded.map_eq_value_iff] at hparts
  obtain ⟨_, time, ⟨_, _, ⟨_, _, ⟨_, _, ⟨_, fields, ⟨_, _, ⟨_, _, rfl⟩, _, rfl⟩, hfields, rfl⟩, _,
    rfl⟩, _, rfl⟩, _, rfl⟩, htime, rfl⟩ := hparts
  constructor
  · exact fun t ht => moment_inRange htime ht
  · intro v hv
    obtain ⟨w, hnull, hw⟩ := Fields.exists_of_latest? hfields hv
    refine ⟨?_, Tree.of_decoder w hw⟩
    rintro rfl
    exact hnull (Tree.eq_null_of_decoder hw)

/-- Metadata that were read can be read again. -/
theorem storable_of_decoder {room : Nat} {v : Json} {m : Metadata}
    (h : decoder (room + 3) v = .value m) : m.Storable room := by
  obtain ⟨below, ms, hroom, rfl, -⟩ := Decoder.lenient_eq_value h
  obtain ⟨-, hreads⟩ := decoder_object_eq_value_iff.1 h
  have hmanaged : ∀ e ∈ m.managedFields.getD [],
      (∀ t ∈ e.time, t.InRange) ∧ ∀ v ∈ e.fields, v ≠ .null ∧ Tree room v := by
    intro e he
    cases hl : m.managedFields with
    | none =>
      rw [hl] at he
      cases he
    | some l =>
      rw [hl] at he
      obtain ⟨v, -, hv⟩ := Fields.exists_of_latest? hreads.managedFields hl
      obtain ⟨w, hw⟩ := Decoder.exists_of_mem_list hv he
      exact ManagedFields.of_decoder hw
  constructor
  case integers =>
    intro n hn
    rcases List.mem_append.1 hn with hn | hn
    · exact int64_bounds hreads.deletionGracePeriodSeconds (Option.mem_toList.1 hn)
    · exact int64_bounds hreads.generation (Option.mem_toList.1 hn)
  case times =>
    intro t ht
    rcases List.mem_append.1 ht with ht | ht
    · rcases List.mem_append.1 ht with ht | ht
      · exact moment_inRange hreads.creationTimestamp (Option.mem_toList.1 ht)
      · exact moment_inRange hreads.deletionTimestamp (Option.mem_toList.1 ht)
    · obtain ⟨e, he, ht⟩ := List.mem_flatMap.1 ht
      exact (hmanaged e he).1 t (Option.mem_toList.1 ht)
  case trees =>
    intro v hv
    obtain ⟨e, he, hv⟩ := List.mem_filterMap.1 hv
    exact (hmanaged e he).2 v hv

end Metadata

end ConnectorKeeper
