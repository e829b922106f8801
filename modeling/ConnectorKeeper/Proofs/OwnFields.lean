import ConnectorKeeper.Admission.Decision
import ConnectorKeeper.Proofs.ConditionMerges
import ConnectorKeeper.Proofs.FinalizerUpdates
import ConnectorKeeper.Proofs.RequestProtocol

/-!
# The fields that a pass writes

A pass changes three places of a document: the finalizers, the phase and the conditions
(`ownPlaces`).  All other places keep their values (`Json.at?_finalizersPatch`,
`Json.at?_statusPatch`), and so do the finalizers and the conditions of others.

The patches of a pass are made from one snapshot.  At most the addition of the finalizer
comes before another patch, and it leaves the status that the other one was made from
(`Record.writes_of_trace`, `StoredRecord.Rewritten`).  As no patch touches the spec, our
own webhook lets every one of them pass, without asking a cluster
(`StoredRecord.ownWrite_of_trace`).
-/

namespace ConnectorKeeper

open Json (valuesAt valueAt setKey decode?)
open Program (Exchange)

/-! ## Places in a document -/

namespace Json

/-- The value at a place, the last one where a key is repeated. -/
def at? : List String → Json → Option Json
  | [], v => some v
  | key :: path, v => (v.member? key).bind (at? path)

variable {key : String} {ms changes : List (Option String × Json)}

theorem member?_eq_getLast? (key : String) (v : Json) :
    v.member? key = (valuesAt key v.members).getLast? := by
  have hfind : ∀ ms : List (Option String × Json),
      (ms.find? (·.1 == some key)).map (·.2) = (valuesAt key ms).head? := by
    intro ms
    induction ms with
    | nil => rfl
    | cons m ms ih =>
      obtain ⟨k, w⟩ := m
      by_cases hk : k = some key
      · simp [hk, valuesAt_cons_self]
      · simp [hk, valuesAt_cons_of_ne hk, ih]
  cases v with
  | object ms =>
    rw [member?, hfind, List.getLast?_eq_head?_reverse]
    simp [valuesAt, members, List.filterMap_reverse]
  | null | bool | number | string | array | cut => rfl

/-- A patch of one member leaves the places outside of it, and those inside that it keeps. -/
theorem at?_merge (hsingle : (valuesAt key ms).length ≤ 1) {path : List String}
    (hpath : ¬ path <+: [key])
    (hkeep : ∀ k rest, path = key :: k :: rest →
      ((valueAt (some key) ms).merge (.object changes)).member? k =
        (valueAt (some key) ms).member? k) :
    at? path ((Json.object ms).merge (.record [(key, .object changes)])) =
      at? path (.object ms) := by
  rw [merge_member]
  match path with
  | [] => exact absurd List.nil_prefix hpath
  | k :: rest =>
    by_cases hk : k = key
    · subst hk
      match rest with
      | [] => exact absurd List.prefix_rfl hpath
      | k' :: rest =>
        have hkeep := hkeep k' rest rfl
        simp only [at?, member?_eq_getLast? k, members, valuesAt_setKey_self,
          List.getLast?_singleton, Option.bind_some]
        rw [hkeep]
        rcases hvalues : valuesAt k ms with _ | ⟨v, _ | ⟨v', vs⟩⟩
        · rw [valueAt_of_valuesAt_nil hvalues]
          rfl
        · rw [valueAt_of_valuesAt hvalues]
          rfl
        · simp [hvalues] at hsingle
    · simp only [at?, member?_eq_getLast? k, members]
      rw [valuesAt_setKey_of_ne (Ne.symm hk)]

end Json

/-- The places that a pass writes. -/
def ownPlaces : List (List String) :=
  [["metadata", "finalizers"], ["status", "phase"], ["status", "conditions"]]

/-- A place that neither lies within one of ours nor holds one. -/
def Foreign (path : List String) : Prop := ∀ own ∈ ownPlaces, ¬ path <+: own ∧ ¬ own <+: path

/-! ## What the patches keep -/

namespace Json

theorem Decoder.eq_text_of_nullable_string {room : Nat} {v : Json} {s : String}
    (h : Decoder.nullable Decoder.string room v = .value (some s)) : v = .text s := by
  cases v with
  | string t =>
    cases t with
    | some t =>
      cases h
      rfl
    | none => cases h
  | null | bool | array | object | cut => cases h
  | number n =>
    obtain ⟨t, ht, -⟩ := Decoded.map_eq_value_iff.1 h
    cases hn : n.finite <;> simp [string, misfit, hn, Decoded.fail] at ht

end Json

/-- The version of metadata is the text that is last at its place. -/
theorem Metadata.getLast?_resourceVersion {room : Nat} {mm : List (Option String × Json)}
    {m : Metadata} (h : decoder room (.object mm) = .value m) {version : String}
    (hversion : m.resourceVersion = some version) :
    (valuesAt "resourceVersion" mm).getLast? = some (.text version) := by
  obtain ⟨below, _, rfl, -⟩ := Json.Decoder.lenient_eq_value h
  obtain ⟨-, hreads⟩ := decoder_object_eq_value_iff.1 h
  have hread := hreads.resourceVersion
  rw [hversion] at hread
  obtain ⟨-, hnone⟩ | ⟨v, hv, hvalue⟩ := Json.Fields.last_of_lastOf hread
  · cases hnone
  · have hvalues := Json.Fields.values_numbered fieldNames below false "resourceVersion" 0 mm
    rw [Json.Fields.values] at hvalues
    rw [← hvalues, hv, Json.Decoder.eq_text_of_nullable_string hvalue]

namespace Json

variable {ms : List (Option String × Json)} {r : Record} {path : List String}

theorem exists_valuesAt_metadata (h : decode? Record.decoder (.object ms) = some r) :
    ∃ mm below, valuesAt "metadata" ms = [.object mm] ∧
      Metadata.decoder below (.object mm) = .value r.metadata := by
  rw [decode?, Decoded.toOption_eq_some_iff] at h
  obtain ⟨below, -, ⟨v, hv, hread⟩, -⟩ := Record.decoder_object_eq_value h
  obtain ⟨mm, _, rfl, -⟩ := Metadata.decoder_eq_value hread
  exact ⟨mm, below, hv, hread⟩

/-- A patch of the finalizers, made from the record that the document reads as, leaves all
other places. -/
theorem at?_finalizersPatch (h : decode? Record.decoder (.object ms) = some r) (l : List String)
    (hpath : Foreign path) :
    at? path ((Json.object ms).merge (Store.finalizersPatch r l)) = at? path (.object ms) := by
  obtain ⟨mm, below, hvalues, hread⟩ := exists_valuesAt_metadata h
  obtain ⟨hout, hin⟩ := hpath ["metadata", "finalizers"] (by simp [ownPlaces])
  refine at?_merge (by simp [hvalues]) ?_ ?_
  · intro hwithin
    exact hout (hwithin.trans ⟨["finalizers"], rfl⟩)
  · rintro k rest rfl
    have hk : "finalizers" ≠ k := by
      rintro rfl
      exact hin ⟨rest, rfl⟩
    rw [valueAt_of_valuesAt hvalues, member?_eq_getLast?, member?_eq_getLast?]
    cases hversion : r.metadata.resourceVersion with
    | none =>
      simp [members, optional, Metadata.textListJson, mergeMembers, merge,
        valuesAt_setKey_of_ne hk]
    | some version =>
      by_cases hsame : "resourceVersion" = k
      · subst hsame
        rw [members, Metadata.getLast?_resourceVersion hread hversion]
        simp [members, optional, Metadata.textListJson, text, mergeMembers, merge,
          valuesAt_setKey_self]
      · simp [members, optional, Metadata.textListJson, text, mergeMembers, merge,
          valuesAt_setKey_of_ne hk, valuesAt_setKey_of_ne hsame]

theorem length_valuesAt_status (h : decode? Record.decoder (.object ms) = some r) :
    (valuesAt "status" ms).length ≤ 1 := by
  rw [decode?, Decoded.toOption_eq_some_iff] at h
  obtain ⟨below, -, -, -, ⟨hnone, -⟩ | ⟨v, hv, -⟩⟩ := Record.decoder_object_eq_value h
  · simp [hnone]
  · simp [hv]

/-- A patch of the status leaves all other places. -/
theorem at?_statusPatch (h : decode? Record.decoder (.object ms) = some r) (st : Status)
    (hpath : Foreign path) :
    at? path ((Json.object ms).merge (Store.statusPatch st)) = at? path (.object ms) := by
  obtain ⟨hout, hphase⟩ := hpath ["status", "phase"] (by simp [ownPlaces])
  obtain ⟨-, hconditions⟩ := hpath ["status", "conditions"] (by simp [ownPlaces])
  refine at?_merge (length_valuesAt_status h) ?_ ?_
  · intro hwithin
    exact hout (hwithin.trans ⟨["phase"], rfl⟩)
  · rintro k rest rfl
    have hk : "phase" ≠ k := by
      rintro rfl
      exact hphase ⟨rest, rfl⟩
    have hk' : "conditions" ≠ k := by
      rintro rfl
      exact hconditions ⟨rest, rfl⟩
    rw [member?_eq_getLast?, member?_eq_getLast?]
    simp [members, text, mergeMembers, merge, valuesAt_setKey_of_ne hk, valuesAt_setKey_of_ne hk']

end Json

/-! ## The patches of a pass -/

/-- The patches that a pass over a record may send. -/
inductive Record.Writes (r : Record) : Json → Prop
  | finalizers {l : List String}
      (h : l.filter (· ≠ finalizer) = r.finalizers.filter (· ≠ finalizer)) :
      Writes r (Store.finalizersPatch r l)
  | status (phase : Phase) (reason message now : String) :
      Writes r (Store.statusPatch (r.currentStatus.next phase (.synced reason message now)))

theorem Store.body_of_mayAsk_patch {r : Record} {part : String} {body : Json} {q : Api.Request}
    (h : (patch r part body).MayAsk (.api q)) : q.method = .patch ∧ q.body = some body := by
  obtain ⟨e, -, hpatch⟩ | ⟨q', -, hmethod, hbody, hpatch⟩ := cases_of_patch r part body
  · rw [hpatch] at h
    exact absurd h (Program.not_mayAsk_done _ _)
  · rw [hpatch, Program.mayAsk_ask] at h
    obtain heq | ⟨reply, h⟩ := h
    · cases heq
      exact ⟨hmethod, hbody⟩
    · exact absurd h (Program.not_mayAsk_done _ _)

theorem Store.Change.sends_of_mayAsk {change : Change} {r : Record} {q : Api.Request}
    (h : (change.call r).MayAsk (.api q)) : change.Sends r q := by
  obtain ⟨result, hcall⟩ | ⟨q', hsends⟩ := change.cases_of_call r
  · rw [hcall] at h
    exact absurd h (Program.not_mayAsk_done _ _)
  · rw [hsends.call, Program.mayAsk_ask] at h
    obtain heq | ⟨reply, h⟩ := h
    · cases heq
      exact hsends
    · exact absurd h (Program.not_mayAsk_done _ _)

theorem Connect.exchange_asks_cluster {α : Type} {host : String} {segments : List String}
    {method : Http.Method} {body : Option Json} {judge : Http.Response → Except ClusterError α}
    {q : Api.Request} : ¬ (exchange host segments method body judge).MayAsk (.api q) := by
  obtain ⟨e, -, hsend⟩ | ⟨base, q', lost, -, -, -, -, -, hsend⟩ :=
    cases_of_exchange host segments method body judge
  · rw [hsend]
    exact Program.not_mayAsk_done _ _
  · rw [hsend, Program.mayAsk_ask]
    rintro (heq | ⟨reply, h⟩)
    · cases heq
    · exact Program.not_mayAsk_done _ _ h

namespace Record

variable {r : Record} {resync : Duration} {q : Api.Request}

theorem writes_of_mayAsk (h : (pass resync r).overWire.MayAsk (.api q)) :
    q.method = .patch ∧ ∃ patch, q.body = some patch ∧ r.Writes patch := by
  obtain ⟨n, hn, hq⟩ := Program.exists_mayAsk_of_run h
  obtain ⟨hconcerns, hreports⟩ := pass_asks resync r n hn
  cases n with
  | lookup | readConfig | readStatus | create | update | delete =>
    exact absurd hq Connect.exchange_asks_cluster
  | clock =>
    have hclock : (Program.question Wire.clock).MayAsk (.api q) := hq
    simp [Program.question] at hclock
  | addFinalizer r' =>
    obtain ⟨rfl, -⟩ := hconcerns
    have hsends : Store.Change.add.Sends r' q := Store.Change.sends_of_mayAsk hq
    exact ⟨hsends.method, _, hsends.body, .finalizers (Store.Change.foreign_edit ..)⟩
  | removeFinalizer r' =>
    obtain ⟨rfl, -⟩ := hconcerns
    have hsends : Store.Change.remove.Sends r' q := Store.Change.sends_of_mayAsk hq
    exact ⟨hsends.method, _, hsends.body, .finalizers (Store.Change.foreign_edit ..)⟩
  | patchStatus r' st =>
    obtain ⟨rfl, -⟩ := hconcerns
    obtain ⟨phase, reason, message, now, rfl⟩ := hreports
    obtain ⟨hmethod, hbody⟩ := Store.body_of_mayAsk_patch hq
    exact ⟨hmethod, _, hbody, .status phase reason message now⟩

section Order

variable {before after : List (Exchange Wire.Reply)} {reply : Api.Reply}
  {result : Except PassError Outcome}

/-- Before a patch of a pass nothing but patches of the finalizers was sent to the API server,
and before one of those nothing at all. -/
theorem writes_of_trace
    (h : (pass resync r).overWire.Trace (before ++ Wire.ofApi q reply :: after) result) :
    ∃ patch, (q.method = .patch ∧ q.body = some patch ∧ r.Writes patch) ∧
      (∀ q' reply', Wire.ofApi q' reply' ∈ before →
        ∃ l, q'.body = some (Store.finalizersPatch r l)) ∧
      ((∃ l, patch = Store.finalizersPatch r l) →
        ∀ q' reply', Wire.ofApi q' reply' ∉ before) := by
  have hsend : r.MaySend before (.api q) := (obeys_pass resync r).rule_of_trace h rfl
  have hasked : ∀ q' reply', Wire.ofApi q' reply' ∈ before ++ Wire.ofApi q reply :: after →
      q'.method = .patch ∧ ∃ patch, q'.body = some patch ∧ r.Writes patch := by
    intro q' reply' hmem
    exact writes_of_mayAsk (Program.mayAsk_of_trace h hmem)
  obtain ⟨hmethod, patch, hbody, hwrites⟩ := hasked q reply (by simp)
  refine ⟨patch, ⟨hmethod, hbody, hwrites⟩, ?_, ?_⟩
  · intro q' reply' hmem
    obtain ⟨hmethod', patch', hbody', hwrites'⟩ := hasked q' reply' (by simp [hmem])
    cases hwrites' with
    | finalizers => exact ⟨_, hbody'⟩
    | status =>
      have hsets : (Wire.api q').SetsStatus :=
        ⟨hmethod', _, hbody', (Store.member?_statusPatch _).2⟩
      exact absurd (.inr hsets) (hsend.open _ hmem)
  · rintro ⟨l, rfl⟩ q' reply' hmem
    cases hsend with
    | adopt | nameless => cases hmem
    | report _ _ _ hsets => exact (finalizersPatch_sets hmethod hbody).2 hsets
    | release _ _ hx =>
      obtain ⟨q'', response, rfl, -⟩ := hx
      cases List.mem_singleton.1 hmem

end Order

end Record

/-! ## Documents during a pass -/

/-- What may become of a document as the exchanges of a pass take place.  A patch is applied or
not.  Where it is, the API server may write metadata of its own. -/
inductive StoredRecord.Rewritten (doc : StoredRecord) :
    List (Exchange Wire.Reply) → StoredRecord → Prop
  | start : Rewritten doc [] doc
  | passed {w : List (Exchange Wire.Reply)} {d : StoredRecord} {x : Exchange Wire.Reply}
      (h : Rewritten doc w d) : Rewritten doc (w ++ [x]) d
  | applied {w : List (Exchange Wire.Reply)} {d d' : StoredRecord} {q : Api.Request}
      {reply : Api.Reply} {patch : Json} {stamp : List (Option String × Json)}
      (h : Rewritten doc w d) (hbody : q.body = some patch)
      (hd' : Json.object d'.members =
        ((Json.object d.members).merge patch).merge (.record [("metadata", .object stamp)])) :
      Rewritten doc (w ++ [Wire.ofApi q reply]) d'

namespace StoredRecord

variable {doc d d' : StoredRecord} {w : List (Exchange Wire.Reply)}

theorem Rewritten.eq_of_unasked (h : doc.Rewritten w d)
    (hw : ∀ q reply, Wire.ofApi q reply ∉ w) : d = doc := by
  induction h with
  | start => rfl
  | passed _ ih =>
    refine ih ?_
    intro q reply hmem
    exact hw q reply (List.mem_append_left _ hmem)
  | @applied _ _ _ q reply => exact absurd (by simp) (hw q reply)

theorem status_of_merge_metadata {ms : List (Option String × Json)} {r r' : Record}
    {changes : List (Option String × Json)} (h : decode? Record.decoder (.object ms) = some r)
    (h' : decode? Record.decoder
      ((Json.object ms).merge (.record [("metadata", .object changes)])) = some r') :
    r'.status = r.status := by
  rw [decode?, Json.Decoded.toOption_eq_some_iff] at h h'
  rw [Json.merge_member, Json.members] at h'
  obtain ⟨below, hroom, -, -, hstatus⟩ := Record.decoder_object_eq_value h
  obtain ⟨below', hroom', -, -, hstatus'⟩ := Record.decoder_object_eq_value h'
  obtain rfl := Nat.succ.inj (hroom.symm.trans hroom')
  rw [Json.valuesAt_setKey_of_ne (by decide)] at hstatus'
  obtain ⟨hnil, hnone⟩ | ⟨v, hv, hread⟩ := hstatus
  · obtain ⟨-, hnone'⟩ | ⟨v', hv', -⟩ := hstatus'
    · exact hnone'.trans hnone.symm
    · cases hnil.symm.trans hv'
  · obtain ⟨hnil', -⟩ | ⟨v', hv', hread'⟩ := hstatus'
    · cases hv.symm.trans hnil'
    · cases hv.symm.trans hv'
      exact Json.Decoded.value.inj (hread'.symm.trans hread)

/-- Patches of the finalizers leave the status. -/
theorem Rewritten.status (h : doc.Rewritten w d)
    (hw : ∀ q reply, Wire.ofApi q reply ∈ w →
      ∃ r l, q.body = some (Store.finalizersPatch r l)) : d.record.status = doc.record.status := by
  induction h with
  | start => rfl
  | passed _ ih =>
    refine ih ?_
    intro q reply hmem
    exact hw q reply (List.mem_append_left _ hmem)
  | @applied _ d d' q reply patch stamp _ hbody hd' ih =>
    obtain ⟨r, l, hpatch⟩ := hw q reply (by simp)
    obtain rfl := Option.some.inj (hbody.symm.trans hpatch)
    have hmerged := Record.decode_merge_finalizers d.reads r l
    have hreads := d'.reads
    obtain ⟨ms, hms⟩ : ∃ ms, (Json.object d.members).merge (Store.finalizersPatch r l) =
      .object ms := ⟨_, Json.merge_member ..⟩
    rw [hms] at hmerged hd'
    rw [hd'] at hreads
    have hstamped : d'.record.status =
        (d.record.withFinalizers l r.metadata.resourceVersion).status :=
      status_of_merge_metadata hmerged hreads
    refine hstamped.trans (ih ?_)
    intro q' reply' hmem
    exact hw q' reply' (List.mem_append_left _ hmem)

/-! ## Own fields -/

/-- A document differs from another one in our fields only, and there in what is ours. -/
structure OwnWrite (d d' : StoredRecord) : Prop where
  /-- Other places have their values. -/
  outside : ∀ path, Foreign path →
    (Json.object d'.members).at? path = (Json.object d.members).at? path
  /-- The finalizers of others are as they were. -/
  finalizers : d'.record.finalizers.filter (· ≠ finalizer) =
    d.record.finalizers.filter (· ≠ finalizer)
  /-- The conditions of others are as they were. -/
  conditions : d'.record.currentStatus.conditions.filter (·.type ≠ syncedType) =
    d.record.currentStatus.conditions.filter (·.type ≠ syncedType)
  /-- The webhook allows the change at once. -/
  admitted : ∀ (review : Admission.Review) (uid : String),
    review.request = some ⟨uid, .update, some d'.record, some d.record⟩ →
      review.answer = .done (.ofVerdict review ⟨uid, .update, some d'.record, some d.record⟩ .allow)

theorem admitted_of_spec (hspec : d'.record.spec = d.record.spec) (review : Admission.Review)
    (uid : String) (h : review.request = some ⟨uid, .update, some d'.record, some d.record⟩) :
    review.answer =
      .done (.ofVerdict review ⟨uid, .update, some d'.record, some d.record⟩ .allow) := by
  simp only [Admission.Review.answer, h, Admission.Request.verdict,
    Admission.Request.unchangedOrDeleting, hspec]
  simp

theorem exists_merged {changes : List (Option String × Json)} {r : Record}
    (h : decode? Record.decoder ((Json.object d.members).merge (.object changes)) = some r) :
    ∃ d' : StoredRecord,
      Json.object d'.members = (Json.object d.members).merge (.object changes) ∧
        d'.record = r := by
  have hmerge : (Json.object d.members).merge (.object changes) =
      .object (Json.mergeMembers d.members changes) := by
    rw [Json.merge, Json.members]
  exact ⟨⟨_, r, hmerge ▸ h⟩, hmerge.symm, rfl⟩

/-- The finalizers of a document are replaced, in a patch made from its record. -/
theorem exists_ownWrite_finalizers (d : StoredRecord) {l : List String}
    (hl : l.filter (· ≠ finalizer) = d.record.finalizers.filter (· ≠ finalizer)) :
    ∃ d' : StoredRecord,
      Json.object d'.members = (Json.object d.members).merge (Store.finalizersPatch d.record l) ∧
        d.OwnWrite d' := by
  obtain ⟨d', hmembers, hrecord⟩ :=
    exists_merged (Record.decode_merge_finalizers d.reads d.record l)
  refine ⟨d', hmembers, ?_⟩
  constructor
  case outside =>
    intro path hpath
    exact hmembers ▸ Json.at?_finalizersPatch d.reads l hpath
  case finalizers =>
    rw [hrecord]
    exact hl
  case conditions =>
    rw [hrecord]
    rfl
  case admitted =>
    intro review uid hreview
    exact admitted_of_spec (by rw [hrecord]; rfl) review uid hreview

/-- The status of a document is replaced by one that a report makes of it. -/
theorem exists_ownWrite_status (d : StoredRecord) (phase : Phase) (reason message now : String) :
    ∃ d' : StoredRecord,
      Json.object d'.members = (Json.object d.members).merge (Store.statusPatch
        (d.record.currentStatus.next phase (.synced reason message now))) ∧ d.OwnWrite d' := by
  obtain ⟨d', hmembers, hrecord⟩ := exists_merged (Record.decode_merge_status d.reads
    (d.record.currentStatus.next phase (.synced reason message now)))
  refine ⟨d', hmembers, ?_⟩
  constructor
  case outside =>
    intro path hpath
    exact hmembers ▸ Json.at?_statusPatch d.reads _ hpath
  case finalizers =>
    rw [hrecord]
    rfl
  case conditions =>
    rw [hrecord]
    exact d.record.currentStatus.foreign_next phase (.synced reason message now)
  case admitted =>
    intro review uid hreview
    exact admitted_of_spec (by rw [hrecord]; rfl) review uid hreview

/-- Each patch of a pass changes what is ours, and the webhook allows it at once. -/
theorem ownWrite_of_trace {doc : StoredRecord} {resync : Duration}
    {before after : List (Exchange Wire.Reply)} {q : Api.Request} {reply : Api.Reply}
    {result : Except PassError Outcome}
    (h : (pass resync doc.record).overWire.Trace (before ++ Wire.ofApi q reply :: after) result) :
    q.method = .patch ∧ ∃ patch, q.body = some patch ∧ ∀ d, doc.Rewritten before d →
      ∃ d' : StoredRecord, Json.object d'.members = (Json.object d.members).merge patch ∧
        d.OwnWrite d' := by
  obtain ⟨patch, ⟨hmethod, hbody, hwrites⟩, hearlier, hfirst⟩ := Record.writes_of_trace h
  refine ⟨hmethod, patch, hbody, ?_⟩
  intro d hd
  cases hwrites with
  | @finalizers l hl =>
    obtain rfl := hd.eq_of_unasked (hfirst ⟨l, rfl⟩)
    exact exists_ownWrite_finalizers d hl
  | status phase reason message now =>
    have hstatus : d.record.status = doc.record.status := by
      refine hd.status ?_
      intro q' reply' hmem
      exact ⟨_, hearlier q' reply' hmem⟩
    have hcurrent : doc.record.currentStatus = d.record.currentStatus := by
      rw [Record.currentStatus, Record.currentStatus, hstatus]
    rw [hcurrent]
    exact exists_ownWrite_status d phase reason message now

/-- A new record, which gets our finalizer first. -/
theorem ownWrite_of_trace_orders :
    ∃ q reply after result, (pass (.ofSeconds 60) orders.record).overWire.Trace
        ([] ++ Wire.ofApi q reply :: after) result ∧
      q.method = .patch ∧ ∃ patch, q.body = some patch ∧ ∃ d' : StoredRecord,
        Json.object d'.members = (Json.object orders.members).merge patch ∧
          orders.OwnWrite d' := by
  have htrace := Program.trace_transcript Record.acceptAll
    (pass (.ofSeconds 60) orders.record).overWire
  obtain ⟨next, hpass⟩ : ∃ next, (pass (.ofSeconds 60) orders.record).overWire =
      Store.addFinalizer orders.record >>= next := ⟨_, rfl⟩
  obtain ⟨q, resume, hask, -⟩ :=
    Store.Change.exists_ask_of_call .add orders_addressable fun _ => by decide
  change Store.addFinalizer orders.record = _ at hask
  have hfirst : ∃ reply after, ((pass (.ofSeconds 60) orders.record).overWire.transcript
      Record.acceptAll).1 = Wire.ofApi q reply :: after := by
    rw [hpass, hask, Program.ask_bind]
    exact ⟨_, _, rfl⟩
  obtain ⟨reply, after, hafter⟩ := hfirst
  rw [hafter] at htrace
  obtain ⟨hmethod, patch, hbody, hwrite⟩ :=
    @ownWrite_of_trace orders (.ofSeconds 60) [] after q reply _ htrace
  exact ⟨q, reply, after, _, htrace, hmethod, patch, hbody, hwrite orders .start⟩

end StoredRecord

end ConnectorKeeper
