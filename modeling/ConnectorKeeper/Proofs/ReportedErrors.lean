import ConnectorKeeper.Proofs.ClusterRequests
import ConnectorKeeper.Proofs.Configurations
import ConnectorKeeper.Proofs.FailsClosed

/-!
# Errors that a cluster reports

A cluster lists what is wrong with a configuration by key, within reports on single keys, or
in both ways.  The field errors made of it are those of the map, in the order of their
keys, and then what the reports on single keys add, in the order of its first appearance
(`ValidationReport.Added`).

So no error is lost or counted twice, and where it is listed does not matter: reports that
list the same errors give the same field errors and the same verdict
(`ValidationReport.fieldErrors_complete`).
-/

namespace ConnectorKeeper

open Program (Exchange)

/-- A path of a field error tells the key. -/
theorem configPath_injective : Function.Injective configPath := by
  intro a b h
  have hlist : "spec.config.".toList ++ a.toList = "spec.config.".toList ++ b.toList := by
    simpa [configPath] using congrArg String.toList h
  exact String.toList_inj.1 (List.append_cancel_left hlist)

namespace ValidationReport

/-! ## Errors added one by one -/

/-- What the errors of a list add to those of a first one: each that is new, at its first
appearance. -/
structure Added (first listed added : List FieldError) : Prop where
  /-- An error is added if it is listed and not among the first. -/
  mem : ∀ e, e ∈ added ↔ e ∈ listed ∧ e ∉ first
  /-- What is listed first is added first. -/
  ordered : added.Pairwise fun a b => listed.idxOf a < listed.idxOf b

variable {first listed added : List FieldError}

theorem Added.nodup (h : Added first listed added) : added.Nodup :=
  h.ordered.imp fun hlt heq => (heq ▸ hlt).false

/-- Nothing is added twice. -/
theorem Added.nodup_append (h : Added first listed added) (hfirst : first.Nodup) :
    (first ++ added).Nodup :=
  hfirst.append h.nodup fun e he hadded => ((h.mem e).1 hadded).2 he

/-- One more error keeps the places of those before it. -/
theorem Added.ordered_concat (h : Added first listed added) (e : FieldError) :
    added.Pairwise fun a b => (listed ++ [e]).idxOf a < (listed ++ [e]).idxOf b := by
  refine h.ordered.imp_of_mem ?_
  intro a b ha hb hlt
  rwa [List.idxOf_append_of_mem ((h.mem a).1 ha).1, List.idxOf_append_of_mem ((h.mem b).1 hb).1]

/-- One more error is added unless it is there. -/
theorem Added.concat (h : Added first listed added) (e : FieldError) :
    ∃ added', addNew (first ++ added) e = first ++ added' ∧
      Added first (listed ++ [e]) added' := by
  by_cases hold : e ∈ first ++ added
  · refine ⟨added, by rw [addNew, if_pos (List.contains_iff_mem.2 hold)], ?_, h.ordered_concat e⟩
    intro a
    rw [h.mem, List.mem_append, List.mem_singleton]
    refine and_congr_left fun hfirst => ⟨.inl, ?_⟩
    rintro (hlisted | rfl)
    · exact hlisted
    · have hadded := (List.mem_append.1 hold).resolve_left hfirst
      exact ((h.mem a).1 hadded).1
  · rw [List.mem_append, not_or] at hold
    have hlisted : e ∉ listed := fun he => hold.2 ((h.mem e).2 ⟨he, hold.1⟩)
    refine ⟨added ++ [e], ?_, ?_, ?_⟩
    · rw [addNew, if_neg (by simp [hold]), List.append_assoc]
    · intro a
      rw [List.mem_append, List.mem_append, h.mem, List.mem_singleton]
      constructor
      · rintro (⟨ha, hfirst⟩ | rfl)
        · exact ⟨.inl ha, hfirst⟩
        · exact ⟨.inr rfl, hold.1⟩
      · rintro ⟨ha | rfl, hfirst⟩
        · exact .inl ⟨ha, hfirst⟩
        · exact .inr rfl
    · refine List.pairwise_append.2 ⟨h.ordered_concat e, List.pairwise_singleton .., ?_⟩
      intro a ha b hb
      obtain rfl := List.mem_singleton.1 hb
      have hmem := ((h.mem a).1 ha).1
      rw [List.idxOf_append_of_mem hmem, List.idxOf_append_of_notMem hlisted]
      exact Nat.lt_add_right _ (List.idxOf_lt_length_of_mem hmem)

/-- Errors are added to the end, those that are not there yet. -/
theorem exists_added (first listed : List FieldError) :
    ∃ added, listed.foldl addNew first = first ++ added ∧ Added first listed added := by
  induction listed using List.reverseRecOn with
  | nil => exact ⟨[], by simp, by simp, .nil⟩
  | append_singleton listed e ih =>
    obtain ⟨added, hfold, hadded⟩ := ih
    rw [List.foldl_append, hfold]
    exact hadded.concat e

/-! ## Errors of a report -/

/-- The report lists an error of a key, in one of the two ways. -/
def Lists (r : ValidationReport) (key message : String) : Prop :=
  r.errors.get? key = some message ∨ ∃ k ∈ r.keys, k.name = key ∧ message ∈ k.errors

/-- Two reports list the same errors, wherever they do. -/
def Relists (r r' : ValidationReport) : Prop :=
  ∀ key message, r.Lists key message ↔ r'.Lists key message

variable {r r' : ValidationReport}

theorem nodup_flatErrors (r : ValidationReport) : r.flatErrors.Nodup := by
  refine List.Nodup.map ?_ r.errors.nodup_entries
  rintro ⟨key, message⟩ ⟨key', message'⟩ h
  obtain ⟨hpath, rfl⟩ := FieldError.mk.inj h
  obtain rfl := configPath_injective hpath
  rfl

/-- Errors of the flat form are those of its map. -/
theorem mem_flatErrors {e : FieldError} : e ∈ r.flatErrors ↔
    ∃ key, e.path = configPath key ∧ r.errors.get? key = some e.message := by
  simp only [flatErrors, List.mem_map, StringMap.get?_eq_some_iff]
  constructor
  · rintro ⟨⟨key, message⟩, hmem, rfl⟩
    exact ⟨key, rfl, hmem⟩
  · obtain ⟨path, message⟩ := e
    rintro ⟨key, rfl, hmem⟩
    exact ⟨_, hmem, rfl⟩

/-- Errors of the other form are listed with the entry of their key. -/
theorem mem_keyErrors {e : FieldError} : e ∈ r.keyErrors ↔
    ∃ key, e.path = configPath key ∧ ∃ k ∈ r.keys, k.name = key ∧ e.message ∈ k.errors := by
  simp only [keyErrors, List.mem_flatMap, List.mem_map]
  constructor
  · rintro ⟨k, hk, message, hmem, rfl⟩
    exact ⟨k.name, rfl, k, hk, rfl, hmem⟩
  · obtain ⟨path, message⟩ := e
    rintro ⟨_, rfl, k, hk, rfl, hmem⟩
    exact ⟨k, hk, message, hmem, rfl⟩

/-- An error is reported exactly if either form lists it. -/
theorem mem_fieldErrors {e : FieldError} :
    e ∈ r.fieldErrors ↔ ∃ key, e.path = configPath key ∧ r.Lists key e.message := by
  obtain ⟨added, hfold, hadded⟩ := exists_added r.flatErrors r.keyErrors
  have hmem : e ∈ r.fieldErrors ↔ e ∈ r.flatErrors ∨ e ∈ r.keyErrors := by
    rw [fieldErrors, hfold, List.mem_append, hadded.mem]
    by_cases hflat : e ∈ r.flatErrors
    · simp [hflat]
    · simp [hflat]
  simp only [hmem, mem_flatErrors, mem_keyErrors, Lists, ← exists_or, and_or_left]

/-- A report is clean if neither form lists anything. -/
theorem clean_iff : r.Clean ↔ ∀ key message, ¬ r.Lists key message := by
  rw [← fieldErrors_eq_nil_iff, List.eq_nil_iff_forall_not_mem]
  simp only [mem_fieldErrors, not_exists, not_and]
  constructor
  · intro h key message
    exact h ⟨configPath key, message⟩ key rfl
  · intro h e key _
    exact h key e.message

end ValidationReport

/-! ## Verdicts -/

namespace Spec

/-- The result of validating a spec whose cluster has answered with status 200 and a report. -/
def Told (s : Spec) (r : ValidationReport) (result : Except ValidationError Unit) : Prop :=
  ∃ w q body, s.validate.Trace w result ∧ Wire.ofCluster q (some ⟨200, some body⟩) ∈ w ∧
    Json.decodeText? ValidationReport.decoder body = some r

variable {s : Spec} {r : ValidationReport} {result : Except ValidationError Unit}

/-- Any report can be the answer about a spec that its cluster can be asked about. -/
theorem told_of_reaches (body : Text.ByteText) (hchecks : s.localChecks = [])
    (hreaches : Connect.Reaches s.host
      ["connector-plugins", (s.config.get? classKey).getD "", "config", "validate"])
    (hbody : Json.decodeText? ValidationReport.decoder body = some r) :
    s.Told r (conclusion (.ok r)) := by
  have hjudged : judgeValidation ⟨200, some body⟩ = .ok r :=
    judgeValidation_eq_ok_iff.2 ⟨rfl, hbody⟩
  have hone : ∃ q, s.validate.Trace [Wire.ofCluster q (some ⟨200, some body⟩)]
      (conclusion (.ok r)) := by
    rw [validate_eq hchecks, ← hjudged]
    obtain ⟨q, hexchange⟩ := hreaches.exists_trace ⟨200, some body⟩
    exact ⟨q, Program.trace_bind_iff.2 ⟨_, _, [], hexchange, .done _, rfl⟩⟩
  obtain ⟨q, htrace⟩ := hone
  exact ⟨_, q, body, htrace, List.mem_singleton_self _, hbody⟩

theorem Told.result_eq (h : s.Told r result) : result = conclusion (.ok r) := by
  obtain ⟨w, q, body, htrace, hmem, hbody⟩ := h
  by_cases hchecks : s.localChecks = []
  · rw [validate_eq hchecks] at htrace
    obtain ⟨judged, w, w₂, hexchange, hend, rfl⟩ := Program.trace_bind_iff.1 htrace
    obtain ⟨rfl, rfl⟩ := Program.trace_done_iff.1 hend
    rw [List.append_nil] at hmem
    have hjudged : judged = .ok r := (Connect.result_of_trace_exchange hexchange hmem).trans
      (judgeValidation_eq_ok_iff.2 ⟨rfl, hbody⟩)
    rw [hjudged]
  · obtain ⟨-, rfl, -⟩ | ⟨hpassed, -⟩ := cases_of_trace_validate htrace
    · cases hmem
    · exact absurd hpassed hchecks

/-- What a report is told of is accepted exactly if it is clean. -/
theorem Told.accepted_iff (h : s.Told r result) : result = .ok () ↔ r.Clean := by
  simp [h.result_eq, conclusion_eq_ok_iff]

theorem Told.rejected (h : s.Told r result) :
    result = .ok () ∨ result = .error (.invalid r.fieldErrors) := by
  rw [h.result_eq, conclusion]
  split
  · exact .inl rfl
  · exact .inr rfl

end Spec

namespace ValidationReport

/-- The field errors of a report are those that it lists, each once: first the map's by their keys,
then what the reports on single keys add.  A spec is accepted exactly if there are none.  Reports
that list the same errors, wherever they do, give the same field errors and the same verdict. -/
theorem fieldErrors_complete (r : ValidationReport) :
    r.fieldErrors.Nodup ∧
    (∀ e, e ∈ r.fieldErrors ↔ ∃ key, e.path = configPath key ∧ r.Lists key e.message) ∧
    (∃ added, r.fieldErrors =
        r.errors.entries.map (fun e => ⟨configPath e.1, e.2⟩) ++ added ∧
      Added r.flatErrors r.keyErrors added) ∧
    (∀ s result, Spec.Told s r result →
      (result = .ok () ↔ r.errors.entries = [] ∧ ∀ k ∈ r.keys, k.errors = []) ∧
      (result = .ok () ∨ result = .error (.invalid r.fieldErrors))) ∧
    ∀ r', r.Relists r' → (∀ e, e ∈ r.fieldErrors ↔ e ∈ r'.fieldErrors) ∧
      ∀ s s' result result', Spec.Told s r result → Spec.Told s' r' result' →
        (result = .ok () ↔ result' = .ok ()) := by
  obtain ⟨added, hfold, hadded⟩ := exists_added r.flatErrors r.keyErrors
  refine ⟨?_, fun e => mem_fieldErrors, ⟨added, hfold, hadded⟩, ?_, ?_⟩
  · rw [fieldErrors, hfold]
    exact hadded.nodup_append r.nodup_flatErrors
  · intro s result h
    exact ⟨h.accepted_iff, h.rejected⟩
  · intro r' hsame
    have hclean : r.Clean ↔ r'.Clean := by
      simp only [clean_iff, hsame _ _]
    refine ⟨fun e => by simp only [mem_fieldErrors, hsame _ _], ?_⟩
    intro s s' result result' h h'
    rw [h.accepted_iff, h'.accepted_iff, hclean]

/-- An error that is listed in both ways, one that is listed twice, and two of one key.  Then the
same errors, each listed once and in the other way. -/
theorem fieldErrors_complete_moved :
    let s : Spec := ⟨"http://dbz:8083", .ofList [("connector.class", "C"), ("name", "orders")]⟩
    let r : ValidationReport :=
      ⟨.ofList [("user", "none"), ("port", "bad")], [⟨"port", ["bad", "high", "high"]⟩]⟩
    let r' : ValidationReport :=
      ⟨.ofList [("port", "high")], [⟨"user", ["none"]⟩, ⟨"port", ["bad"]⟩]⟩
    let result : Except ValidationError Unit := .error (.invalid [⟨"spec.config.port", "bad"⟩,
      ⟨"spec.config.user", "none"⟩, ⟨"spec.config.port", "high"⟩])
    let result' : Except ValidationError Unit := .error (.invalid [⟨"spec.config.port", "high"⟩,
      ⟨"spec.config.user", "none"⟩, ⟨"spec.config.port", "bad"⟩])
    (r.Relists r' ∧ s.Told r result ∧ s.Told r' result') ∧
      (result = .ok () ∨ result = .error (.invalid r.fieldErrors)) ∧
      (∀ e, e ∈ r.fieldErrors ↔ e ∈ r'.fieldErrors) ∧ (result = .ok () ↔ result' = .ok ()) := by
  intro s r r' result result'
  have hbase : Url.parse? s.host =
      some ⟨"http", "", none, some "dbz", some 8083, [""], none, none⟩ := by
    cbv
  have hreaches : Connect.Reaches s.host ["connector-plugins", (s.config.get? classKey).getD "",
      "config", "validate"] := ⟨_, Connect.endpoint_eq hbase _, by decide +kernel⟩
  have hchecks : s.localChecks = [] := by decide +kernel
  have hresult : result = Spec.conclusion (.ok r) := by decide +kernel
  have hresult' : result' = Spec.conclusion (.ok r') := by decide +kernel
  have htold : s.Told r result := by
    rw [hresult]
    refine Spec.told_of_reaches (.ofString <|
      "\x7b\"errors\":\x7b\"user\":\"none\",\"port\":\"bad\"\x7d,\"configs\":[" ++
      "\x7b\"value\":\x7b\"name\":\"port\",\"errors\":[\"bad\",\"high\",\"high\"]\x7d\x7d]\x7d")
      hchecks hreaches ?_
    cbv
  have htold' : s.Told r' result' := by
    rw [hresult']
    refine Spec.told_of_reaches (.ofString <|
      "\x7b\"errors\":\x7b\"port\":\"high\"\x7d,\"configs\":[" ++
      "\x7b\"value\":\x7b\"name\":\"user\",\"errors\":[\"none\"]\x7d\x7d," ++
      "\x7b\"value\":\x7b\"name\":\"port\",\"errors\":[\"bad\"]\x7d\x7d]\x7d")
      hchecks hreaches ?_
    cbv
  have hsame : r.Relists r' := by
    intro key message
    have hentries : r.errors.entries = [("port", "bad"), ("user", "none")] := by decide +kernel
    have hentries' : r'.errors.entries = [("port", "high")] := by decide +kernel
    simp only [Lists, StringMap.get?_eq_some_iff, hentries, hentries']
    simp only [r, r', List.mem_cons, List.not_mem_nil, or_false, Prod.mk.injEq, exists_eq_or_imp,
      exists_eq_left]
    grind
  obtain ⟨-, -, -, hverdict, hmoved⟩ := fieldErrors_complete r
  obtain ⟨hmem, hverdicts⟩ := hmoved r' hsame
  exact ⟨⟨hsame, htold, htold'⟩, (hverdict s result htold).2, hmem,
    hverdicts s s result result' htold htold'⟩

end ValidationReport

end ConnectorKeeper
