import ConnectorKeeper.Admission.Decision
import ConnectorKeeper.Proofs.Addressing
import ConnectorKeeper.Proofs.History

/-!
# What owners may do

An owner writes a new spec, if the webhook lets it through, or asks for the
record's removal.  Only the API server sets the mark of a removal, and it never
takes it away.

A record that was let through names its connector while it is live
(`Record.Admitted.named`, `Record.Updated.named`).  An update of a record that is
being deleted is let through whatever it says (`Record.updated_of_deleting`).
-/

namespace ConnectorKeeper

open Admission (Request Verdict)

/-- The creation of a record that the webhook may let through. -/
structure Record.Admitted (r : Record) : Prop where
  /-- No removal is asked for. -/
  mark : r.metadata.deletionTimestamp = none
  /-- Some answers of the cluster have it let through. -/
  allowed : ∃ uid, (Request.verdict ⟨uid, .create, some r, none⟩).MayEnd .allow

/-- An update of a record that the webhook may let through. -/
structure Record.Updated (r r' : Record) : Prop where
  /-- The mark of a removal is as it was. -/
  mark : r'.metadata.deletionTimestamp = r.metadata.deletionTimestamp
  /-- Some answers of the cluster have it let through. -/
  allowed : ∃ uid, (Request.verdict ⟨uid, .update, some r', some r⟩).MayEnd .allow

/-- A record whose removal is asked for. -/
def Record.marked (r : Record) (t : Timestamp) : Record :=
  { r with metadata := { r.metadata with deletionTimestamp := some t } }

/-- What an owner may do to a record. -/
inductive Record.OwnerAct (r : Record) : Record → Prop
  /-- It is updated. -/
  | update {r' : Record} (h : r.Updated r') : OwnerAct r r'
  /-- Its removal is asked for. -/
  | mark (t : Timestamp) : OwnerAct r (r.marked t)

/-- Owners who do what the webhook lets through. -/
def Rules.owned (truthful : Bool) : Rules := ⟨truthful, fun _ _ => Record.OwnerAct⟩

/-! ## What is let through -/

theorem Spec.localChecks_of_validate {s : Spec} (h : s.validate.MayEnd (.ok ())) :
    s.localChecks = [] := by
  unfold Spec.validate at h
  split at h
  · next hchecks => exact hchecks
  · rw [Program.mayEnd_done] at h
    cases h

theorem Spec.isSome_of_localChecks {s : Spec} (h : s.localChecks = []) :
    (s.config.get? nameKey).isSome = true := by
  have hkeys := List.map_eq_nil_iff.1 (List.append_eq_nil_iff.1 h).2
  have hname := List.filter_eq_nil_iff.1 hkeys nameKey (by simp)
  simpa [StringMap.contains, Option.isSome_iff_ne_none] using hname

/-- A record that was validated names its connector. -/
theorem Record.named_of_validated {r : Record}
    (h : (Admission.validated r).MayEnd .allow) : r.connectorName.isSome = true := by
  obtain ⟨result, hresult, hverdict⟩ := (Program.mayEnd_bind ..).1 h
  rcases result with e | _
  · rw [Program.mayEnd_done] at hverdict
    cases hverdict
  · exact Spec.isSome_of_localChecks (Spec.localChecks_of_validate hresult)

theorem Record.Admitted.named {r : Record} (h : r.Admitted) : r.connectorName.isSome = true := by
  obtain ⟨uid, h⟩ := h.allowed
  exact named_of_validated h

theorem Record.Updated.named {r r' : Record} (h : r.Updated r')
    (hlive : r.deletionRequested = false) (hname : r.connectorName.isSome = true) :
    r'.connectorName.isSome = true := by
  have hlive' : r'.deletionRequested = false := by
    rw [deletionRequested, h.mark]
    exact hlive
  obtain ⟨uid, hallowed⟩ := h.allowed
  simp only [Request.verdict, Request.unchangedOrDeleting, hlive', Bool.false_or,
    Option.any_some] at hallowed
  split at hallowed
  · next hspec =>
    rw [connectorName, ← of_decide_eq_true hspec]
    exact hname
  · exact named_of_validated hallowed

/-- A record that is being deleted may be updated to anything. -/
theorem Record.updated_of_deleting {r r' : Record}
    (hmark : r'.metadata.deletionTimestamp = r.metadata.deletionTimestamp)
    (hdeleting : r.deletionRequested = true) : r.Updated r' := by
  have hdeleting' : r'.deletionRequested = true := by
    rw [deletionRequested, hmark]
    exact hdeleting
  refine ⟨hmark, "", ?_⟩
  simp [Request.verdict, Request.unchangedOrDeleting, hdeleting']

/-- A cluster may find nothing wrong with a spec. -/
theorem judgeValidation_empty :
    judgeValidation ⟨200, some (.ofString "\x7b\x7d")⟩ = .ok ⟨.empty, []⟩ := by
  cbv

/-- An exchange may end with any response. -/
theorem Connect.mayEnd_exchange {α : Type} {host : String} {base : Url} {segments : List String}
    {method : Http.Method} {body : Option Json} {judge : Http.Response → Except ClusterError α}
    (hbase : Url.parse? host = some base)
    (hsendable : sendable (splitCredentials (base.below segments)).2 = true)
    (response : Http.Response) :
    (exchange host segments method body judge).MayEnd (judge response) := by
  rw [exchange_of_parse hbase, if_pos hsendable]
  exact .after (some response) (.done _)

/-- A spec that passes its own checks may pass those of a cluster that can be asked. -/
theorem Spec.validate_of_localChecks {s : Spec} {base : Url} (hchecks : s.localChecks = [])
    (hbase : Url.parse? s.host = some base)
    (hsendable : Connect.sendable (Connect.splitCredentials (base.below ["connector-plugins",
      (s.config.get? classKey).getD "", "config", "validate"])).2 = true) :
    s.validate.MayEnd (.ok ()) := by
  simp only [Spec.validate, hchecks, Program.bind_eq, Program.mayEnd_bind]
  refine ⟨_, Connect.mayEnd_exchange hbase hsendable ⟨200, some (.ofString "\x7b\x7d")⟩, ?_⟩
  rw [judgeValidation_empty]
  exact .done _

/-- A record with such a spec may be found in order. -/
theorem Record.mayEnd_validated {r : Record} {base : Url} (hchecks : r.spec.localChecks = [])
    (hbase : Url.parse? r.spec.host = some base)
    (hsendable : Connect.sendable (Connect.splitCredentials (base.below ["connector-plugins",
      (r.spec.config.get? classKey).getD "", "config", "validate"])).2 = true) :
    (Admission.validated r).MayEnd .allow :=
  (Program.mayEnd_bind ..).2 ⟨.ok (), Spec.validate_of_localChecks hchecks hbase hsendable, .done _⟩

theorem Record.admitted_of_validated {r : Record} (hmark : r.metadata.deletionTimestamp = none)
    (h : (Admission.validated r).MayEnd .allow) : r.Admitted :=
  ⟨hmark, "", h⟩

theorem Record.updated_of_validated {r r' : Record}
    (hmark : r'.metadata.deletionTimestamp = r.metadata.deletionTimestamp)
    (h : (Admission.validated r').MayEnd .allow) : r.Updated r' := by
  refine ⟨hmark, "", ?_⟩
  unfold Request.verdict
  dsimp only
  split
  · exact .done _
  · exact h

/-- A cluster at the top of its host can be asked about a class of one letter. -/
theorem Record.mayEnd_validated_dbz {r : Record} (hhost : r.spec.host = "http://dbz:8083")
    (hchecks : r.spec.localChecks = []) (hclass : r.spec.config.get? classKey = some "C") :
    (Admission.validated r).MayEnd .allow := by
  have hbase : Url.parse? r.spec.host =
      some ⟨"http", "", none, some "dbz", some 8083, [""], none, none⟩ := by
    rw [hhost]
    cbv
  refine mayEnd_validated hchecks hbase ?_
  rw [hclass]
  decide +kernel

end ConnectorKeeper
