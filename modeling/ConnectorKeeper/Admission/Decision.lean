import ConnectorKeeper.Admission.Review
import ConnectorKeeper.Validation.Endpoint

/-!
# Admission decisions

A record is validated when it is created and when its spec changes.  All else is
allowed without looking: other operations, changes of a record that is being
deleted, and changes that leave the spec as it was.
-/

namespace ConnectorKeeper.Admission

/-- The verdict on an operation. -/
inductive Verdict where
  /-- It may go on. -/
  | allow
  /-- It may not, and why. -/
  | deny (message : String)
deriving DecidableEq

/-- Validates the record of an operation. -/
def validated (r : Record) : Talk Verdict :=
  Program.bind r.spec.validate fun
    | .ok () => .done .allow
    | .error e => .done (.deny e.message)

/-- Whether an update needs no validation. -/
def Request.unchangedOrDeleting (q : Request) (r : Record) : Bool :=
  r.deletionRequested || q.oldObject.any (·.spec = r.spec)

/-- The verdict on an operation. -/
def Request.verdict (q : Request) : Talk Verdict :=
  match q.operation, q.object with
  | .create, none | .update, none => .done (.deny "admission request carries no object")
  | .create, some r => validated r
  | .update, some r => if q.unchangedOrDeleting r then .done .allow else validated r
  | _, _ => .done .allow

/-- The answer to a review that asks nothing. -/
def Answer.invalid : Answer :=
  ⟨"admission.k8s.io/v1beta1", "AdmissionReview", "", false, "Failure",
    "failed to convert AdmissionReview into AdmissionRequest", "InvalidRequest"⟩

/-- The answer that tells a verdict. -/
def Answer.ofVerdict (review : Review) (q : Request) : Verdict → Answer
  | .allow => ⟨review.apiVersion, review.kind, q.uid, true, "", "", ""⟩
  | .deny message => ⟨review.apiVersion, review.kind, q.uid, false, "", message, ""⟩

/-- The answer to a review. -/
def Review.answer (review : Review) : Talk Answer :=
  match review.request with
  | none => .done .invalid
  | some q => Program.bind q.verdict fun verdict => .done (.ofVerdict review q verdict)

end ConnectorKeeper.Admission
