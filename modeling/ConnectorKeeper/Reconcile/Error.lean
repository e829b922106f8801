import ConnectorKeeper.Finalizer
import ConnectorKeeper.Retry

/-!
# Errors of a pass

Why a pass can fail, and whether trying again may help.
-/

namespace ConnectorKeeper

/-- Why a pass failed. -/
inductive PassError where
  /-- The cluster or the way to it. -/
  | cluster (error : ClusterError)
  /-- The record could not be written. -/
  | store (error : StoreError)
  /-- The finalizer is in no state for this. -/
  | finalizerConsistency (problem : String)
  /-- The record lacks a field. -/
  | missingField (path : String)
deriving DecidableEq

namespace PassError

/-- The message of an error. -/
def message : PassError → String
  | .cluster e => "upstream connector API error: " ++ e.message
  | .store e => "resource store error: " ++ e.message
  | .finalizerConsistency problem => "finalizer consistency violated: " ++ problem
  | .missingField path => "Missing required field: " ++ path

/-- The word for an error, as counters are labelled with it. -/
def reason : PassError → String
  | .cluster _ => "upstream"
  | .store _ => "store"
  | .finalizerConsistency _ => "finalizer_consistency"
  | .missingField _ => "missing_field"

/-- Whether the error can pass by itself. -/
def kind : PassError → ErrorKind
  | .cluster _ | .store _ => .transient
  | .finalizerConsistency _ | .missingField _ => .permanent

/-- An error of the finalizer, within a pass. -/
def ofFinalizer : FinalizerError → PassError
  | .store e => .store e
  | .consistency problem => .finalizerConsistency problem

end PassError

end ConnectorKeeper
