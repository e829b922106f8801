import ConnectorKeeper.Neighbour

/-!
# The deletion guard

Our finalizer is put on a record before anything is created for it, and taken
away only when its connector is known to be gone.  A record keeps existing while
it has the finalizer.
-/

namespace ConnectorKeeper

/-- What can go wrong with the finalizer. -/
inductive FinalizerError where
  /-- The record could not be written. -/
  | store (error : StoreError)
  /-- The record is in no state for this. -/
  | consistency (problem : String)
deriving DecidableEq

/-- The message of an error. -/
def FinalizerError.message : FinalizerError → String
  | .store e => e.message
  | .consistency problem => "finalizer consistency violated: " ++ problem

/-- How a record came to have the finalizer. -/
inductive Registration where
  /-- It had it. -/
  | alreadyPresent
  /-- It was added. -/
  | added
deriving DecidableEq, Repr

/-- How the connector is known to be gone. -/
inductive Cleanup where
  /-- The cluster deleted it. -/
  | deleted
  /-- The cluster did not know it. -/
  | alreadyAbsent
deriving DecidableEq, Repr

namespace Finalizer

/-- Puts the finalizer on a record, unless it is there. -/
def ensure (r : Record) : Work (Except FinalizerError Registration) :=
  if r.finalizerPresent then .done (.ok .alreadyPresent)
  else .ask (.addFinalizer r) fun
    | .ok () => .done (.ok .added)
    | .error e => .done (.error (.store e))

/-- Takes the finalizer off a record whose connector is known to be gone.  A
record that is not being deleted keeps it. -/
def release (r : Record) (_known : Cleanup) : Work (Except FinalizerError Unit) :=
  if !r.deletionRequested then
    .done (.error (.consistency "release requested for a record that is not being deleted"))
  else if !r.finalizerPresent then .done (.ok ())
  else .ask (.removeFinalizer r) fun
    | .ok () => .done (.ok ())
    | .error e => .done (.error (.store e))

end Finalizer

end ConnectorKeeper
