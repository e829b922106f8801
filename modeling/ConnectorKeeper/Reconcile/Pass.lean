import ConnectorKeeper.Decision
import ConnectorKeeper.Reconcile.Error
import ConnectorKeeper.Status

/-!
# A pass

One pass over a record brings its connector to what the record says.

* A record that is being deleted: the connector is deleted, then the finalizer
  released.  A connector that the cluster does not know counts as deleted.  Any
  other failure keeps the finalizer.
* A record without our finalizer: the finalizer is put on it before anything
  else, and only if the record names its connector.
* Otherwise the connector is looked up and created, updated or left alone, and
  what was seen is reported.

A failure ends the pass.  Nothing here tries again or waits.
-/

namespace ConnectorKeeper

/-- What a successful pass did, and when the next one is due. -/
structure Outcome where
  /-- What was done. -/
  action : Action
  /-- The delay before the next pass, none to wait for a change. -/
  requeueAfter : Option Duration
deriving DecidableEq

/-- When the next pass is due after a successful one. -/
def Outcome.requeue (o : Outcome) : Requeue := (o.requeueAfter.map .after).getD .awaitChange

/-- Work of a pass, which may fail. -/
abbrev Step (α : Type) := Work (Except PassError α)

/-- A step after another one, if that succeeded. -/
def Step.andThen {α β : Type} (first : Step α) (next : α → Step β) : Step β :=
  Program.bind first fun
    | .ok a => next a
    | .error e => .done (.error e)

/-- The connector of a name as it is now.  What it is doing need not be known. -/
def observe (host name : String) : Step Observation :=
  .ask (.lookup host name) fun
    | .error e => .done (.error (.cluster e))
    | .ok .absent => .done (.ok .absent)
    | .ok .present =>
        .ask (.readConfig host name) fun
          | .error e => .done (.error (.cluster e))
          | .ok config =>
              .ask (.readStatus host name) fun runtime =>
                .done (.ok ⟨true, some config, Except.toOption runtime⟩)

/-- Reports and ends the pass, however the report goes. -/
def finish (resync : Duration) (r : Record) (action : Action) (phase : Phase)
    (reason message : String) : Step Outcome :=
  Program.bind (report r phase reason message) fun _ => .done (.ok ⟨action, some resync⟩)

/-- Does what was decided about a connector that was observed. -/
def converge (resync : Duration) (r : Record) (name : String) (seen : Observation) :
    Step Outcome :=
  match Action.choose r.spec.config seen with
  | .create =>
      .ask (.create r.spec.host r.spec.config) fun
        | .error e => .done (.error (.cluster e))
        | .ok () => finish resync r .create .unknown "Created" "Connector created"
  | .update =>
      .ask (.update r.spec.host name r.spec.config) fun
        | .error e => .done (.error (.cluster e))
        | .ok () =>
            finish resync r .update (phaseOf seen.runtime) "Updated" "Connector config updated"
  | action =>
      finish resync r action (phaseOf seen.runtime) "InSync" "Connector config matches resource"

/-- The error of a record that does not name its connector. -/
def PassError.nameless : PassError := .missingField (configPath nameKey)

/-- Brings the connector of a live record to its configuration. -/
def sync (resync : Duration) (r : Record) : Step Outcome :=
  match r.connectorName with
  | none => .done (.error .nameless)
  | some name => (observe r.spec.host name).andThen (converge resync r name)

/-- Lets a record go whose connector is known to be gone. -/
def letGo (r : Record) (known : Cleanup) : Step Outcome :=
  Program.bind (Finalizer.release r known) fun
    | .ok () => .done (.ok ⟨.delete, none⟩)
    | .error e => .done (.error (.ofFinalizer e))

/-- Deletes the connector of a record that is being deleted, and lets the record go.
A record that names no connector has none. -/
def cleanup (r : Record) : Step Outcome :=
  if r.finalizerPresent then
    match r.connectorName with
    | none => letGo r .alreadyAbsent
    | some name =>
        .ask (.delete r.spec.host name) fun
          | .ok () => letGo r .deleted
          | .error e =>
              if e.isNotFound then letGo r .alreadyAbsent else .done (.error (.cluster e))
  else .done (.ok ⟨.noAction, none⟩)

/-- Puts the finalizer on a record that names its connector, then goes on as
with any live record. -/
def adopt (resync : Duration) (r : Record) : Step Outcome :=
  match r.connectorName with
  | none => .done (.error .nameless)
  | some _ =>
      Program.bind (Finalizer.ensure r) fun
        | .ok _ => sync resync r
        | .error e => .done (.error (.ofFinalizer e))

/-- One pass over a record; `resync` is the delay after a successful pass over a live one. -/
def pass (resync : Duration) (r : Record) : Step Outcome :=
  match r.lifecycle with
  | .deleting => cleanup r
  | .adopting => adopt resync r
  | .synced => sync resync r

end ConnectorKeeper
