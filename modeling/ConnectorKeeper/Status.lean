import ConnectorKeeper.Neighbour

/-!
# The status of a record

A new condition takes the place of those of its type, at the end of the list.
It keeps their transition time if its `status` is theirs.

What a pass has seen and done is written into the status.  One that would not change
is not written, and a write that fails changes nothing about the pass.
-/

namespace ConnectorKeeper

/-! ## Merging conditions -/

/-- The condition type that tells whether a connector matches its record. -/
def syncedType : String := "Synced"

/-- The condition that a connector matches its record. -/
def Condition.synced (reason message now : String) : Condition :=
  ⟨syncedType, "True", reason, message, now⟩

/-- A condition with the transition time that earlier conditions give it: the
time of the last one of its type and `status`, else its own. -/
def Condition.keepTime (c : Condition) (earlier : List Condition) : Condition :=
  earlier.foldl
    (fun c e =>
      if e.type = c.type && e.status = c.status then
        { c with lastTransitionTime := e.lastTransitionTime }
      else c)
    c

/-- The status after a phase and a condition are reported. -/
def Status.next (previous : Status) (phase : Phase) (condition : Condition) : Status :=
  { phase
    conditions := previous.conditions.filter (·.type ≠ condition.type) ++
      [condition.keepTime previous.conditions] }

/-! ## Reporting -/

/-- The outcome of a report. -/
inductive StatusWrite where
  /-- The record says it already. -/
  | unchanged
  /-- It was written. -/
  | written
  /-- It could not be written. -/
  | failed
deriving DecidableEq, Repr

/-- Reports a phase, and that the connector matches the record. -/
def report (r : Record) (phase : Phase) (reason message : String) : Work StatusWrite :=
  .ask .clock fun now =>
    let status := r.currentStatus.next phase (.synced reason message now.textFull)
    if r.status = some status then .done .unchanged
    else .ask (.patchStatus r status) fun
      | .ok () => .done .written
      | .error _ => .done .failed

end ConnectorKeeper
