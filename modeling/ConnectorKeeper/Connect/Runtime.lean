import ConnectorKeeper.Record.Codec

/-!
# Runtime status

What a cluster says a connector and its tasks are doing, and the phase that
follows from it.  One failed task makes the whole connector failed.
-/

namespace ConnectorKeeper

open Json (Decoder)

/-- What a connector is doing. -/
structure WorkerState where
  /-- The state, in the cluster's words. -/
  state : String
  /-- Where it runs. -/
  workerId : Option String

/-- What a task is doing. -/
structure TaskState where
  /-- The number of the task. -/
  id : Nat
  /-- The state, in the cluster's words. -/
  state : String
  /-- Where it runs. -/
  workerId : Option String
  /-- How it failed. -/
  trace : Option String

/-- What a connector and its tasks are doing. -/
structure RuntimeStatus where
  /-- The connector. -/
  connector : WorkerState
  /-- The tasks. -/
  tasks : List TaskState

/-- Reads a `WorkerState`. -/
def WorkerState.decoder : Decoder WorkerState :=
  Decoder.strict ["state", "worker_id"] fun f => WorkerState.mk
    <$> f.required "state" Decoder.string
    <*> f.defaulted "worker_id" none (Decoder.nullable Decoder.string)

/-- Reads a `TaskState`. -/
def TaskState.decoder : Decoder TaskState :=
  Decoder.strict ["id", "state", "worker_id", "trace"] fun f => TaskState.mk
    <$> f.required "id" (Decoder.uint32)
    <*> f.required "state" Decoder.string
    <*> f.defaulted "worker_id" none (Decoder.nullable Decoder.string)
    <*> f.defaulted "trace" none (Decoder.nullable Decoder.string)

/-- Reads a `RuntimeStatus`. -/
def RuntimeStatus.decoder : Decoder RuntimeStatus :=
  Decoder.strict ["connector", "tasks"] fun f => RuntimeStatus.mk
    <$> f.required "connector" WorkerState.decoder
    <*> f.defaulted "tasks" [] (Decoder.list TaskState.decoder)

/-- A text that may be absent, as a value. -/
def nullableJson (s : Option String) : Json := (s.map Json.text).getD .null

/-- A `RuntimeStatus` as a value, with every field. -/
def RuntimeStatus.toJson (s : RuntimeStatus) : Json :=
  .record [
    ("connector", .record [("state", .text s.connector.state),
      ("worker_id", nullableJson s.connector.workerId)]),
    ("tasks", .array (s.tasks.map fun t => .record [("id", .int t.id), ("state", .text t.state),
      ("worker_id", nullableJson t.workerId), ("trace", nullableJson t.trace)]))]

/-- The phase that a runtime status shows; states count in any case of ASCII letters. -/
def phaseOf : Option RuntimeStatus → Phase
  | none => .unknown
  | some s =>
      let failed (state : String) : Bool := state.map Char.toUpper == "FAILED"
      if s.tasks.any (failed ·.state) || failed s.connector.state then .taskFailed
      else if s.connector.state.map Char.toUpper = "RUNNING" then .running
      else if s.connector.state.map Char.toUpper = "PAUSED" then .paused
      else .unknown

end ConnectorKeeper
