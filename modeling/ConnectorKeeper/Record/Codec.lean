import ConnectorKeeper.Record.Basic

/-!
# Records as JSON

How records and their parts are read and written.  A phase that is absent is
unknown, absent conditions are none.  The version and kind of a record are
written and not read.
-/

namespace ConnectorKeeper

open Json (Decoder)

/-- The group of the kind of records. -/
def recordGroup : String := "api.debezium"

/-- The version of the kind of records. -/
def recordVersion : String := "v1alpha1"

/-- The group and version of records. -/
def apiVersion : String := recordGroup ++ "/" ++ recordVersion

/-- The kind of records. -/
def recordKind : String := "DebeziumConnector"

/-- The name of the records of a namespace. -/
def recordPlural : String := "debeziumconnectors"

/-- The text of a phase. -/
def Phase.text : Phase → String
  | .running => "RUNNING"
  | .paused => "PAUSED"
  | .taskFailed => "TASK_FAILED"
  | .unknown => "UNKNOWN"

/-- All phases. -/
def Phase.all : List Phase := [.running, .paused, .taskFailed, .unknown]

/-- Reads a phase. -/
def Phase.decoder : Decoder Phase := Decoder.named (Phase.all.map fun p => (p.text, p))

/-- Reads a configuration. -/
def configDecoder : Decoder Config := Decoder.mapOf Decoder.string

/-- A configuration as a value. -/
def configJson (c : Config) : Json := .record (c.toList.map fun e => (e.1, .text e.2))

/-- Reads a spec. -/
def Spec.decoder : Decoder Spec :=
  Decoder.strict ["debeziumHost", "config"] fun f => Spec.mk
    <$> f.required "debeziumHost" Decoder.string
    <*> f.required "config" configDecoder

/-- A spec as a value. -/
def Spec.toJson (s : Spec) : Json :=
  .record [("debeziumHost", .text s.host), ("config", configJson s.config)]

/-- Reads a condition. -/
def Condition.decoder : Decoder Condition :=
  Decoder.strict ["type", "status", "reason", "message", "lastTransitionTime"] fun f =>
    Condition.mk
      <$> f.required "type" Decoder.string
      <*> f.required "status" Decoder.string
      <*> f.required "reason" Decoder.string
      <*> f.required "message" Decoder.string
      <*> f.required "lastTransitionTime" Decoder.string

/-- A condition as a value. -/
def Condition.toJson (c : Condition) : Json :=
  .record [("type", .text c.type), ("status", .text c.status), ("reason", .text c.reason),
    ("message", .text c.message), ("lastTransitionTime", .text c.lastTransitionTime)]

/-- Reads a status. -/
def Status.decoder : Decoder Status :=
  Decoder.strict ["phase", "conditions"] fun f => Status.mk
    <$> f.defaulted "phase" .unknown Phase.decoder
    <*> f.defaulted "conditions" [] (Decoder.list Condition.decoder)

/-- A status as a value. -/
def Status.toJson (s : Status) : Json :=
  .record [("phase", .text s.phase.text), ("conditions", .array (s.conditions.map Condition.toJson))]

/-- Reads a record. -/
def Record.decoder : Decoder Record :=
  Decoder.strict ["metadata", "spec", "status"] fun f => Record.mk
    <$> f.required "metadata" Metadata.decoder
    <*> f.required "spec" Spec.decoder
    <*> f.optional "status" Status.decoder

/-- A record as a value. -/
def Record.toJson (r : Record) : Json :=
  .record <|
    [("apiVersion", .text apiVersion), ("kind", .text recordKind),
      ("metadata", r.metadata.toJson), ("spec", r.spec.toJson)] ++
    Json.optional "status" (r.status.map Status.toJson)

end ConnectorKeeper
