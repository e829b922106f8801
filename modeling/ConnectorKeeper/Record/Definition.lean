import ConnectorKeeper.Record.Codec

/-!
# The definition of the kind of records

What the API server has to be told before it keeps records: the names of the
kind, the columns in which records are listed, and the schema of their fields.
-/

namespace ConnectorKeeper.Definition

/-- A column of a list of records. -/
def column (name type path : String) : Json :=
  .record [("jsonPath", .text path), ("name", .text name), ("type", .text type)]

/-- The schema of a text. -/
def textSchema (description : String) : Json :=
  .record [("description", .text description), ("type", .text "string")]

/-- The schema of an object. -/
def objectSchema (before : List (String × Json)) (properties : List (String × Json))
    (required : List String) : Json :=
  .record (before ++ [("properties", .record properties)] ++
    (if required.isEmpty then [] else [("required", .array (required.map .text))]) ++
    [("type", .text "object")])

/-- The description of a schema. -/
def described (description : String) : List (String × Json) := [("description", .text description)]

/-- The schema of a spec. -/
def specSchema : Json :=
  objectSchema (described "DebeziumConnector spec")
    [("config", .record [("additionalProperties", .record [("type", .text "string")]),
        ("description",
          .text "Connector configuration; must contain `name` and `connector.class`"),
        ("type", .text "object")]),
      ("debeziumHost",
        textSchema "Base URL of the Kafka Connect REST API (e.g. `http://dbz:8083`)")]
    ["config", "debeziumHost"]

/-- The schema of a condition. -/
def conditionSchema : Json :=
  objectSchema (described "Kubernetes-style condition")
    [("lastTransitionTime", textSchema "Last time the condition transitioned"),
      ("message", textSchema "Human-readable message"),
      ("reason", textSchema "Machine-readable reason for the condition"),
      ("status", textSchema "Status: \"True\", \"False\", or \"Unknown\""),
      ("type", textSchema "Type of condition (e.g., \"Synced\")")]
    ["lastTransitionTime", "message", "reason", "status", "type"]

/-- The schema of a status. -/
def statusSchema : Json :=
  objectSchema (described "DebeziumConnector status" ++ [("nullable", .bool true)])
    [("conditions", .record [("default", .array []), ("description", .text "Status conditions"),
        ("items", conditionSchema), ("type", .text "array")]),
      ("phase", .record [("default", .text Phase.unknown.text),
        ("description",
          .text "Last observed phase of the connector on the upstream platform"),
        ("enum", .array (Phase.all.map (.text ·.text))), ("type", .text "string")])]
    []

/-- The schema of a record. -/
def recordSchema : Json :=
  .record [
    ("description",
      .text "Auto-generated derived type for DebeziumConnectorSpec via `CustomResource`"),
    ("properties", .record [("spec", specSchema), ("status", statusSchema)]),
    ("required", .array [.text "spec"]), ("title", .text recordKind), ("type", .text "object")]

/-- The version of records with its schema. -/
def version : Json :=
  .record [
    ("additionalPrinterColumns", .array [column "Host" "string" ".spec.debeziumHost",
      column "Phase" "string" ".status.phase",
      column "Age" "date" ".metadata.creationTimestamp"]),
    ("name", .text recordVersion),
    ("schema", .record [("openAPIV3Schema", recordSchema)]),
    ("served", .bool true), ("storage", .bool true),
    ("subresources", .record [("status", .record [])])]

/-- The definition. -/
def manifest : Json :=
  .record [
    ("apiVersion", .text "apiextensions.k8s.io/v1"),
    ("kind", .text "CustomResourceDefinition"),
    ("metadata", .record [("name", .text (recordPlural ++ "." ++ recordGroup))]),
    ("spec", .record [
      ("group", .text recordGroup),
      ("names", .record [("categories", .array []), ("kind", .text recordKind),
        ("plural", .text recordPlural), ("shortNames", .array [.text "dbc"]),
        ("singular", .text "debeziumconnector")]),
      ("scope", .text "Namespaced"),
      ("versions", .array [version])])]

end ConnectorKeeper.Definition
