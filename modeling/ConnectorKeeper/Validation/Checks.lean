import ConnectorKeeper.Record.Basic
import ConnectorKeeper.Text.Parts

/-!
# Checks of a record

The checks that need no cluster: a host is given, and the configuration names a
class and a connector.
-/

namespace ConnectorKeeper

/-- A field of a record that is rejected. -/
structure FieldError where
  /-- The path into the record, its parts joined by points. -/
  path : String
  /-- Why it is rejected. -/
  message : String
deriving DecidableEq, Repr

/-- The text of a field error. -/
def FieldError.text (e : FieldError) : String := e.path ++ ": " ++ e.message

/-- The error of a missing configuration key. -/
def FieldError.missingKey (key : String) : FieldError :=
  ⟨configPath key, s!"config must include key \"{key}\""⟩

/-- The error of a missing host. -/
def FieldError.missingHost : FieldError := ⟨"spec.debeziumHost", "debeziumHost cannot be empty"⟩

/-- What is wrong with a spec by itself. -/
def Spec.localChecks (s : Spec) : List FieldError :=
  (if Text.blank s.host then [.missingHost] else []) ++
    ([classKey, nameKey].filter (!s.config.contains ·)).map .missingKey

/-- The message about a list of rejected fields. -/
def FieldError.listMessage (fields : List FieldError) : String :=
  "invalid DebeziumConnector: " ++ ", ".intercalate (fields.map FieldError.text)

end ConnectorKeeper
