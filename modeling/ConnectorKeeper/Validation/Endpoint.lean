import ConnectorKeeper.Connect.Client
import ConnectorKeeper.Validation.Checks

/-!
# Validation

Whether a spec is acceptable: first by itself, then in the eyes of its cluster,
which knows what a connector of its class needs.  The cluster lists its errors
in two ways, as a map from keys to messages and within the description of each
key.  Both are taken, and an error that is listed twice counts once.
-/

namespace ConnectorKeeper

open Json (Decoder)

/-- Why a spec is not acceptable. -/
inductive ValidationError where
  /-- Some of its fields are wrong. -/
  | invalid (fields : List FieldError)
  /-- The cluster could not be asked. -/
  | cluster (error : ClusterError)
deriving DecidableEq

namespace ValidationError

/-- The message of an error. -/
def message : ValidationError → String
  | .invalid fields => FieldError.listMessage fields
  | .cluster e => "connector validation endpoint failed: " ++ e.message

/-- The fields that are wrong. -/
def fields : ValidationError → List FieldError
  | .invalid fields => fields
  | .cluster _ => []

end ValidationError

/-- What a cluster says about one key of a configuration. -/
structure KeyReport where
  /-- The key. -/
  name : String
  /-- What is wrong with its value. -/
  errors : List String

/-- What a cluster says about a configuration. -/
structure ValidationReport where
  /-- Errors by key. -/
  errors : StringMap String
  /-- Reports on single keys. -/
  keys : List KeyReport

namespace ValidationReport

/-- Reads what is said about one key. -/
def keyDecoder : Decoder KeyReport :=
  Decoder.strict ["value"] fun f => f.required "value" <|
    Decoder.strict ["name", "errors"] fun f => KeyReport.mk
      <$> f.required "name" Decoder.string
      <*> f.defaulted "errors" [] (Decoder.list Decoder.string)

/-- Reads what is said about a configuration. -/
def decoder : Decoder ValidationReport :=
  Decoder.strict ["errors", "configs"] fun f => ValidationReport.mk
    <$> f.defaulted "errors" .empty (Decoder.mapOf Decoder.string)
    <*> f.defaulted "configs" [] (Decoder.list keyDecoder)

/-- The errors listed by key. -/
def flatErrors (r : ValidationReport) : List FieldError :=
  r.errors.toList.map fun e => ⟨configPath e.1, e.2⟩

/-- The errors listed within the reports on single keys. -/
def keyErrors (r : ValidationReport) : List FieldError :=
  r.keys.flatMap fun k => k.errors.map fun message => ⟨configPath k.name, message⟩

/-- An error added at the end of a list, unless it is there. -/
def addNew (fields : List FieldError) (e : FieldError) : List FieldError :=
  if fields.contains e then fields else fields ++ [e]

/-- All errors, each once. -/
def fieldErrors (r : ValidationReport) : List FieldError :=
  r.keyErrors.foldl addNew r.flatErrors

end ValidationReport

/-- Judges the response of a cluster to a configuration. -/
def judgeValidation (response : Http.Response) : Except ClusterError ValidationReport :=
  if response.status = 200 then
    Connect.decodeBody "validate" (Json.decodeText? ValidationReport.decoder) response
  else .error (Connect.unexpected "validate" response)

/-- Whether a spec is acceptable. -/
def Spec.validate (s : Spec) : Talk (Except ValidationError Unit) :=
  match s.localChecks with
  | [] =>
      let className := (s.config.get? classKey).getD ""
      Program.bind
        (Connect.exchange s.host ["connector-plugins", className, "config", "validate"] .post
          (some (Connect.namedConfig s.config)) judgeValidation)
        fun
          | .error e => .done (.error (.cluster e))
          | .ok report =>
              match report.fieldErrors with
              | [] => .done (.ok ())
              | fields => .done (.error (.invalid fields))
  | fields => .done (.error (.invalid fields))

end ConnectorKeeper
