import ConnectorKeeper.Api.Client
import ConnectorKeeper.Record.Codec

/-!
# The store of records

The two things that are written back to a record: our finalizer, and the
status.  Both are merge patches.  A change of the finalizers carries the version
of the record it was made from, so that the server refuses it if the record has
changed meanwhile.
-/

namespace ConnectorKeeper

/-- What can go wrong when a record is written. -/
inductive StoreError where
  /-- The API server or the way to it. -/
  | api (error : Api.Error)
  /-- The record lacks what its address needs. -/
  | missingField (path : String)
deriving DecidableEq

/-- The message of an error. -/
def StoreError.message : StoreError → String
  | .api e => "Kubernetes API error: " ++ e.text
  | .missingField path => "Missing required field: " ++ path

namespace Store

/-- The path of the records of a namespace. -/
def collection (namespaceName : String) : String :=
  s!"/apis/{apiVersion}/namespaces/{namespaceName}/{recordPlural}"

/-- The namespace and name that address a record. -/
def address (r : Record) : Except StoreError (String × String) :=
  match r.metadata.namespaceName, r.metadata.name with
  | none, _ => .error (.missingField "metadata.namespace")
  | some _, none => .error (.missingField "metadata.name")
  | some space, some name => .ok (space, name)

/-- The patch that sets the finalizers of a record. -/
def finalizersPatch (r : Record) (finalizers : List String) : Json :=
  .record [("metadata", .record <|
    [("finalizers", Metadata.textListJson finalizers)] ++
      Json.optional "resourceVersion" (r.metadata.resourceVersion.map .text))]

/-- The patch that sets the status of a record. -/
def statusPatch (s : Status) : Json := .record [("status", s.toJson)]

/-- Sends a patch of a record, or of a part of it. -/
def patch (r : Record) (part : String) (body : Json) : Talk (Except StoreError Unit) :=
  match address r with
  | .error e => .done (.error e)
  | .ok (space, name) => do
      let request := Api.objectRequest .patch (collection space) name part "" (some body)
      match ← Api.exchange Record.decoder request with
      | .ok _ => return .ok ()
      | .error e => return .error (.api e)

/-- Adds our finalizer at the end, unless the record has it. -/
def addFinalizer (r : Record) : Talk (Except StoreError Unit) :=
  match address r with
  | .error e => .done (.error e)
  | .ok _ =>
      if r.finalizerPresent then .done (.ok ())
      else patch r "" (finalizersPatch r (r.finalizers ++ [finalizer]))

/-- Whether an error says that the record is gone. -/
def StoreError.isGone : StoreError → Bool
  | .api (.api e) => e.code == 404
  | _ => false

/-- Removes our finalizer.  A record that is gone has none left to remove. -/
def removeFinalizer (r : Record) : Talk (Except StoreError Unit) := do
  match ← patch r "" (finalizersPatch r (r.finalizers.filter (· ≠ finalizer))) with
  | .ok () => return .ok ()
  | .error e => return if StoreError.isGone e then .ok () else .error e

/-- Sets the status. -/
def patchStatus (r : Record) (s : Status) : Talk (Except StoreError Unit) :=
  patch r "/status" (statusPatch s)

end Store

end ConnectorKeeper
