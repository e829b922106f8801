import ConnectorKeeper.Json.Decoder
import ConnectorKeeper.Text.Quoted
import ConnectorKeeper.Wire

/-!
# Requests to the API server

Building a request's target, sending it, and reading the response.  A response
that tells of an error should carry a description of it; where it does not, one
is made up from its status and body.
-/

namespace ConnectorKeeper.Api

open Json (Decoder)

/-- The API server's own description of an error. -/
structure ErrorResponse where
  /-- The outcome, as a word. -/
  status : String
  /-- What went wrong, for people. -/
  message : String
  /-- What went wrong, as a word. -/
  reason : String
  /-- What went wrong, as a number. -/
  code : Nat
deriving DecidableEq

/-- What can go wrong between here and the API server. -/
inductive Error where
  /-- The server described an error. -/
  | api (response : ErrorResponse)
  /-- No response came. -/
  | service (cause : String)
  /-- The response is not what was asked for. -/
  | decode
  /-- No request can be built, and why. -/
  | buildRequest (cause : String)
deriving DecidableEq

/-- Reads an error description. -/
def ErrorResponse.decoder : Decoder ErrorResponse :=
  Decoder.strict ["status", "message", "reason", "code"] fun f => ErrorResponse.mk
    <$> f.required "status" Decoder.string
    <*> f.defaulted "message" "" Decoder.string
    <*> f.defaulted "reason" "" Decoder.string
    <*> f.required "code" (Decoder.uint16)

/-- The text of an error description. -/
def ErrorResponse.text (e : ErrorResponse) : String :=
  s!"ApiError: {e.message}: {e.reason} (ErrorResponse \x7b status: {Text.quoted e.status}, " ++
    s!"message: {Text.quoted e.message}, reason: {Text.quoted e.reason}, code: {e.code} \x7d)"

/-- The text of an error. -/
def Error.text : Error → String
  | .api e => e.text
  | .service cause => "ServiceError: " ++ cause
  | .decode => "Error deserializing response"
  | .buildRequest cause => "Failed to build request: " ++ cause

/-! ## Targets -/

/-- A character that may stand in the path of a request. -/
def inPath (c : Char) : Bool :=
  let n := c.toNat
  n == 0x21 || (0x24 ≤ n && n ≤ 0x3B) || n == 0x3D || (0x40 ≤ n && n ≤ 0x5F) ||
    (0x61 ≤ n && n ≤ 0x7A) || n == 0x7C || 0x7E ≤ n || c = '"' || c = '\x7b' || c = '\x7d'

/-- A character that may stand in the query of a request. -/
def inQuery (c : Char) : Bool :=
  let n := c.toNat
  n == 0x21 || (0x24 ≤ n && n ≤ 0x3B) || n == 0x3D || 0x3F ≤ n

/-- Why no request can be built for a target. -/
def invalidTarget : String := "failed to build request: invalid uri character"

/-- Why no request can be built for a long target. -/
def longTarget : String := "failed to build request: uri too long"

/-- Why no request can be built for an object without a name. -/
def namelessTarget : String := "failed to validate request: A non-empty name is required"

/-- The path and query of a target: the path ends at the first question mark,
and nothing counts from a hash sign on. -/
def splitTarget (target : String) : Except Error (String × String) :=
  let kept := target.toList.takeWhile (· ≠ '#')
  let path := kept.takeWhile (· ≠ '?')
  let query := (kept.drop path.length).drop 1
  if Http.targetLimit < target.utf8ByteSize then .error (.buildRequest longTarget)
  else if path.all inPath && query.all inQuery then
    .ok (String.ofList path, String.ofList query)
  else .error (.buildRequest invalidTarget)

/-- A request for one object of a collection, or for a part of it.  `parameters`
is the text of the query. -/
def objectRequest (method : Http.Method) (collection name part parameters : String)
    (body : Option Json) : Except Error Request :=
  if name = "" then .error (.buildRequest namelessTarget)
  else
    let mark := if method = .get then "" else "?"
    (splitTarget (collection ++ "/" ++ name ++ part ++ mark ++ parameters)).map
      fun (path, query) => ⟨method, path, query, body⟩

/-- A request that adds an object to a collection. -/
def createRequest (collection : String) (body : Json) : Except Error Request :=
  (splitTarget (collection ++ "?")).map fun (path, query) => ⟨.post, path, query, some body⟩

/-! ## Exchanges -/

/-- The error that a response tells of. -/
def describeError (status : Nat) (body : String) : ErrorResponse :=
  match Json.decodeText? ErrorResponse.decoder (.ofString body) with
  | some e => e
  | none => ⟨Http.statusText status, Text.quoted body, "Failed to parse error data", status⟩

/-- The outcome of an exchange. -/
def judge {α : Type} (decoder : Decoder α) : Reply → Except Error α
  | .dropped cause => .error (.service cause)
  | .answer status body =>
      match body.strict with
      | none => .error .decode
      | some text =>
          if Http.isError status then .error (.api (describeError status text))
          else match Json.decodeText? decoder body with
            | some a => .ok a
            | none => .error .decode

/-- Sends a request, if it could be built, and reads the response. -/
def exchange {α : Type} (decoder : Decoder α) : Except Error Request → Talk (Except Error α)
  | .error e => .done (.error e)
  | .ok request => .ask (.api request) fun reply => .done (judge decoder reply)

end ConnectorKeeper.Api
