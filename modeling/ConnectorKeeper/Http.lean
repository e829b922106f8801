import ConnectorKeeper.Json.Basic
import ConnectorKeeper.Text.Utf8
import ConnectorKeeper.Url.Basic

/-!
# HTTP messages

Requests and responses as far as this library looks at them, and the words that
belong to status numbers.
-/

namespace ConnectorKeeper.Http

/-- A request method. -/
inductive Method where
  /-- Reads. -/
  | get
  /-- Creates. -/
  | post
  /-- Replaces. -/
  | put
  /-- Removes. -/
  | delete
  /-- Changes in part. -/
  | patch
deriving DecidableEq, Repr

/-- The word for a method. -/
def Method.name : Method → String
  | .get => "GET"
  | .post => "POST"
  | .put => "PUT"
  | .delete => "DELETE"
  | .patch => "PATCH"

/-- A request. -/
structure Request where
  /-- The method. -/
  method : Method
  /-- The address, without user and password. -/
  url : Url
  /-- The body, written as JSON. -/
  body : Option Json
  /-- Who asks. -/
  authorization : Option String

/-- A response, as the client that sends requests hands it back.  That client follows a
redirect which carries a `Location` by itself; a redirect without one is handed back like
any other response. -/
structure Response where
  /-- The status number. -/
  status : Nat
  /-- The body, none if the connection broke while it was read. -/
  body : Option Text.ByteText

/-- The words for a status number that tells of an error. -/
def reason? : Nat → Option String
  | 400 => some "Bad Request"
  | 401 => some "Unauthorized"
  | 402 => some "Payment Required"
  | 403 => some "Forbidden"
  | 404 => some "Not Found"
  | 405 => some "Method Not Allowed"
  | 406 => some "Not Acceptable"
  | 407 => some "Proxy Authentication Required"
  | 408 => some "Request Timeout"
  | 409 => some "Conflict"
  | 410 => some "Gone"
  | 411 => some "Length Required"
  | 412 => some "Precondition Failed"
  | 413 => some "Payload Too Large"
  | 414 => some "URI Too Long"
  | 415 => some "Unsupported Media Type"
  | 416 => some "Range Not Satisfiable"
  | 417 => some "Expectation Failed"
  | 418 => some "I'm a teapot"
  | 421 => some "Misdirected Request"
  | 422 => some "Unprocessable Entity"
  | 423 => some "Locked"
  | 424 => some "Failed Dependency"
  | 425 => some "Too Early"
  | 426 => some "Upgrade Required"
  | 428 => some "Precondition Required"
  | 429 => some "Too Many Requests"
  | 431 => some "Request Header Fields Too Large"
  | 451 => some "Unavailable For Legal Reasons"
  | 500 => some "Internal Server Error"
  | 501 => some "Not Implemented"
  | 502 => some "Bad Gateway"
  | 503 => some "Service Unavailable"
  | 504 => some "Gateway Timeout"
  | 505 => some "HTTP Version Not Supported"
  | 506 => some "Variant Also Negotiates"
  | 507 => some "Insufficient Storage"
  | 508 => some "Loop Detected"
  | 510 => some "Not Extended"
  | 511 => some "Network Authentication Required"
  | _ => none

/-- A status number with its words. -/
def statusText (status : Nat) : String :=
  s!"{status} " ++ (reason? status).getD "<unknown status code>"

/-- A status that tells of an error. -/
def isError (status : Nat) : Bool := 400 ≤ status && status ≤ 599

/-- The greatest length of a request's target or address. -/
def targetLimit : Nat := 65534

end ConnectorKeeper.Http
