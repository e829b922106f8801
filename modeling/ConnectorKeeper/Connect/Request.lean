import ConnectorKeeper.Text.Base64
import ConnectorKeeper.Url.Parser
import ConnectorKeeper.Wire

/-!
# Requests to a cluster

Building the address of a request, sending it, and what can go wrong.  User and
password of an address are sent as credentials and are not part of the request's
own address.
-/

namespace ConnectorKeeper

/-- What can go wrong between here and a cluster. -/
inductive ClusterError where
  /-- The request could not be made of its address. -/
  | unsendable (url : String)
  /-- No response came. -/
  | noResponse (url : String)
  /-- The cluster answered with a status that the operation does not expect. -/
  | refused (operation : String) (status : Nat) (body : String)
  /-- The body of the response is not what the operation reads. -/
  | decode (operation : String)
  /-- The host of a record is no base URL. -/
  | invalidHost (host : String)
deriving DecidableEq

namespace ClusterError

/-- The message of an error. -/
def message : ClusterError → String
  | .unsendable url => s!"HTTP request failed: builder error for url ({url})"
  | .noResponse url => s!"HTTP request failed: error sending request for url ({url})"
  | .refused operation status body => s!"{operation} returned status {status}: {body}"
  | .decode operation => s!"failed to decode {operation} response: error decoding response body"
  | .invalidHost host => s!"invalid connector host '{host}'"

/-- Whether the cluster said that there is no such connector. -/
def isNotFound : ClusterError → Bool
  | .refused _ status _ => status == 404
  | _ => false

end ClusterError

namespace Connect

/-- The address of a resource of the cluster at `host`. -/
def endpoint (host : String) (segments : List String) : Except ClusterError Url :=
  match Url.parse? host with
  | some base => .ok (base.below segments)
  | none => .error (.invalidHost host)

/-- A percent-encoded part as text. -/
def decodedPart? (s : String) : Option String :=
  (Text.ByteText.ofBytes (Text.Percent.decode s.toList)).strict

/-- The credentials in an address, and the address without them.  A user that
cannot be read leaves both where they are. -/
def splitCredentials (url : Url) : Option String × Url :=
  match decodedPart? url.username with
  | none => (none, url)
  | some user =>
      let password := url.password.bind decodedPart?
      if user = "" && password.isNone then (none, url)
      else
        let plain := user ++ ":" ++ password.getD ""
        (some ("Basic " ++ Text.Base64.encode (Text.utf8 plain)),
          { url with username := "", password := none })

/-- Whether requests can be sent to an address: its scheme is one of the two,
its host has no character that a request cannot hold, and it is not too long. -/
def sendable (url : Url) : Bool :=
  (url.scheme = "http" || url.scheme = "https") &&
    !(url.hostText.toList.any fun c => c = '"' || c = '`' || c = '\x7b' || c = '\x7d') &&
    url.text.utf8ByteSize ≤ Http.targetLimit

/-- Sends a request and waits for its response.  It is one exchange, also where the HTTP
client follows redirects before it has a response. -/
def send (method : Http.Method) (url : Url) (body : Option Json) :
    Talk (Except ClusterError Http.Response) :=
  let (authorization, url) := splitCredentials url
  if sendable url then
    .ask (.cluster ⟨method, { url with fragment := none }, body, authorization⟩) fun
      | some response => .done (.ok response)
      | none => .done (.error (.noResponse url.text))
  else .done (.error (.unsendable url.text))

/-- The error of a response that the operation does not expect. -/
def unexpected (operation : String) (response : Http.Response) : ClusterError :=
  .refused operation response.status
    ((response.body.map Text.ByteText.lossy).getD "<failed to read body>")

/-- The body of a response, as the operation reads it. -/
def decodeBody {α : Type} (operation : String) (read : Text.ByteText → Option α)
    (response : Http.Response) : Except ClusterError α :=
  match response.body.bind read with
  | some a => .ok a
  | none => .error (.decode operation)

/-- Sends a request to a resource of a cluster, if the host is a base URL, and
judges the response. -/
def exchange {α : Type} (host : String) (segments : List String) (method : Http.Method)
    (body : Option Json) (judge : Http.Response → Except ClusterError α) :
    Talk (Except ClusterError α) :=
  match endpoint host segments with
  | .error e => .done (.error e)
  | .ok url => do
      match ← send method url body with
      | .error e => return .error e
      | .ok response => return judge response

end Connect

end ConnectorKeeper
