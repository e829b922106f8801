import ConnectorKeeper.Http
import ConnectorKeeper.Program
import ConnectorKeeper.Timestamp

/-!
# The wire

The three things that a pass or a review can ask of its surroundings: an HTTP
exchange with a cluster, an exchange with the API server, and the time.
-/

namespace ConnectorKeeper

/-- A request to the API server, which has one address for all. -/
structure Api.Request where
  /-- The method. -/
  method : Http.Method
  /-- The path. -/
  path : String
  /-- The query, empty if there is none. -/
  query : String
  /-- The body, written as JSON. -/
  body : Option Json

/-- What comes back from the API server. -/
inductive Api.Reply where
  /-- No response, and why. -/
  | dropped (cause : String)
  /-- A response. -/
  | answer (status : Nat) (body : Text.ByteText)

/-- A question to the surroundings. -/
inductive Wire where
  /-- An HTTP exchange with a cluster. -/
  | cluster (request : Http.Request)
  /-- An exchange with the API server. -/
  | api (request : Api.Request)
  /-- The time. -/
  | clock

/-- The answers to a question. -/
def Wire.Reply : Wire → Type
  | .cluster _ => Option Http.Response
  | .api _ => Api.Reply
  | .clock => Timestamp

/-- A computation that talks to its surroundings. -/
abbrev Talk (α : Type) := Program Wire Wire.Reply α

end ConnectorKeeper
