import ConnectorKeeper.Text.Percent

/-!
# Base URLs

A URL that others can be built on: one with a hierarchical path.  The parts are
kept as they are written, with their percent-encoding.  The path is a list of
segments; `[""]` is the path of a single slash and `[]` is no path at all.
-/

namespace ConnectorKeeper

/-- A URL with a hierarchical path. -/
structure Url where
  /-- The scheme, in lower case. -/
  scheme : String
  /-- The user, empty if there is none. -/
  username : String
  /-- The password. -/
  password : Option String
  /-- The host, none where the URL has no authority. -/
  host : Option String
  /-- The port, none if it is the scheme's own. -/
  port : Option Nat
  /-- The segments of the path. -/
  path : List String
  /-- The text after the question mark. -/
  query : Option String
  /-- The text after the hash sign. -/
  fragment : Option String
deriving DecidableEq

namespace Url

/-- The port that a scheme stands for, for the schemes of the web. -/
def defaultPort? (scheme : String) : Option Nat :=
  if scheme = "http" || scheme = "ws" then some 80
  else if scheme = "https" || scheme = "wss" then some 443
  else if scheme = "ftp" then some 21
  else none

/-- A scheme whose URLs always have a path, where a backslash is as good as a slash. -/
def isSpecial (scheme : String) : Bool := (defaultPort? scheme).isSome || scheme = "file"

/-- The path as text. -/
def pathText (u : Url) : String := String.join (u.path.map ("/" ++ ·))

/-- User and password as text, up to the sign that ends them. -/
def userinfoText (u : Url) : String :=
  match u.password with
  | some p => u.username ++ ":" ++ p ++ "@"
  | none => if u.username = "" then "" else u.username ++ "@"

/-- The host and port as text. -/
def hostText (u : Url) : String :=
  u.host.getD "" ++ (u.port.map fun p => ":" ++ toString p).getD ""

/-- The URL up to its query.  A path that begins with two slashes is set apart
from the scheme, lest it be read as a host. -/
def textBeforeFragment (u : Url) : String :=
  let authority := if u.host.isSome then "//" ++ u.userinfoText ++ u.hostText else ""
  let apart := if u.host.isNone && u.pathText.startsWith "//" then "/." else ""
  u.scheme ++ ":" ++ authority ++ apart ++ u.pathText ++ (u.query.map ("?" ++ ·)).getD ""

/-- The URL as text. -/
def text (u : Url) : String := u.textBeforeFragment ++ (u.fragment.map ("#" ++ ·)).getD ""

/-! ## Characters that are percent-encoded -/

/-- In a fragment. -/
def fragmentSet (c : Char) : Bool := c = ' ' || c = '"' || c = '<' || c = '>' || c = '`'

/-- In a query; an apostrophe only for the schemes of the web. -/
def querySet (special : Bool) (c : Char) : Bool :=
  c = ' ' || c = '"' || c = '#' || c = '<' || c = '>' || (special && c = '\'')

/-- In a path. -/
def pathSet (c : Char) : Bool :=
  fragmentSet c || c = '#' || c = '?' || c = '\x7b' || c = '\x7d'

/-- In a segment that is appended to a path. -/
def segmentSet (special : Bool) (c : Char) : Bool :=
  pathSet c || c = '/' || c = '%' || (special && c = '\\')

/-- In a user or password. -/
def userinfoSet (c : Char) : Bool :=
  pathSet c || c = '/' || c = ':' || c = ';' || c = '=' || c = '@' || c = '[' || c = '\\' ||
    c = ']' || c = '^' || c = '|'

end Url

end ConnectorKeeper
