import ConnectorKeeper.Url.Domain
import ConnectorKeeper.Url.Segments

/-!
# Reading URLs

`Url.parse?` reads an absolute URL with a hierarchical path and refuses all
else.  Blanks and controls around the text and tabs and line ends within it do
not count.  The text is cut at its first hash sign and question mark, then into
scheme, authority and path.  Dot segments of the path are resolved, and what may
not stand bare is percent-encoded.
-/

namespace ConnectorKeeper.Url

open Text.Percent (encode)
open Text (splitAt)

/-- The text before and after the first character of a kind. -/
def cutAt (mark : Char → Bool) : List Char → List Char × Option (List Char)
  | [] => ([], none)
  | c :: rest =>
      if mark c then ([], some rest)
      else
        let (before, after) := cutAt mark rest
        (c :: before, after)

/-- The characters that count. -/
def relevant (s : String) : List Char :=
  let outer (c : Char) : Bool := c.toNat ≤ 0x20
  let trimmed := (((s.toList.dropWhile outer).reverse).dropWhile outer).reverse
  trimmed.filter (!isIgnored ·)

/-- The scheme in lower case, and the text after its colon. -/
def scheme? (s : List Char) : Option (String × List Char) :=
  let isPart (c : Char) : Bool := c.isAlphanum || c = '+' || c = '-' || c = '.'
  match cutAt (· = ':') s with
  | (name@(first :: _), some rest) =>
      if first.isAlpha && name.all isPart then some ((String.ofList name).toLower, rest) else none
  | _ => none

/-- Whether a character separates segments. -/
def isSlash (special : Bool) (c : Char) : Bool := c = '/' || (special && c = '\\')

/-! ## Paths -/

/-- The segments of a path, dots resolved, onto those already read. -/
def resolve (special : Bool) : List String → List (List Char) → List String
  | done, [] => done
  | done, [last] =>
      let s := encode pathSet last
      if isDoubleDot s then done.dropLast ++ [""]
      else if isSingleDot s then done ++ [""]
      else done ++ [String.ofList s]
  | done, part :: rest =>
      let s := encode pathSet part
      if isDoubleDot s then resolve special done.dropLast rest
      else if isSingleDot s then resolve special done rest
      else resolve special (done ++ [String.ofList s]) rest

/-- The path of a URL.  The first slash only begins it. -/
def readPath (special : Bool) (s : List Char) : List String :=
  match s with
  | [] => if special then [""] else []
  | c :: rest =>
      let body := if isSlash special c then rest else s
      resolve special [] (splitAt (isSlash special) body)

/-! ## Authorities -/

/-- The text before and after the last `@`. -/
def cutAtLast (s : List Char) : Option (List Char × List Char) :=
  match s with
  | [] => none
  | c :: rest =>
      match cutAtLast rest with
      | some (before, after) => some (c :: before, after)
      | none => if c = '@' then some ([], rest) else none

/-- The text of a host and that of its port; a colon in brackets is the host's. -/
def cutPort (inside : Bool) : List Char → List Char × Option (List Char)
  | [] => ([], none)
  | c :: rest =>
      if c = ':' && !inside then ([], some rest)
      else
        let (host, port) := cutPort (if c = '[' then true else if c = ']' then false else inside) rest
        (c :: host, port)

/-- A port, none within if it is left out or the scheme's own. -/
def port? (scheme : String) (s : List Char) : Option (Option Nat) :=
  if !s.all Char.isDigit then none
  else
    let n := Net.decimalValue s
    if 65535 < n then none
    else some (if s.isEmpty || defaultPort? scheme = some n then none else some n)

/-- User and password. -/
def credentials (s : List Char) : String × Option String :=
  let text (cs : List Char) := String.ofList (encode userinfoSet cs)
  match cutAt (· = ':') s with
  | (user, none) => (text user, none)
  | (user, some []) => (text user, none)
  | (user, some password) => (text user, some (text password))

/-- A URL of its scheme and authority.  `more` tells whether anything follows
the authority; an empty user must not be followed by nothing at all. -/
def authority? (scheme : String) (s : List Char) (more : Bool) : Option Url := do
  let special := isSpecial scheme
  let (user, location) := (cutAtLast s).elim (none, s) fun (u, l) => (some u, l)
  if user = some [] && location.isEmpty && more then none
  else
    let (username, password) := (user.map credentials).getD ("", none)
    let (hostPart, portPart) := cutPort false location
    let host ← if special then webHost? hostPart else opaqueHost? hostPart
    let port ← (portPart.map (port? scheme)).getD (some none)
    if host = "" && (portPart.isSome || username ≠ "" || password.isSome) then none
    else some ⟨scheme, username, password, some host, port, [], none, none⟩

/-! ## URLs -/

/-- A URL of a file: a host that may be empty or `localhost`, and a path without
leading empty segments.  The letter of a drive at the start of the path is a segment like
any other here; nothing is ever sent to such a URL. -/
def file? (s : List Char) : Option Url := do
  let trimmed (path : List String) : List String :=
    match path.dropWhile (· = "") with
    | [] => [""]
    | rest => rest
  let build (host : String) (path : List Char) : Url :=
    ⟨"file", "", none, some host, none, trimmed (readPath true path), none, none⟩
  match s with
  | a :: b :: rest =>
      if isSlash true a && isSlash true b then
        let hostPart := rest.takeWhile (!isSlash true ·)
        let path := rest.drop hostPart.length
        if hostPart.isEmpty then some (build "" path)
        else
          let host ← webHost? hostPart
          some (build (if host = "localhost" then "" else host) path)
      else some (build "" s)
  | _ => some (build "" s)

/-- The parts of a URL between its scheme and its query. -/
def hierarchy? (scheme : String) (s : List Char) (more : Bool) : Option Url := do
  let special := isSpecial scheme
  if scheme = "file" then file? s
  else
    let body : Option (List Char) :=
      if special then some (s.dropWhile (isSlash true))
      else match s with
        | '/' :: '/' :: rest => some rest
        | _ => none
    match body with
    | some body =>
        let location := body.takeWhile fun c => !isSlash special c
        let path := body.drop location.length
        let url ← authority? scheme location (more || !path.isEmpty)
        some { url with path := readPath special path }
    | none =>
        match s with
        | '/' :: _ => some ⟨scheme, "", none, none, none, readPath special s, none, none⟩
        | _ => none

/-- An absolute URL that others can be built on. -/
def parse? (s : String) : Option Url := do
  let (scheme, rest) ← scheme? (relevant s)
  let (rest, fragment) := cutAt (· = '#') rest
  let (rest, query) := cutAt (· = '?') rest
  let url ← hierarchy? scheme rest (query.isSome || fragment.isSome)
  some { url with
    query := query.map fun q => String.ofList (encode (querySet (isSpecial scheme)) q)
    fragment := fragment.map fun f => String.ofList (encode fragmentSet f) }

end ConnectorKeeper.Url
