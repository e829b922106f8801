import ConnectorKeeper.Url.Basic

/-!
# Path segments

Going from a base URL to a resource below it.  One empty segment at the end of
the base path is dropped, and each further segment is appended.  A segment that
is a dot or two dots appends nothing.
-/

namespace ConnectorKeeper.Url

/-- A segment that stands for its own directory. -/
def isSingleDot (s : List Char) : Bool :=
  s = ['.'] || (String.ofList s).toLower = "%2e"

/-- A segment that stands for the directory above. -/
def isDoubleDot (s : List Char) : Bool :=
  let t := (String.ofList s).toLower
  t = ".." || t = "%2e%2e" || t = "%2e." || t = ".%2e"

/-- The path without its last segment, if that is empty and not all there is. -/
def popEmpty (path : List String) : List String :=
  if path = [""] then path
  else match path.getLast? with
    | some "" => path.dropLast
    | _ => path

/-- The segments before an appended one; the path of a single slash has none. -/
def openEnd (path : List String) : List String := if path = [""] then [] else path

/-- Characters that are ignored in URLs. -/
def isIgnored (c : Char) : Bool := c = '\t' || c = '\n' || c = '\r'

/-- A path with a segment appended. -/
def push (special : Bool) (path : List String) (segment : String) : List String :=
  if segment = "." || segment = ".." then path
  else
    let kept := segment.toList.filter (!isIgnored ·)
    let encoded := Text.Percent.encode (segmentSet special) kept
    if isDoubleDot encoded then (openEnd path).dropLast ++ [""]
    else if isSingleDot encoded then openEnd path ++ [""]
    else openEnd path ++ [String.ofList encoded]

/-- The URL of a resource below a base. -/
def below (base : Url) (segments : List String) : Url :=
  { base with path := segments.foldl (push (isSpecial base.scheme)) (popEmpty base.path) }

end ConnectorKeeper.Url
