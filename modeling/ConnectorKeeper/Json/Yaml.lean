import ConnectorKeeper.Json.Printer

/-!
# Values as YAML

The block form: a member or an item on its own line, two blanks deeper than what
holds it, and the items of a list below its key without more blanks.  A text is
written as it is unless it could be taken for something else, and between single
quotation marks then.  Texts have one line.
-/

namespace ConnectorKeeper.Json

/-- The characters that a plain text cannot begin with. -/
def yamlIndicators : List Char := "-?:,[]\x7b\x7d#&*!|>'\"%@`~+.=<".toList

/-- The words that stand for other values. -/
def yamlWords : List String := ["null", "true", "false", "yes", "no", "on", "off", "y", "n"]

/-- Whether a text has a blank after a colon or before a number sign. -/
def endsPlain : List Char → Bool
  | [':'] | [' '] => true
  | ':' :: ' ' :: _ | ' ' :: '#' :: _ => true
  | _ :: rest => endsPlain rest
  | [] => false

/-- Whether a text must stand between quotation marks. -/
def needsQuotes (s : List Char) : Bool :=
  match s with
  | [] => true
  | '.' :: c :: rest => c.isDigit || endsPlain (c :: rest)
  | c :: _ =>
      c = ' ' || c.isDigit || yamlIndicators.contains c || endsPlain s ||
        yamlWords.contains (String.ofList (s.map Char.toLower))

/-- A text, between quotation marks if it must be. -/
def yamlText (s : String) : String :=
  if needsQuotes s.toList then
    "'" ++ String.ofList (s.toList.flatMap fun c => if c = '\'' then ['\'', '\''] else [c]) ++ "'"
  else s

/-- How a value stands in the text. -/
inductive YamlBlock where
  /-- Beside its key. -/
  | beside (text : String)
  /-- As a list, below its key. -/
  | items (lines : List String)
  /-- As an object, below its key and deeper. -/
  | members (lines : List String)

/-- Lines two blanks deeper. -/
def deeper (lines : List String) : List String := lines.map ("  " ++ ·)

/-- The lines of a member. -/
def YamlBlock.memberLines (key : String) : YamlBlock → List String
  | .beside text => [s!"{yamlText key}: {text}"]
  | .items lines => s!"{yamlText key}:" :: lines
  | .members lines => s!"{yamlText key}:" :: deeper lines

/-- Lines as an item: the first one after a hyphen. -/
def asItem : List String → List String
  | [] => []
  | line :: rest => ("- " ++ line) :: deeper rest

/-- The lines of an item. -/
def YamlBlock.itemLines : YamlBlock → List String
  | .beside text => ["- " ++ text]
  | .items lines | .members lines => asItem lines

/-- The lines of a whole text. -/
def YamlBlock.lines : YamlBlock → List String
  | .beside text => [text]
  | .items lines | .members lines => lines

mutual
/-- How a value stands in the text. -/
def yamlBlock : Json → YamlBlock
  | .null | .cut => .beside "null"
  | .bool b => .beside (if b then "true" else "false")
  | .number n => .beside (String.ofList n.chars)
  | .string s => .beside (yamlText (s.getD ""))
  | .array [] => .beside "[]"
  | .array (v :: rest) => .items ((yamlBlock v).itemLines ++ yamlItems rest)
  | .object [] => .beside "\x7b\x7d"
  | .object ((key, v) :: rest) =>
      .members ((yamlBlock v).memberLines (key.getD "") ++ yamlMembers rest)

/-- The lines of items. -/
def yamlItems : List Json → List String
  | [] => []
  | v :: rest => (yamlBlock v).itemLines ++ yamlItems rest

/-- The lines of members. -/
def yamlMembers : List (Option String × Json) → List String
  | [] => []
  | (key, v) :: rest => (yamlBlock v).memberLines (key.getD "") ++ yamlMembers rest
end

/-- A value as YAML. -/
def yaml (v : Json) : String := String.join ((yamlBlock v).lines.map (· ++ "\n"))

end ConnectorKeeper.Json
