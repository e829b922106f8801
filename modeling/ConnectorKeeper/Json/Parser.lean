import ConnectorKeeper.Json.Basic
import ConnectorKeeper.Text.Utf8
import ConnectorKeeper.Text.Percent

/-!
# Reading JSON texts

A text is read into a `Document`: the tree of its first value, and whether
nothing but blanks follows.  Reading always gives a tree.  Where the grammar is
broken the tree ends in `Json.cut`, and no more input is read.

Every reader here takes the input and gives what it read with the input left,
`none` once reading has stopped.  The nesting of readers is bounded by a count
that the length of the input makes large enough.
-/

namespace ConnectorKeeper.Json

open Text (ByteText)

/-- A blank between tokens. -/
def isSpace : Option Char → Bool
  | some c => c = ' ' || c = '\n' || c = '\t' || c = '\r'
  | none => false

/-- The input from its next token on. -/
def skip (s : ByteText) : ByteText := s.dropWhile isSpace

/-- The input after a given word, if it starts so. -/
def afterWord : List Char → ByteText → Option ByteText
  | [], s => some s
  | c :: word, some d :: s => if c = d then afterWord word s else none
  | _ :: _, _ => none

/-! ## Strings -/

/-- A code unit of four hexadecimal digits. -/
def codeUnit? : List (Option Char) → Option Nat
  | [some a, some b, some c, some d] => do
      let a ← Text.Percent.hexValue? a
      let b ← Text.Percent.hexValue? b
      let c ← Text.Percent.hexValue? c
      let d ← Text.Percent.hexValue? d
      some (((a * 16 + b) * 16 + c) * 16 + d)
  | _ => none

/-- The character of a short escape. -/
def shortEscape? : Char → Option Char
  | '"' => some '"'
  | '\\' => some '\\'
  | '/' => some '/'
  | 'b' => some '\x08'
  | 'f' => some '\x0c'
  | 'n' => some '\n'
  | 'r' => some '\r'
  | 't' => some '\t'
  | _ => none

/-- The characters of a string literal up to its closing quotation mark, `none`
for each that is no character, and the input after the mark.  No literal when
an escape is wrong, a control character stands bare or the mark is missing.
A pair of surrogates is one character, a lone one is none. -/
def literal : Nat → ByteText → Option (ByteText × ByteText)
  | 0, _ => none
  | _ + 1, [] => none
  | _ + 1, some '"' :: rest => some ([], rest)
  | fuel + 1, some '\\' :: some 'u' :: rest => do
      let unit ← codeUnit? (rest.take 4)
      let rest := rest.drop 4
      let lone := (literal fuel rest).map fun (cs, r) => (none :: cs, r)
      if 0xDC00 ≤ unit && unit ≤ 0xDFFF then lone
      else if 0xD800 ≤ unit && unit ≤ 0xDBFF then
        match rest with
        | some '\\' :: some 'u' :: after => do
            let second ← codeUnit? (after.take 4)
            if 0xDC00 ≤ second && second ≤ 0xDFFF then
              let code := 0x10000 + (unit - 0xD800) * 0x400 + (second - 0xDC00)
              (literal fuel (after.drop 4)).map fun (cs, r) => (some (Char.ofNat code) :: cs, r)
            else lone
        | _ => lone
      else (literal fuel rest).map fun (cs, r) => (some (Char.ofNat unit) :: cs, r)
  | fuel + 1, some '\\' :: some c :: rest => do
      let c ← shortEscape? c
      (literal fuel rest).map fun (cs, r) => (some c :: cs, r)
  | _ + 1, some '\\' :: _ => none
  | fuel + 1, c :: rest =>
      if c.any (·.toNat < 0x20) then none
      else (literal fuel rest).map fun (cs, r) => (c :: cs, r)

/-- A string literal after its opening quotation mark. -/
def readString (s : ByteText) : Option (Option String × ByteText) :=
  (literal (s.length + 1) s).map fun (cs, rest) => (cs.strict, rest)

/-! ## Numbers -/

/-- The digits at the start of the input, and the rest. -/
def readDigits : ByteText → List Char × ByteText
  | some c :: rest =>
      if c.isDigit then
        let (ds, r) := readDigits rest
        (c :: ds, r)
      else ([], some c :: rest)
  | s => ([], s)

/-- The value of digits. -/
def digitsValue (ds : List Char) : Nat := ds.foldl (fun n c => n * 10 + (c.toNat - 48)) 0

/-- The fraction of a number, if a point begins one.  None when no digit follows the point. -/
def readFraction : ByteText → Option (Option (List Char) × ByteText)
  | some '.' :: rest =>
      match readDigits rest with
      | ([], _) => none
      | (ds, r) => some (some ds, r)
  | s => some (none, s)

/-- The exponent of a number, if a letter begins one.  None when no digit follows. -/
def readExponent : ByteText → Option (Option Int × ByteText)
  | some e :: rest =>
      if e = 'e' || e = 'E' then
        let (negative, digits) :=
          match rest with
          | some '-' :: r => (true, r)
          | some '+' :: r => (false, r)
          | r => (false, r)
        match readDigits digits with
        | ([], _) => none
        | (ds, r) => some (some (if negative then -digitsValue ds else digitsValue ds), r)
      else some (none, some e :: rest)
  | s => some (none, s)

/-- A number after its sign. -/
def readMagnitude (negative : Bool) (s : ByteText) : Option (Number × ByteText) := do
  let (whole, s) := readDigits s
  if whole.isEmpty || (whole.head? = some '0' && 1 < whole.length) then none
  else
    let (fraction, s) ← readFraction s
    let (exponent, s) ← readExponent s
    let value := digitsValue whole
    if fraction.isNone && exponent.isNone && !(negative && value = 0) then
      some (.integer (if negative then -value else value), s)
    else some (.decimal negative whole (fraction.getD []) (exponent.getD 0), s)

/-- A number. -/
def readNumber : ByteText → Option (Number × ByteText)
  | some '-' :: rest => readMagnitude true rest
  | s => readMagnitude false s

/-! ## Values -/

/-- A value spelled as a word, if the word was complete. -/
def keyword (v : Json) : Option ByteText → Json × Option ByteText
  | some r => (v, some r)
  | none => (.cut, none)

mutual
/-- A value and the input after it. -/
def readValue : Nat → ByteText → Json × Option ByteText
  | 0, _ => (.cut, none)
  | fuel + 1, s =>
      match skip s with
      | some 'n' :: rest => keyword .null (afterWord ['u', 'l', 'l'] rest)
      | some 't' :: rest => keyword (.bool true) (afterWord ['r', 'u', 'e'] rest)
      | some 'f' :: rest => keyword (.bool false) (afterWord ['a', 'l', 's', 'e'] rest)
      | some '"' :: rest =>
          match readString rest with
          | some (text, r) => (.string text, some r)
          | none => (.cut, none)
      | some '[' :: rest =>
          match skip rest with
          | some ']' :: r => (.array [], some r)
          | r =>
              let (items, left) := readItems fuel r
              (.array items, left)
      | some '{' :: rest =>
          match skip rest with
          | some '}' :: r => (.object [], some r)
          | r =>
              let (members, left) := readMembers fuel r
              (.object members, left)
      | r =>
          match readNumber r with
          | some (n, r) => (.number n, some r)
          | none => (.cut, none)

/-- The items of an array from one of them on, up to the closing bracket. -/
def readItems : Nat → ByteText → List Json × Option ByteText
  | 0, _ => ([.cut], none)
  | fuel + 1, s =>
      match readValue fuel s with
      | (v, none) => ([v], none)
      | (v, some r) =>
          match skip r with
          | some ',' :: r =>
              let (items, left) := readItems fuel r
              (v :: items, left)
          | some ']' :: r => ([v], some r)
          | _ => ([v, .cut], none)

/-- The members of an object from one of them on, up to the closing brace. -/
def readMembers : Nat → ByteText → List (Option String × Json) × Option ByteText
  | 0, _ => ([(none, .cut)], none)
  | fuel + 1, s =>
      match skip s with
      | some '"' :: r =>
          match readString r with
          | none => ([(none, .cut)], none)
          | some (key, r) =>
              match skip r with
              | some ':' :: r =>
                  match readValue fuel r with
                  | (v, none) => ([(key, v)], none)
                  | (v, some r) =>
                      match skip r with
                      | some ',' :: r =>
                          let (members, left) := readMembers fuel r
                          ((key, v) :: members, left)
                      | some '}' :: r => ([(key, v)], some r)
                      | _ => ([(key, v), (none, .cut)], none)
              | _ => ([(key, .cut)], none)
      | _ => ([(none, .cut)], none)
end

/-- A text read as JSON. -/
structure Document where
  /-- The first value of the text. -/
  root : Json
  /-- Whether the text holds that value and nothing else. -/
  complete : Bool

/-- A text read as JSON. -/
def Document.ofText (s : ByteText) : Document :=
  match readValue (s.length + 1) s with
  | (v, some rest) => ⟨v, (skip rest).isEmpty⟩
  | (v, none) => ⟨v, false⟩

/-- The value of a text that is JSON throughout. -/
def parse? (s : ByteText) : Option Json :=
  let d := Document.ofText s
  if d.complete then some d.root else none

end ConnectorKeeper.Json
