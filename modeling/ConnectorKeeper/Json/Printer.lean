import ConnectorKeeper.Json.Basic
import ConnectorKeeper.Text.Quoted

/-!
# Writing JSON texts

The compact form: no blanks, and only those characters escaped that must be.
A number that is not kept exactly is written as the shortest decimal of its
double, positionally from 0.00001 up to sixteen digits before the point.
-/

namespace ConnectorKeeper.Json

/-- A character inside a string literal. -/
def escape (c : Char) : List Char :=
  match c with
  | '"' => ['\\', '"']
  | '\\' => ['\\', '\\']
  | '\x08' => ['\\', 'b']
  | '\x0c' => ['\\', 'f']
  | '\n' => ['\\', 'n']
  | '\r' => ['\\', 'r']
  | '\t' => ['\\', 't']
  | c =>
      if c.toNat < 0x20 then
        ['\\', 'u', '0', '0', Nat.digitChar (c.toNat / 16), Nat.digitChar (c.toNat % 16)]
      else [c]

/-- A string literal. -/
def literalChars (s : List Char) : List Char := '"' :: s.flatMap escape ++ ['"']

/-- The digits of a double's shortest decimal, with a point or an exponent. -/
def floatChars (x : Float) : List Char :=
  let d := Decimal.shortest x
  let ds := Decimal.digits d.coefficient
  let count : Int := ds.length
  let point := count + d.exponent
  let exponentChars (n : Int) := 'e' :: (if n < 0 then ['-'] else []) ++ Decimal.digits n.natAbs
  if d.coefficient = 0 then ['0', '.', '0']
  else if 0 ≤ d.exponent && point ≤ 16 then
    ds ++ List.replicate d.exponent.toNat '0' ++ ['.', '0']
  else if 0 < point && point ≤ 16 then ds.take point.toNat ++ '.' :: ds.drop point.toNat
  else if -5 < point && point ≤ 0 then
    ['0', '.'] ++ List.replicate (-point).toNat '0' ++ ds
  else match ds with
    | [c] => c :: exponentChars (point - 1)
    | c :: rest => c :: '.' :: rest ++ exponentChars (point - 1)
    | [] => []

/-- A number. -/
def Number.chars : Number → List Char
  | .integer n =>
      if exact n then (if n < 0 then ['-'] else []) ++ Decimal.digits n.natAbs
      else (if n < 0 then ['-'] else []) ++ (((Number.integer n).toFloat).map floatChars).getD []
  | n@(.decimal negative ..) =>
      (if negative then ['-'] else []) ++ ((n.toFloat).map floatChars).getD []

mutual
/-- A value. -/
def chars : Json → List Char
  | .null | .cut => ['n', 'u', 'l', 'l']
  | .bool true => ['t', 'r', 'u', 'e']
  | .bool false => ['f', 'a', 'l', 's', 'e']
  | .number n => n.chars
  | .string s => literalChars (s.getD "").toList
  | .array [] => ['[', ']']
  | .array (v :: rest) => '[' :: chars v ++ itemsChars rest
  | .object [] => ['\x7b', '\x7d']
  | .object ((key, v) :: rest) =>
      '\x7b' :: literalChars (key.getD "").toList ++ ':' :: chars v ++ membersChars rest

/-- The items after the first, and the closing bracket. -/
def itemsChars : List Json → List Char
  | [] => [']']
  | v :: rest => ',' :: chars v ++ itemsChars rest

/-- The members after the first, and the closing brace. -/
def membersChars : List (Option String × Json) → List Char
  | [] => ['\x7d']
  | (key, v) :: rest =>
      ',' :: literalChars (key.getD "").toList ++ ':' :: chars v ++ membersChars rest
end

/-- The compact text of a value. -/
def print (v : Json) : String := String.ofList (chars v)

end ConnectorKeeper.Json
