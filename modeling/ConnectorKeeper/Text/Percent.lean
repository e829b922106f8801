import ConnectorKeeper.Text.Utf8

/-!
# Percent-encoding

A byte written as a percent sign and two hexadecimal digits.  What is written
so is the caller's choice, a predicate on characters; a character outside ASCII
is always written as the bytes of its UTF-8 form.
-/

namespace ConnectorKeeper.Text.Percent

/-- An upper-case hexadecimal digit. -/
def hexDigit (n : Nat) : Char := if n < 10 then Char.ofNat (48 + n) else Char.ofNat (55 + n)

/-- The value of a hexadecimal digit of either case. -/
def hexValue? (c : Char) : Option Nat :=
  if '0' ≤ c && c ≤ '9' then some (c.toNat - 48)
  else if 'A' ≤ c && c ≤ 'F' then some (c.toNat - 55)
  else if 'a' ≤ c && c ≤ 'f' then some (c.toNat - 87)
  else none

/-- A byte in its encoded form. -/
def encodeByte (b : UInt8) : List Char :=
  ['%', hexDigit (b.toNat / 16), hexDigit (b.toNat % 16)]

/-- A control character of ASCII or a character outside it.  These are encoded
everywhere. -/
def isControlOrForeign (c : Char) : Bool := c.toNat < 0x20 || 0x7E < c.toNat

/-- A character, encoded if it is in the set or is no printing ASCII character. -/
def encodeChar (set : Char → Bool) (c : Char) : List Char :=
  if isControlOrForeign c || set c then (String.utf8EncodeChar c).flatMap encodeByte else [c]

/-- A text, with the characters of the set encoded. -/
def encode (set : Char → Bool) (s : List Char) : List Char := s.flatMap (encodeChar set)

/-- The bytes that an encoded text stands for.  A percent sign that is not
followed by two digits stands for itself. -/
def decode : List Char → List UInt8
  | [] => []
  | '%' :: a :: b :: rest =>
      match hexValue? a, hexValue? b with
      | some a, some b => UInt8.ofNat (a * 16 + b) :: decode rest
      | _, _ => 0x25 :: decode (a :: b :: rest)
  | c :: rest => String.utf8EncodeChar c ++ decode rest

end ConnectorKeeper.Text.Percent
