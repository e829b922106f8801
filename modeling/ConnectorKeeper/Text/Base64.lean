/-!
# Base64

The standard alphabet with padding.  The reader takes only what the writer
gives: four characters at a time, padding at the end alone, and no bits set in
the part of the last character that no byte uses.
-/

namespace ConnectorKeeper.Text.Base64

/-- The character of a value below 64. -/
def digit (n : Nat) : Char :=
  if n < 26 then Char.ofNat (65 + n)
  else if n < 52 then Char.ofNat (71 + n)
  else if n < 62 then Char.ofNat (n - 4)
  else if n = 62 then '+' else '/'

/-- The value of a character of the alphabet. -/
def value? (c : Char) : Option Nat :=
  if 'A' ≤ c && c ≤ 'Z' then some (c.toNat - 65)
  else if 'a' ≤ c && c ≤ 'z' then some (c.toNat - 71)
  else if '0' ≤ c && c ≤ '9' then some (c.toNat + 4)
  else if c = '+' then some 62
  else if c = '/' then some 63
  else none

/-- Bytes as characters, three bytes to four characters. -/
def encodeChars : List UInt8 → List Char
  | [] => []
  | [a] => [digit (a.toNat / 4), digit (a.toNat % 4 * 16), '=', '=']
  | [a, b] =>
      [digit (a.toNat / 4), digit (a.toNat % 4 * 16 + b.toNat / 16), digit (b.toNat % 16 * 4), '=']
  | a :: b :: c :: rest =>
      digit (a.toNat / 4) :: digit (a.toNat % 4 * 16 + b.toNat / 16) ::
        digit (b.toNat % 16 * 4 + c.toNat / 64) :: digit (c.toNat % 64) :: encodeChars rest

/-- Bytes as text. -/
def encode (bytes : List UInt8) : String := String.ofList (encodeChars bytes)

/-- Characters as bytes, refused unless they are what `encodeChars` gives. -/
def decodeChars : List Char → Option (List UInt8)
  | [] => some []
  | [c, d, '=', '='] => do
      let c ← value? c
      let d ← value? d
      if d % 16 = 0 then some [UInt8.ofNat (c * 4 + d / 16)] else none
  | [c, d, e, '='] => do
      let c ← value? c
      let d ← value? d
      let e ← value? e
      if e % 4 = 0 then
        some [UInt8.ofNat (c * 4 + d / 16), UInt8.ofNat (d % 16 * 16 + e / 4)]
      else none
  | c :: d :: e :: f :: rest => do
      let c ← value? c
      let d ← value? d
      let e ← value? e
      let f ← value? f
      let bytes ← decodeChars rest
      some (UInt8.ofNat (c * 4 + d / 16) :: UInt8.ofNat (d % 16 * 16 + e / 4) ::
        UInt8.ofNat (e % 4 * 64 + f) :: bytes)
  | _ => none

/-- Text as bytes. -/
def decode? (s : String) : Option (List UInt8) := decodeChars s.toList

end ConnectorKeeper.Text.Base64
