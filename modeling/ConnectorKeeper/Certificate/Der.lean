/-!
# DER

The encoding of certificates and keys: elements of a tag, a length and a
content.  A length below 128 is one byte; a greater one is the number of its
bytes and then these, without leading zeros.
-/

namespace ConnectorKeeper.Der

/-- An element. -/
structure Element where
  /-- What the content is. -/
  tag : UInt8
  /-- The content. -/
  content : List UInt8
deriving DecidableEq, Repr

/-- The tag of an integer. -/
def integerTag : UInt8 := 0x02

/-- The tag of a string of bits. -/
def bitsTag : UInt8 := 0x03

/-- The tag of a string of bytes. -/
def bytesTag : UInt8 := 0x04

/-- The tag of an object identifier. -/
def identifierTag : UInt8 := 0x06

/-- The tag of a sequence. -/
def sequenceTag : UInt8 := 0x30

/-- The tag of a numbered part. -/
def partTag (n : Nat) : UInt8 := UInt8.ofNat (0xa0 + n)

/-- Bytes as a number, the greatest first. -/
def natural (bytes : List UInt8) : Nat := bytes.foldl (fun n b => n * 256 + b.toNat) 0

/-- A number as so many bytes. -/
def bytesOf (size n : Nat) : List UInt8 :=
  ((List.range size).map fun i => UInt8.ofNat (n / Nat.pow 256 i % 256)).reverse

/-- The length at the start of bytes. -/
def length? : List UInt8 → Option (Nat × List UInt8)
  | [] => none
  | b :: rest =>
      if b < 0x80 then some (b.toNat, rest)
      else
        let size := b.toNat - 0x80
        let bytes := rest.take size
        let n := natural bytes
        if size = 0 || 4 < size || bytes.length < size || n < 128 || n < Nat.pow 256 (size - 1) then none
        else some (n, rest.drop size)

/-- The element at the start of bytes. -/
def element? : List UInt8 → Option (Element × List UInt8)
  | [] => none
  | tag :: rest => do
      let (n, rest) ← length? rest
      if n ≤ rest.length then some (⟨tag, rest.take n⟩, rest.drop n) else none

/-- The elements that bytes consist of, at most so many. -/
def elementsUpTo : Nat → List UInt8 → Option (List Element)
  | _, [] => some []
  | 0, _ => none
  | n + 1, bytes => do
      let (e, rest) ← element? bytes
      let es ← elementsUpTo n rest
      some (e :: es)

/-- The elements that bytes consist of. -/
def elements? (bytes : List UInt8) : Option (List Element) := elementsUpTo bytes.length bytes

/-- The elements of a sequence. -/
def Element.sequence? (e : Element) : Option (List Element) :=
  if e.tag = sequenceTag then elements? e.content else none

/-- The elements of the sequence that bytes are. -/
def sequence? (bytes : List UInt8) : Option (List Element) := do
  match ← elements? bytes with
  | [e] => e.sequence?
  | _ => none

/-- A number that is not negative. -/
def Element.natural? (e : Element) : Option Nat :=
  match e.content with
  | b :: _ => if e.tag = integerTag && b < 0x80 then some (natural e.content) else none
  | [] => none

/-- The bytes of a string of bits that is a whole number of them. -/
def Element.bits? (e : Element) : Option (List UInt8) :=
  match e.content with
  | 0 :: bytes => if e.tag = bitsTag then some bytes else none
  | _ => none

end ConnectorKeeper.Der
