import ConnectorKeeper.Decimal.Shortest

/-!
# JSON values

The tree of a JSON text.  An object keeps its members in the order of the text,
repeated keys included, because readers differ in what they make of those.

Two things can be wrong inside a text without ending it at once.  A string may
hold half a surrogate pair or bytes that are no character.  It is read as
`string none`, and only a reader that needs the text refuses it.  Where the text
breaks off or breaks the grammar the tree ends in `cut`, and what comes before
the cut is still there to be judged first.
-/

namespace ConnectorKeeper

/-- A number as it was written. -/
inductive Json.Number where
  /-- A number without fraction and exponent, other than minus zero. -/
  | integer (value : Int)
  /-- Any other number: sign, digits before and after the point, exponent. -/
  | decimal (negative : Bool) (whole fraction : List Char) (exponent : Int)
deriving DecidableEq, Repr

/-- A JSON value. -/
inductive Json where
  /-- The null value. -/
  | null
  /-- A truth value. -/
  | bool (value : Bool)
  /-- A number. -/
  | number (value : Json.Number)
  /-- A string, none if it stands for no text. -/
  | string (text : Option String)
  /-- An array. -/
  | array (items : List Json)
  /-- An object, its members in the order of the text. -/
  | object (members : List (Option String × Json))
  /-- The place where reading stopped. -/
  | cut
deriving Inhabited, Repr

namespace Json

/-- A text as a value. -/
def text (s : String) : Json := .string (some s)

/-- An integer as a value. -/
def int (n : Int) : Json := .number (.integer n)

/-- An object with the given members. -/
def record (members : List (String × Json)) : Json :=
  .object (members.map fun m => (some m.1, m.2))

/-- A member that is there only if it has a value. -/
def optional (key : String) : Option Json → List (String × Json)
  | none => []
  | some v => [(key, v)]

/-- The value of a key of an object, the last one if it is repeated. -/
def member? (key : String) : Json → Option Json
  | .object members => (members.reverse.find? (·.1 == some key)).map (·.2)
  | _ => none

/-! ## Numbers -/

/-- The greatest significand that reading keeps; digits past it are dropped. -/
def Number.significandLimit : Nat := 0xffff_ffff_ffff_ffff

/-- Digits appended to a significand while it stays below the limit, with the
number of digits left over. -/
def Number.takeDigits : Nat → List Char → Nat × Nat
  | n, [] => (n, 0)
  | n, c :: rest =>
      let next := n * 10 + (c.toNat - 48)
      if next ≤ significandLimit then takeDigits next rest else (n, rest.length + 1)

/-- A double times a power of ten, none beyond the finite numbers.  Exponents
below those of the doubles are taken in steps. -/
def Number.scale : Nat → Float → Int → Option Float
  | 0, x, _ => some x
  | fuel + 1, x, exponent =>
      if exponent.natAbs ≤ 308 then
        let power := Float.ofScientific 1 false exponent.natAbs
        let scaled := if 0 ≤ exponent then x * power else x / power
        if scaled.isInf then none else some scaled
      else if x == 0 then some x
      else if 0 ≤ exponent then none
      else scale fuel (x / Float.ofScientific 1 false 308) (exponent + 308)

/-- The double a literal stands for, none if it is too large.  The significand
and the power of ten are rounded each, and their product once more. -/
def Number.literalFloat (negative : Bool) (whole fraction : List Char) (exponent : Int) :
    Option Float :=
  let (significand, dropped) := takeDigits 0 whole
  let (significand', left) := takeDigits significand fraction
  let places : Int := (fraction.length - left : Nat)
  let magnitude := scale 5 (UInt64.ofNat significand').toFloat (exponent + dropped - places)
  magnitude.map fun x => if negative then -x else x

/-- The double a number stands for, none if it is too large. -/
def Number.toFloat : Number → Option Float
  | .integer n => literalFloat (n < 0) (Decimal.digits n.natAbs) [] 0
  | .decimal negative whole fraction exponent => literalFloat negative whole fraction exponent

/-- Whether a whole number is kept exactly: it fits 64 bits, with or without sign. -/
def Number.exact (n : Int) : Bool := -0x8000_0000_0000_0000 ≤ n && n < 0x1_0000_0000_0000_0000

/-- Whether a number has a finite value. -/
def Number.finite : Number → Bool
  | n => n.toFloat.isSome

/-! ## Shape -/

mutual
/-- Whether reading stopped inside a value. -/
def hasCut : Json → Bool
  | .array items => anyCut items
  | .object members => anyMemberCut members
  | .cut => true
  | _ => false

/-- Whether reading stopped inside one of the items. -/
def anyCut : List Json → Bool
  | [] => false
  | v :: rest => hasCut v || anyCut rest

/-- Whether reading stopped inside one of the members. -/
def anyMemberCut : List (Option String × Json) → Bool
  | [] => false
  | (_, v) :: rest => hasCut v || anyMemberCut rest
end

mutual
/-- The value with keys ascending and, of a repeated key, the last member only. -/
def sorted : Json → Json
  | .array items => .array (sortedItems items)
  | .object members => .object (sortedMembers members)
  | v => v

/-- Every item sorted. -/
def sortedItems : List Json → List Json
  | [] => []
  | v :: rest => sorted v :: sortedItems rest

/-- The members sorted, those of the tail winning over the head. -/
def sortedMembers : List (Option String × Json) → List (Option String × Json)
  | [] => []
  | (key, v) :: rest => place key (sorted v) (sortedMembers rest)
where
  /-- A member put among sorted ones, unless its key is there already. -/
  place (key : Option String) (v : Json) :
      List (Option String × Json) → List (Option String × Json)
    | [] => [(key, v)]
    | (k, w) :: rest =>
        if key.getD "" < k.getD "" then (key, v) :: (k, w) :: rest
        else if key = k then (k, w) :: rest
        else (k, w) :: place key v rest
end

end Json

end ConnectorKeeper
