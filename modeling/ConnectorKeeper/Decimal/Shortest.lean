/-!
# Shortest decimals

The decimal with the fewest digits that a double precision number reads back
from, and of those the nearest.  A number is split into `significand * 2 ^
scale`; all later arithmetic is exact, on natural numbers.

A grid of `k` digits holds the multiples of one power of ten that have `k`
digits near the number.  If any point of a grid reads back as the number, so
does one of the number's two neighbours on it, so only those are tried, from
one digit up.  Seventeen digits always suffice.
-/

namespace ConnectorKeeper

/-- A decimal `coefficient * 10 ^ exponent`. -/
structure Decimal where
  /-- The digits, read as one number. -/
  coefficient : Nat
  /-- The power of ten. -/
  exponent : Int
deriving DecidableEq, Repr

namespace Decimal

/-- A positive number `significand * 2 ^ scale`. -/
structure Binary where
  /-- The significand, positive. -/
  significand : Nat
  /-- The power of two. -/
  scale : Int

/-- The number of fractions that a double can have. -/
def Binary.fractions : Nat := 0x10_0000_0000_0000

/-- The magnitude of a finite number other than zero. -/
def Binary.ofFloat? (x : Float) : Option Binary :=
  let bits := x.toBits.toNat % 0x8000_0000_0000_0000
  let biased : Nat := bits / fractions
  let fraction := bits % fractions
  if bits = 0 || biased = 2047 then none
  else if biased = 0 then some ⟨fraction, -1074⟩
  else some ⟨fractions + fraction, (biased : Int) - 1075⟩

/-- A fraction of natural numbers, the denominator positive. -/
structure Ratio where
  /-- The numerator. -/
  num : Nat
  /-- The denominator. -/
  den : Nat

/-- `n * 2 ^ scale` as a fraction. -/
def Ratio.ofBinary (n : Nat) (scale : Int) : Ratio :=
  if scale < 0 then ⟨n, Nat.pow 2 (-scale).toNat⟩ else ⟨n * Nat.pow 2 scale.toNat, 1⟩

/-- A fraction times a power of ten. -/
def Ratio.scaleTen (r : Ratio) (exponent : Int) : Ratio :=
  if exponent < 0 then ⟨r.num, r.den * Nat.pow 10 (-exponent).toNat⟩
  else ⟨r.num * Nat.pow 10 exponent.toNat, r.den⟩

/-- Twice the numbers that read back as one number lie between two bounds, and
on them too when the significand is even. -/
structure Interval where
  /-- Four times the number itself. -/
  value : Nat
  /-- Four times the lower bound. -/
  low : Nat
  /-- Four times the upper bound. -/
  high : Nat
  /-- Whether the bounds themselves read back. -/
  closed : Bool

/-- The interval of a number, in units of a quarter of its last place.  Below a
power of two the numbers are twice as dense. -/
def Binary.interval (b : Binary) : Interval :=
  let dense := b.significand == fractions && b.scale > -1074
  { value := 4 * b.significand
    low := 4 * b.significand - (if dense then 1 else 2)
    high := 4 * b.significand + 2
    closed := b.significand % 2 == 0 }

/-- The greatest power of ten that is not above a fraction below one, counted
downwards; gives up with the fuel. -/
def placesBelowOne : Nat → Ratio → Nat → Int
  | 0, _, down => -(down : Int)
  | fuel + 1, r, down =>
      if r.den ≤ r.num then -(down : Int) else placesBelowOne fuel ⟨r.num * 10, r.den⟩ (down + 1)

/-- The exponent of the greatest power of ten that is not above a fraction. -/
def Ratio.leadingPlace (r : Ratio) : Int :=
  if r.den ≤ r.num then ((Nat.toDigits 10 (r.num / r.den)).length : Int) - 1
  else placesBelowOne 400 r 0

/-- The neighbours of a number on the grid of `count` digits that read back as
it, the nearer first, and of two equally near the even one. -/
def Binary.onGrid (b : Binary) (count : Nat) : Option Decimal :=
  let i := b.interval
  let unit := b.scale - 2
  let exponent := (Ratio.ofBinary i.value unit).leadingPlace - count + 1
  let scaled (n : Nat) := (Ratio.ofBinary n unit).scaleTen (-exponent)
  let v := scaled i.value
  let low := scaled i.low
  let high := scaled i.high
  let inside (n : Nat) : Bool :=
    if i.closed then low.num ≤ n * low.den && n * high.den ≤ high.num
    else low.num < n * low.den && n * high.den < high.num
  let below := v.num / v.den
  let above := below + 1
  let fromBelow := v.num - below * v.den
  let toAbove := above * v.den - v.num
  let nearer :=
    if fromBelow < toAbove then below
    else if toAbove < fromBelow then above
    else if below % 2 = 0 then below else above
  let farther := if nearer = below then above else below
  if inside nearer then some ⟨nearer, exponent⟩
  else if inside farther then some ⟨farther, exponent⟩
  else none

/-- The first grid, from `count` digits on, with a decimal that reads back. -/
def Binary.firstGrid (b : Binary) : Nat → Nat → Decimal
  | 0, _ => ⟨0, 0⟩
  | fuel + 1, count =>
      match b.onGrid count with
      | some d => d
      | none => b.firstGrid fuel (count + 1)

/-- A decimal without trailing zeros in its coefficient. -/
def normalize : Nat → Decimal → Decimal
  | 0, d => d
  | fuel + 1, d =>
      if d.coefficient ≠ 0 && d.coefficient % 10 = 0 then
        normalize fuel ⟨d.coefficient / 10, d.exponent + 1⟩
      else d

/-- The shortest decimal of a finite number's magnitude; zero for zero. -/
def shortest (x : Float) : Decimal :=
  match Binary.ofFloat? x with
  | none => ⟨0, 0⟩
  | some b => (b.firstGrid 17 1).normalize 17

/-- Digits of a number in base ten. -/
def digits (n : Nat) : List Char := Nat.toDigits 10 n

/-- A decimal in positional notation, without a point for a whole number. -/
def positional (d : Decimal) : String :=
  let ds := digits d.coefficient
  if d.coefficient = 0 then "0"
  else if 0 ≤ d.exponent then String.ofList (ds ++ List.replicate d.exponent.toNat '0')
  else
    let places := (-d.exponent).toNat
    let padded := List.replicate (places + 1 - ds.length) '0' ++ ds
    String.ofList (padded.take (padded.length - places) ++ '.' :: padded.drop (padded.length - places))

end Decimal

end ConnectorKeeper
