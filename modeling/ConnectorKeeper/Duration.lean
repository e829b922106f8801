/-!
# Durations

A span of time in whole nanoseconds, below 2 ^ 64 seconds.  Multiplication
saturates at the greatest span.  The text of a duration uses the largest unit
that has a whole part.
-/

namespace ConnectorKeeper

/-- Nanoseconds in a second. -/
abbrev Duration.perSecond : Nat := 1_000_000_000

/-- The nanoseconds that no duration reaches. -/
abbrev Duration.bound : Nat := 0x1_0000_0000_0000_0000 * Duration.perSecond

/-- A span of time, in nanoseconds. -/
structure Duration where
  /-- The length in nanoseconds. -/
  nanos : Nat
  /-- The whole seconds fit 64 bits. -/
  bounded : nanos < Duration.bound := by decide
deriving DecidableEq

namespace Duration

/-- The greatest duration. -/
def max : Duration := ⟨bound - 1, by decide⟩

/-- A duration of so many nanoseconds, the greatest one if that is too long. -/
def ofNanos (n : Nat) : Duration :=
  if h : n < bound then ⟨n, h⟩ else max

/-- A duration of whole seconds. -/
def ofSeconds (n : Nat) : Duration := ofNanos (n * perSecond)

/-- A duration of whole milliseconds. -/
def ofMillis (n : Nat) : Duration := ofNanos (n * 1_000_000)

/-- The whole seconds of a duration. -/
def seconds (d : Duration) : Nat := d.nanos / perSecond

/-- The nanoseconds past the whole seconds. -/
def subsecond (d : Duration) : Nat := d.nanos % perSecond

/-- A duration several times over, the greatest one if that is too long. -/
def scale (d : Duration) (k : Nat) : Duration := ofNanos (d.nanos * k)

theorem nanos_ofNanos (n : Nat) : (ofNanos n).nanos = min n max.nanos := by
  unfold ofNanos
  split
  · next h => simp only [max, bound, perSecond] at h ⊢; omega
  · next h => simp only [max, bound, perSecond] at h ⊢; omega

theorem nanos_le_max (d : Duration) : d.nanos ≤ max.nanos := by
  have := d.bounded
  simp only [max, bound, perSecond] at this ⊢
  omega

instance : LE Duration := ⟨fun a b => a.nanos ≤ b.nanos⟩
instance : LT Duration := ⟨fun a b => a.nanos < b.nanos⟩
instance (a b : Duration) : Decidable (a ≤ b) := inferInstanceAs (Decidable (a.nanos ≤ b.nanos))
instance (a b : Duration) : Decidable (a < b) := inferInstanceAs (Decidable (a.nanos < b.nanos))
instance : Min Duration := ⟨fun a b => if a ≤ b then a else b⟩

/-- A count of `per` parts of a unit: the whole units, and after a point the
rest without trailing zeros. -/
def unitText (n per places : Nat) (unit : String) : String :=
  let rest := Nat.toDigits 10 (n % per)
  let padded := List.replicate (places - rest.length) '0' ++ rest
  let fraction := (padded.reverse.dropWhile (· == '0')).reverse
  let point := if n % per = 0 then "" else "." ++ String.ofList fraction
  toString (n / per) ++ point ++ unit

/-- The text of a duration. -/
def text (d : Duration) : String :=
  if perSecond ≤ d.nanos then unitText d.nanos perSecond 9 "s"
  else if 1_000_000 ≤ d.nanos then unitText d.nanos 1_000_000 6 "ms"
  else if 1000 ≤ d.nanos then unitText d.nanos 1000 3 "µs"
  else unitText d.nanos 1 0 "ns"

end Duration

end ConnectorKeeper
