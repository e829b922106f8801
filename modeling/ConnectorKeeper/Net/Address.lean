import ConnectorKeeper.Text.Percent
import ConnectorKeeper.Text.Parts

/-!
# Network addresses

The texts of IPv4 and IPv6 addresses.  An IPv6 address has eight groups.  Its
text may leave out one run of zero groups, written as two colons, and may end in
an IPv4 address in place of the last two groups.
-/

namespace ConnectorKeeper.Net

/-- The value of decimal digits. -/
def decimalValue (ds : List Char) : Nat := ds.foldl (fun n c => n * 10 + (c.toNat - 48)) 0

/-- The value of hexadecimal digits. -/
def hexValue (ds : List Char) : Nat :=
  ds.foldl (fun n c => n * 16 + (Text.Percent.hexValue? c).getD 0) 0

/-- A number of one byte: up to three digits, without leading zeros. -/
def octet? (ds : List Char) : Option Nat :=
  if ds.isEmpty || 3 < ds.length || !ds.all Char.isDigit || (1 < ds.length && ds.head? = some '0')
  then none
  else
    let n := decimalValue ds
    if n ≤ 255 then some n else none

/-- The four bytes of an IPv4 address. -/
def ipv4? (s : List Char) : Option (List Nat) := do
  let octets ← (Text.splitAt (· = '.') s).mapM octet?
  if octets.length = 4 then some octets else none

/-- A group of an IPv6 address: up to four hexadecimal digits. -/
def group? (ds : List Char) : Option Nat :=
  if ds.isEmpty || 4 < ds.length || !ds.all (fun c => (Text.Percent.hexValue? c).isSome) then none
  else some (hexValue ds)

/-- Groups between colons; the last may be an IPv4 address and then counts twice. -/
def groups? : List (List Char) → Option (List Nat)
  | [] => some []
  | [part] =>
      if part.contains '.' then do
        match ← ipv4? part with
        | [a, b, c, d] => some [a * 256 + b, c * 256 + d]
        | _ => none
      else (group? part).map ([·])
  | part :: parts => do
      let g ← group? part
      let gs ← groups? parts
      some (g :: gs)

/-- The parts before and after the first two colons in a row. -/
def splitGap : List Char → Option (List Char × List Char)
  | ':' :: ':' :: rest => some ([], rest)
  | c :: rest => (splitGap rest).map fun (before, after) => (c :: before, after)
  | [] => none

/-- Groups of a text that may be empty. -/
def someGroups? (s : List Char) : Option (List Nat) :=
  if s.isEmpty then some [] else groups? (Text.splitAt (· = ':') s)

/-- The eight groups of an IPv6 address. -/
def ipv6? (s : List Char) : Option (List Nat) := do
  match splitGap s with
  | none =>
      let gs ← groups? (Text.splitAt (· = ':') s)
      if gs.length = 8 then some gs else none
  | some (before, after) =>
      if before.contains '.' then none
      else
        let head ← someGroups? before
        let tail ← someGroups? after
        let count := head.length + tail.length
        if count ≤ 7 then some (head ++ List.replicate (8 - count) 0 ++ tail) else none

/-- An IPv4 address in its usual form. -/
def ipv4Text (octets : List Nat) : String := ".".intercalate (octets.map toString)

/-- The length of the run of zeros at the start. -/
def zeroRun (gs : List Nat) : Nat := (gs.takeWhile (· == 0)).length

/-- The start and length of the longest run of zeros, the first of several. -/
def longestRun (gs : List Nat) : Nat × Nat :=
  (List.range gs.length).foldl
    (fun best i =>
      let run := zeroRun (gs.drop i)
      if best.2 < run then (i, run) else best)
    (0, 0)

/-- Groups between colons. -/
def groupsText (gs : List Nat) : String :=
  ":".intercalate (gs.map fun g => String.ofList (Nat.toDigits 16 g))

/-- An IPv6 address: two colons for its longest run of two or more zeros. -/
def ipv6Text (gs : List Nat) : String :=
  let (start, run) := longestRun gs
  if run < 2 then groupsText gs
  else groupsText (gs.take start) ++ "::" ++ groupsText (gs.drop (start + run))

end ConnectorKeeper.Net
