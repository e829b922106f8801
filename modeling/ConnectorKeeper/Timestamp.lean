import ConnectorKeeper.Text.Parts

/-!
# Timestamps

A moment in universal time and the texts for it.  `Timestamp.parse?` reads the
forms of RFC 3339 and is lenient about blanks, leading zeros and signs of the
year.  `Timestamp.text` writes whole seconds and `Timestamp.textMicros` six
places, both with the final `Z`.

A leap second is kept inside the second before it, with a fraction of one
second or more.
-/

namespace ConnectorKeeper

/-- A moment: whole seconds since 1970-01-01T00:00:00Z and nanoseconds past them. -/
structure Timestamp where
  /-- Seconds since the epoch, negative before it. -/
  seconds : Int
  /-- Nanoseconds past the second, from 1,000,000,000 on inside a leap second. -/
  nanos : Nat
deriving DecidableEq, Repr

namespace Timestamp

/-! ## Calendar dates -/

/-- A date of the Gregorian calendar. -/
structure Date where
  /-- The year, zero and below for the years before the first. -/
  year : Int
  /-- The month, from one. -/
  month : Nat
  /-- The day of the month, from one. -/
  day : Nat

/-- Whether a year has a 29th of February. -/
def isLeapYear (year : Int) : Bool :=
  year % 4 == 0 && (year % 100 != 0 || year % 400 == 0)

/-- The days of a month. -/
def daysInMonth (year : Int) (month : Nat) : Nat :=
  if month = 2 then (if isLeapYear year then 29 else 28)
  else if month = 4 || month = 6 || month = 9 || month = 11 then 30 else 31

/-- The years that have a date. -/
def yearInRange (year : Int) : Bool := -262143 ≤ year && year ≤ 262142

/-- Whether there is such a date. -/
def Date.valid (d : Date) : Bool :=
  yearInRange d.year && 1 ≤ d.month && d.month ≤ 12 && 1 ≤ d.day &&
    d.day ≤ daysInMonth d.year d.month

/-- Days from the epoch to a date.  Years begin in March here, so that the leap
day comes last. -/
def Date.toDays (d : Date) : Int :=
  let year := if d.month ≤ 2 then d.year - 1 else d.year
  let era := year / 400
  let yearOfEra := year - era * 400
  let month : Int := if d.month ≤ 2 then d.month + 9 else d.month - 3
  let dayOfYear := (153 * month + 2) / 5 + d.day - 1
  let dayOfEra := yearOfEra * 365 + yearOfEra / 4 - yearOfEra / 100 + dayOfYear
  era * 146097 + dayOfEra - 719468

/-- The date so many days after the epoch. -/
def Date.ofDays (days : Int) : Date :=
  let shifted := days + 719468
  let era := shifted / 146097
  let dayOfEra := shifted - era * 146097
  let yearOfEra := (dayOfEra - dayOfEra / 1460 + dayOfEra / 36524 - dayOfEra / 146096) / 365
  let dayOfYear := dayOfEra - (365 * yearOfEra + yearOfEra / 4 - yearOfEra / 100)
  let march := (5 * dayOfYear + 2) / 153
  let day := dayOfYear - (153 * march + 2) / 5 + 1
  let month := if march < 10 then march + 3 else march - 9
  let year := yearOfEra + era * 400 + (if month ≤ 2 then 1 else 0)
  ⟨year, month.toNat, day.toNat⟩

/-! ## Writing -/

/-- A number with leading zeros up to a width. -/
def padded (width n : Nat) : String :=
  let ds := Nat.toDigits 10 n
  String.ofList (List.replicate (width - ds.length) '0' ++ ds)

/-- Nanoseconds in a second. -/
def nanosPerSecond : Nat := 1_000_000_000

/-- A year: four digits, and a sign where four digits do not suffice. -/
def yearText (year : Int) : String :=
  if 0 ≤ year && year ≤ 9999 then padded 4 year.toNat
  else (if year < 0 then "-" else "+") ++ padded 4 year.natAbs

/-- A moment up to its whole second, without the final `Z`. -/
def textSeconds (t : Timestamp) : String :=
  let date := Date.ofDays (t.seconds / 86400)
  let ofDay := (t.seconds % 86400).toNat
  let second := ofDay % 60 + (if nanosPerSecond ≤ t.nanos then 1 else 0)
  s!"{yearText date.year}-{padded 2 date.month}-{padded 2 date.day}T" ++
    s!"{padded 2 (ofDay / 3600)}:{padded 2 (ofDay / 60 % 60)}:{padded 2 second}"

/-- A moment with second precision. -/
def text (t : Timestamp) : String := t.textSeconds ++ "Z"

/-- A moment with six places. -/
def textMicros (t : Timestamp) : String :=
  t.textSeconds ++ "." ++ padded 6 (t.nanos % nanosPerSecond / 1000) ++ "Z"

/-- The fraction of a second with as many places as it needs: none, three, six or nine. -/
def fractionText (nanos : Nat) : String :=
  if nanos = 0 then ""
  else if nanos % 1_000_000 = 0 then "." ++ padded 3 (nanos / 1_000_000)
  else if nanos % 1000 = 0 then "." ++ padded 6 (nanos / 1000)
  else "." ++ padded 9 nanos

/-- A moment with all its precision and the offset of universal time. -/
def textFull (t : Timestamp) : String :=
  t.textSeconds ++ fractionText (t.nanos % nanosPerSecond) ++ "+00:00"

/-- A moment so many seconds later. -/
def addSeconds (t : Timestamp) (n : Int) : Timestamp := ⟨t.seconds + n, t.nanos⟩

/-- Whether a moment comes before another one. -/
def isBefore (a b : Timestamp) : Bool :=
  a.seconds < b.seconds || (a.seconds == b.seconds && a.nanos < b.nanos)

/-! ## Reading -/

/-- The value of ASCII digits. -/
def digitsValue (ds : List Char) : Nat := ds.foldl (fun n c => n * 10 + (c.toNat - 48)) 0

/-- At most `width` digits, at least one, and the rest. -/
def readDigits (width : Nat) (s : List Char) : Option (Nat × List Char) :=
  let ds := (s.takeWhile Char.isDigit).take width
  if ds.isEmpty then none else some (digitsValue ds, s.drop ds.length)

/-- A year: digits after a sign, or one to four digits. -/
def readYear (s : List Char) : Option (Int × List Char) :=
  match Text.dropBlank s with
  | '-' :: rest => (readDigits rest.length rest).map fun (n, r) => (-(n : Int), r)
  | '+' :: rest => (readDigits rest.length rest).map fun (n, r) => ((n : Int), r)
  | rest => (readDigits 4 rest).map fun (n, r) => ((n : Int), r)

/-- One or two digits after blanks. -/
def readTwo (s : List Char) : Option (Nat × List Char) := readDigits 2 (Text.dropBlank s)

/-- The rest after blanks and one given character. -/
def readMark (mark : Char) (s : List Char) : Option (List Char) :=
  match Text.dropBlank s with
  | c :: rest => if c = mark then some rest else none
  | [] => none

/-- Nanoseconds after a point; digits past the ninth do not count. -/
def readFraction : List Char → Option (Nat × List Char)
  | '.' :: rest =>
      let ds := rest.takeWhile Char.isDigit
      if ds.isEmpty then none
      else
        let kept := ds.take 9
        some (digitsValue kept * Nat.pow 10 (9 - kept.length), rest.drop ds.length)
  | rest => some (0, rest)

/-- Seconds east of universal time. -/
def readOffset : List Char → Option (Int × List Char)
  | 'Z' :: rest | 'z' :: rest => some (0, rest)
  | s@(sign :: h :: k :: rest) =>
      if (String.ofList [sign, h, k]).map Char.toUpper = "UTC" then some (0, s.drop 3)
      else if (sign = '+' || sign = '-' || sign = '\u2212') && h.isDigit && k.isDigit then
        match rest.dropWhile (fun c => c = ':' || Text.isBlank c) with
        | m :: n :: rest =>
            if '0' ≤ m && m ≤ '5' && n.isDigit then
              let offset : Int := digitsValue [h, k] * 3600 + digitsValue [m, n] * 60
              if offset < 86400 then some (if sign = '+' then offset else -offset, rest) else none
            else none
        | _ => none
      else none
  | _ => none

/-- A moment from its text. -/
def parse? (text : String) : Option Timestamp := do
  let (year, s) ← readYear text.toList
  let s ← readMark '-' s
  let (month, s) ← readTwo s
  let s ← readMark '-' s
  let (day, s) ← readTwo s
  let s ← match s with
    | 't' :: rest | 'T' :: rest | ' ' :: rest => some rest
    | _ => none
  let (hour, s) ← readTwo s
  let s ← readMark ':' s
  let (minute, s) ← readTwo s
  let s ← readMark ':' s
  let (second, s) ← readTwo s
  let (nanos, s) ← readFraction s
  let (offset, s) ← readOffset (Text.dropBlank s)
  let date : Date := ⟨year, month, day⟩
  let leap := second = 60
  let kept := if leap then 59 else second
  let moment := date.toDays * 86400 + (hour * 3600 + minute * 60 + kept : Nat) - offset
  if s.all Text.isBlank && date.valid && hour ≤ 23 && minute ≤ 59 && second ≤ 60 &&
      yearInRange (Date.ofDays (moment / 86400)).year then
    some ⟨moment, nanos + (if leap then nanosPerSecond else 0)⟩
  else none

end Timestamp

end ConnectorKeeper
