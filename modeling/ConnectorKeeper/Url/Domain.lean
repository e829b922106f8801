import ConnectorKeeper.Net.Address
import ConnectorKeeper.Text.Parts

/-!
# Host names

From the host part of a URL to the form in which hosts are compared and
connected to.  A domain is percent-decoded and put in lower case, a label with
characters outside ASCII is written in Punycode, and a name whose last label is
a number is an IPv4 address, in any of its older forms.  A label that comes in
Punycode must be what writing its characters gives.
-/

namespace ConnectorKeeper.Url

open Text (splitAt)

/-! ## Punycode -/

/-- The bias for the next number, given the last one and how many are written. -/
def adaptBias (delta count : Nat) (first : Bool) : Nat :=
  let scaled := if first then delta / 700 else delta / 2
  shrink 40 (scaled + scaled / count) 0
where
  /-- Divides until the number is small, counting the divisions. -/
  shrink : Nat → Nat → Nat → Nat
    | 0, _, k => k
    | fuel + 1, d, k => if 455 < d then shrink fuel (d / 35) (k + 36) else k + 36 * d / (d + 38)

/-- A digit of Punycode. -/
def punycodeDigit (n : Nat) : Char := Char.ofNat (if n < 26 then 97 + n else 22 + n)

/-- The least digit in a place that another one follows. -/
def punycodeThreshold (bias k : Nat) : Nat :=
  if k ≤ bias + 1 then 1 else if bias + 26 ≤ k then 26 else k - bias

/-- A number as digits whose weights depend on the bias. -/
def punycodeNumber (bias : Nat) : Nat → Nat → Nat → List Char
  | 0, _, _ => []
  | fuel + 1, k, q =>
      let t := punycodeThreshold bias k
      if q < t then [punycodeDigit q]
      else punycodeDigit (t + (q - t) % (36 - t)) ::
        punycodeNumber bias fuel (k + 36) ((q - t) / (36 - t))

/-- What Punycode keeps while it writes. -/
structure PunycodeState where
  /-- The number to be written next. -/
  delta : Nat
  /-- The bias. -/
  bias : Nat
  /-- The characters placed so far. -/
  placed : Nat
  /-- The least code point not yet placed. -/
  next : Nat
  /-- What is written. -/
  out : List Char

/-- Writes one code point in all its places. -/
def placeCodePoint (label : List Nat) (basic : Nat) (s : PunycodeState) (m : Nat) :
    PunycodeState :=
  let start := { s with delta := s.delta + (m - s.next) * (s.placed + 1), next := m }
  let done := label.foldl
    (fun s c =>
      if c < m then { s with delta := s.delta + 1 }
      else if c = m then
        { s with
          out := s.out ++ punycodeNumber s.bias 40 36 s.delta
          bias := adaptBias s.delta (s.placed + 1) (s.placed == basic)
          delta := 0
          placed := s.placed + 1 }
      else s)
    start
  { done with delta := done.delta + 1, next := m + 1 }

/-- A label in Punycode. -/
def punycode (label : List Char) : List Char :=
  let codes := label.map Char.toNat
  let basic := label.filter (·.toNat < 128)
  let foreign := (codes.filter (128 ≤ ·)).mergeSort.eraseDups
  let separated := if basic.isEmpty then [] else basic ++ ['-']
  let start : PunycodeState := ⟨0, 72, basic.length, 128, separated⟩
  (foreign.foldl (placeCodePoint codes basic.length) start).out

/-- The value of a digit of Punycode. -/
def punycodeValue? (c : Char) : Option Nat :=
  if 'a' ≤ c && c ≤ 'z' then some (c.toNat - 97)
  else if '0' ≤ c && c ≤ '9' then some (c.toNat - 22)
  else none

/-- The number at the start of digits, read from the place `k` on where a digit
has the given weight. -/
def readPunycodeNumber (bias : Nat) : Nat → Nat → List Char → Option (Nat × List Char)
  | _, _, [] => none
  | k, weight, c :: rest => do
      let d ← punycodeValue? c
      let t := punycodeThreshold bias k
      if d < t then some (d * weight, rest)
      else
        let (more, rest) ← readPunycodeNumber bias (k + 36) (weight * (36 - t)) rest
        some (d * weight + more, rest)

/-- Places the characters that digits stand for.  The next one is `next` or
greater and comes at `position` or later. -/
def placeCharacters : Nat → Nat → Nat → Nat → List Char → List Char → Option (List Char)
  | _, _, _, _, placed, [] => some placed
  | 0, _, _, _, _, _ => none
  | fuel + 1, position, next, bias, placed, digits => do
      let (delta, rest) ← readPunycodeNumber bias 36 1 digits
      let count := placed.length + 1
      let code := next + (position + delta) / count
      let position' := (position + delta) % count
      if code.isValidChar then
        placeCharacters fuel (position' + 1) code (adaptBias delta count (position == 0))
          (placed.insertIdx position' (Char.ofNat code)) rest
      else none

/-- The label that Punycode stands for. -/
def ofPunycode? (s : List Char) : Option (List Char) :=
  let digits := (s.reverse.takeWhile (· ≠ '-')).reverse
  let basic := s.take (s.length - digits.length - 1)
  placeCharacters digits.length 0 128 72 basic digits

/-! ## Domains -/

/-- A letter of Latin Extended-A, by its code point, in the form in which names are
compared. -/
def foldExtendedLatin (n : Nat) : List Char :=
  if n = 0x130 then ['i', '\u0307']
  else if n = 0x132 || n = 0x133 then ['i', 'j']
  else if n = 0x13F || n = 0x140 then ['l', '\u00B7']
  else if n = 0x149 then ['\u02BC', 'n']
  else if n = 0x178 then ['\u00FF']
  else if n = 0x17F then ['s']
  else
    -- a capital stands before its small letter, at even places but for two stretches
    let capital :=
      if (0x139 ≤ n && n ≤ 0x148) || 0x179 ≤ n then n % 2 = 1 else n % 2 = 0 && n ≠ 0x138
    [Char.ofNat (if capital then n + 1 else n)]

/-- A character in the form in which names are compared, none if it does not count.  Of the
mapping of UTS 46 this covers ASCII and its full-width forms, the capitals of Latin-1, of
Greek without accents and of Cyrillic up to U+042F, the letters of Latin Extended-A, and
some signs that are dropped or stand for a point; any other character is left as it is. -/
def foldChar (c : Char) : List Char :=
  let n := c.toNat
  if n = 0xAD || n = 0x200B || n = 0x2060 || n = 0xFEFF || (0xFE00 ≤ n && n ≤ 0xFE0F) then []
  else if n = 0x3002 || n = 0xFF0E || n = 0xFF61 then ['.']
  else if 0xFF01 ≤ n && n ≤ 0xFF5E then [(Char.ofNat (n - 0xFEE0)).toLower]
  else if (0xC0 ≤ n && n ≤ 0xDE && n ≠ 0xD7) || (0x391 ≤ n && n ≤ 0x3A9) ||
      (0x410 ≤ n && n ≤ 0x42F) then [Char.ofNat (n + 32)]
  else if 0x400 ≤ n && n ≤ 0x40F then [Char.ofNat (n + 80)]
  else if 0x100 ≤ n && n ≤ 0x17F then foldExtendedLatin n
  else [c.toLower]

/-- A character that no host may hold. -/
def forbiddenInHost (c : Char) : Bool :=
  c = '\x00' || isLineOrSpace c || c = '#' || c = '/' || c = ':' || c = '<' || c = '>' ||
    c = '?' || c = '@' || c = '[' || c = '\\' || c = ']' || c = '^' || c = '|'
where
  /-- A tab, a line end or a space. -/
  isLineOrSpace (c : Char) : Bool := c = '\t' || c = '\n' || c = '\r' || c = ' '

/-- A character that no domain may hold. -/
def forbiddenInDomain (c : Char) : Bool :=
  forbiddenInHost c || c.toNat < 0x20 || c = '%' || (0x7F ≤ c.toNat && c.toNat < 0xA0) ||
    Text.isBlank c || c.toNat = 0x200C || c.toNat = 0x200D

/-- What begins a label in Punycode. -/
def punycodeMark : List Char := ['x', 'n', '-', '-']

/-- Whether Punycode is the one form of a label that needs it. -/
def isFaithful (s : List Char) : Bool :=
  match ofPunycode? s with
  | none => false
  | some label =>
      label.any (128 ≤ ·.toNat) && label.all (fun c => foldChar c = [c] && !forbiddenInDomain c) &&
        punycode label = s

/-- A label in its ASCII form. -/
def labelAscii? (label : List Char) : Option (List Char) :=
  let marked := punycodeMark.isPrefixOf label
  if !label.all (·.toNat < 128) then
    if marked then none else some (punycodeMark ++ punycode label)
  else if marked && !isFaithful (label.drop punycodeMark.length) then none
  else some label

/-- A domain in its ASCII form. -/
def domainAscii? (s : List Char) : Option (List Char) := do
  let decoded ← (Text.ByteText.ofBytes (Text.Percent.decode s)).strict
  let folded := decoded.toList.flatMap foldChar
  if folded.any forbiddenInDomain then none
  else do
    let labels ← (splitAt (· = '.') folded).mapM labelAscii?
    some (['.'].intercalate labels)

/-! ## IPv4 addresses -/

/-- A number in decimal, octal or hexadecimal, as its first characters tell. -/
def numberOfAnyBase? (s : List Char) : Option Nat :=
  match s with
  | [] => none
  | '0' :: 'x' :: ds | '0' :: 'X' :: ds =>
      if ds.all (fun c => (Text.Percent.hexValue? c).isSome) then some (Net.hexValue ds) else none
  | '0' :: d :: ds =>
      if (d :: ds).all (fun c => '0' ≤ c && c ≤ '7') then
        some ((d :: ds).foldl (fun n c => n * 8 + (c.toNat - 48)) 0)
      else none
  | ds => if ds.all Char.isDigit then some (Net.decimalValue ds) else none

/-- The labels of a domain without the empty one that a final point makes. -/
def labels (domain : List Char) : List (List Char) :=
  let parts := splitAt (· = '.') domain
  if parts.getLast? = some [] && 1 < parts.length then parts.dropLast else parts

/-- Whether the last label is a number, so that the domain must be an address. -/
def endsInNumber (domain : List Char) : Bool :=
  match (labels domain).getLast? with
  | none => false
  | some last => (!last.isEmpty && last.all Char.isDigit) || (numberOfAnyBase? last).isSome

/-- An IPv4 address of up to four numbers.  The last one fills all bytes that
the others leave. -/
def looseIpv4? (domain : List Char) : Option (List Nat) := do
  let numbers ← (labels domain).mapM numberOfAnyBase?
  let last ← numbers.getLast?
  let first := numbers.dropLast
  let left := 4 - first.length
  if 4 < numbers.length || first.any (255 < ·) || Nat.pow 256 left ≤ last then none
  else some (first ++ (List.range left).map fun i => last / Nat.pow 256 (left - 1 - i) % 256)

/-! ## Hosts -/

/-- An IPv6 address in brackets. -/
def bracketed? (s : List Char) : Option String := do
  match s.getLast? with
  | some ']' =>
      let groups ← Net.ipv6? ((s.drop 1).dropLast)
      some ("[" ++ Net.ipv6Text groups ++ "]")
  | _ => none

/-- The host of a URL with a scheme of the web. -/
def webHost? (s : List Char) : Option String := do
  if s.head? = some '[' then bracketed? s
  else
    let domain ← domainAscii? s
    if domain.isEmpty then none
    else if endsInNumber domain then (looseIpv4? domain).map Net.ipv4Text
    else some (String.ofList domain)

/-- The host of any other URL; it may be empty. -/
def opaqueHost? (s : List Char) : Option String :=
  if s.head? = some '[' then bracketed? s
  else if s.any forbiddenInHost then none
  else some (String.ofList (Text.Percent.encode (fun _ => false) s))

end ConnectorKeeper.Url
