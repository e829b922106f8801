import ConnectorKeeper.Text.Base64
import ConnectorKeeper.Text.Parts

/-!
# PEM texts

A PEM text holds sections of bytes in base64, each between a line that begins it
and a line that ends it.  Both lines carry the section's label.  Text outside
the sections means nothing, and neither do sections with a label that is not
among the known ones.

Reading ends at the first fault: a line that begins a section badly, bytes that
are no base64, or a section without an end.  The sections before the fault are
there.
-/

namespace ConnectorKeeper.Text.Pem

/-- The labels of sections that are read. -/
def knownLabels : List String :=
  ["CERTIFICATE", "PUBLIC KEY", "RSA PRIVATE KEY", "PRIVATE KEY", "EC PRIVATE KEY", "X509 CRL",
    "CERTIFICATE REQUEST", "ECHCONFIG"]

/-- A section. -/
structure Section where
  /-- What the bytes are. -/
  label : String
  /-- The bytes. -/
  bytes : List UInt8
deriving DecidableEq, Repr

/-- What reading a text gives. -/
structure Contents where
  /-- The sections up to the first fault. -/
  sections : List Section
  /-- Whether there is a fault. -/
  faulty : Bool
deriving DecidableEq, Repr

/-- The contents with a section before them. -/
def Contents.after (s : Section) (c : Contents) : Contents := { c with sections := s :: c.sections }

/-- The characters that bytes in base64 may be spaced by. -/
def isSpace (c : Char) : Bool := c = ' ' || ('\t' ≤ c && c ≤ '\r')

/-- The characters without equals signs at the end, two at most. -/
def dropPadding (s : List Char) : List Char :=
  match s.reverse with
  | '=' :: '=' :: rest => rest.reverse
  | '=' :: rest => rest.reverse
  | _ => s

/-- The bytes of characters without padding.  The bits of the last character
that no byte uses do not matter. -/
def decodeUnpadded : List Char → Option (List UInt8)
  | [] => some []
  | [c, d] => do
      let c ← Base64.value? c
      let d ← Base64.value? d
      some [UInt8.ofNat (c * 4 + d / 16)]
  | [c, d, e] => do
      let c ← Base64.value? c
      let d ← Base64.value? d
      let e ← Base64.value? e
      some [UInt8.ofNat (c * 4 + d / 16), UInt8.ofNat (d % 16 * 16 + e / 4)]
  | c :: d :: e :: f :: rest => do
      let c ← Base64.value? c
      let d ← Base64.value? d
      let e ← Base64.value? e
      let f ← Base64.value? f
      let bytes ← decodeUnpadded rest
      some (UInt8.ofNat (c * 4 + d / 16) :: UInt8.ofNat (d % 16 * 16 + e / 4) ::
        UInt8.ofNat (e % 4 * 64 + f) :: bytes)
  | _ => none

/-- The bytes of a section's lines.  Padding may be missing, but what there is
fills a group of four. -/
def decodeBody (body : List Char) : Option (List UInt8) :=
  let kept := body.filter (!isSpace ·)
  let bare := dropPadding kept
  if kept.length = bare.length || kept.length % 4 = 0 then decodeUnpadded bare else none

/-! ## Lines -/

/-- What begins the line that begins a section. -/
def beginning : List Char := "-----BEGIN ".toList

/-- What begins the line that ends a section. -/
def ending : List Char := "-----END ".toList

/-- The hyphens around a label. -/
def hyphens : List Char := List.replicate 5 '-'

/-- Whether a character may stand among the hyphens that end a line. -/
def isTrailer (c : Char) : Bool := c = '-' || c = ' '

/-- The label of a line that begins a section, given what follows `beginning`.
The line ends with five hyphens, and blanks among and after them do not count.
What stands before the first hyphen is the label. -/
def labelOf? (s : List Char) : Option (List Char) :=
  let trailer := s.reverse.takeWhile isTrailer
  let blanks := trailer.reverse.takeWhile (· = ' ')
  if trailer.count '-' = 5 then some (s.take (s.length - trailer.length + blanks.length)) else none

/-- Whether a line ends the section of a label. -/
def endsSection (label line : List Char) : Bool := (ending ++ label ++ hyphens).isPrefixOf line

/-- The contents of lines, given the label and the lines so far of the section
that they begin in, if they do. -/
def readLines : Option (List Char) → List Char → List (List Char) → Contents
  | none, _, [] => ⟨[], false⟩
  | some _, _, [] => ⟨[], true⟩
  | within, body, line :: rest =>
      if beginning.isPrefixOf line then
        match labelOf? (line.drop beginning.length) with
        | some label => readLines (some label) body rest
        | none => ⟨[], true⟩
      else match within with
        | none => readLines none body rest
        | some label =>
            if endsSection label line then
              if knownLabels.contains (String.ofList label) then
                match decodeBody body with
                | some bytes =>
                    (readLines none [] rest).after ⟨String.ofList label, bytes⟩
                | none => ⟨[], true⟩
              else readLines none [] rest
            else readLines (some label) (body ++ line) rest

/-- The contents of a text. -/
def read (s : String) : Contents :=
  readLines none [] (splitAt (fun c => c = '\n' || c = '\r') s.toList)

end ConnectorKeeper.Text.Pem
