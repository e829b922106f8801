/-!
# UTF-8

Reading bytes as text.  A `ByteText` is what came off the wire: its characters
in order, with `none` for every run of bytes that is no character.  A run is as
long as some character's encoding begins that way, and one byte otherwise.

A reader that must refuse ill-formed bytes asks for `ByteText.strict`, one that
only shows them asks for `ByteText.lossy`, which puts U+FFFD in their place.
-/

namespace ConnectorKeeper.Text

/-- A text as it came off the wire, `none` standing for bytes that are no character. -/
abbrev ByteText := List (Option Char)

/-- A byte that may continue a character of two or more bytes. -/
def isContinuation (b : UInt8) : Bool := 0x80 ≤ b && b ≤ 0xBF

/-- How a first byte goes on: the bytes that may come second, the number of
continuation bytes, and the bits that the first byte gives. -/
structure Lead where
  /-- The least second byte. -/
  low : UInt8 := 0x80
  /-- The greatest second byte. -/
  high : UInt8 := 0xBF
  /-- The number of bytes that follow. -/
  more : Nat
  /-- The bits of the first byte. -/
  bits : Nat

/-- The class of a first byte, none for a byte that starts no character.  The
second byte is bounded so that no character is spelled longer than needed, no
surrogate is spelled, and none lies beyond U+10FFFF. -/
def Lead.of? (b : UInt8) : Option Lead :=
  if b < 0x80 then some ⟨0x80, 0xBF, 0, b.toNat⟩
  else if 0xC2 ≤ b && b ≤ 0xDF then some ⟨0x80, 0xBF, 1, b.toNat - 0xC0⟩
  else if b == 0xE0 then some ⟨0xA0, 0xBF, 2, 0⟩
  else if b == 0xED then some ⟨0x80, 0x9F, 2, 0xD⟩
  else if 0xE1 ≤ b && b ≤ 0xEF then some ⟨0x80, 0xBF, 2, b.toNat - 0xE0⟩
  else if b == 0xF0 then some ⟨0x90, 0xBF, 3, 0⟩
  else if 0xF1 ≤ b && b ≤ 0xF3 then some ⟨0x80, 0xBF, 3, b.toNat - 0xF0⟩
  else if b == 0xF4 then some ⟨0x80, 0x8F, 3, 4⟩
  else none

/-- The bits of a character after `more` further bytes, with the bytes left;
no bits when one of them does not continue it. -/
def takeContinuation : Nat → Nat → List UInt8 → Option Nat × List UInt8
  | 0, bits, rest => (some bits, rest)
  | _ + 1, _, [] => (none, [])
  | more + 1, bits, b :: rest =>
      if isContinuation b then takeContinuation more (bits * 64 + (b.toNat - 0x80)) rest
      else (none, b :: rest)

/-- One entry of a `ByteText` and the bytes after it. -/
def readChar (b : UInt8) (rest : List UInt8) : Option Char × List UInt8 :=
  match Lead.of? b with
  | none => (none, rest)
  | some ⟨_, _, 0, bits⟩ => (some (Char.ofNat bits), rest)
  | some ⟨low, high, more + 1, bits⟩ =>
      match rest with
      | [] => (none, [])
      | second :: after =>
          if low ≤ second && second ≤ high then
            let (bits, left) := takeContinuation more (bits * 64 + (second.toNat - 0x80)) after
            (bits.map Char.ofNat, left)
          else (none, rest)

theorem length_takeContinuation_le (more bits : Nat) (rest : List UInt8) :
    (takeContinuation more bits rest).2.length ≤ rest.length := by
  induction rest generalizing more bits with
  | nil => cases more <;> simp [takeContinuation]
  | cons b rest ih =>
    cases more with
    | zero => simp [takeContinuation]
    | succ more =>
      simp only [takeContinuation]
      split
      · exact Nat.le_succ_of_le (ih _ _)
      · exact Nat.le_refl _

theorem length_readChar_le (b : UInt8) (rest : List UInt8) :
    (readChar b rest).2.length ≤ rest.length := by
  unfold readChar
  split
  · exact Nat.le_refl _
  · exact Nat.le_refl _
  · split
    · exact Nat.le_refl _
    · split
      · exact Nat.le_succ_of_le (length_takeContinuation_le _ _ _)
      · exact Nat.le_refl _

/-- Bytes read as text. -/
def ByteText.ofBytes : List UInt8 → ByteText
  | [] => []
  | b :: rest => (readChar b rest).1 :: ByteText.ofBytes (readChar b rest).2
termination_by bytes => bytes.length
decreasing_by exact Nat.lt_succ_of_le (length_readChar_le b rest)

/-- A text of characters only. -/
def ByteText.ofString (s : String) : ByteText := s.toList.map some

/-- The text, if all of it is characters. -/
def ByteText.strict (t : ByteText) : Option String := (t.mapM id).map String.ofList

/-- The text with U+FFFD for all that is no character. -/
def ByteText.lossy (t : ByteText) : String := String.ofList (t.map (·.getD '\uFFFD'))

@[simp] theorem ByteText.lossy_ofString (s : String) : (ByteText.ofString s).lossy = s := by
  simp [ByteText.lossy, ByteText.ofString, Function.comp_def]

@[simp] theorem ByteText.strict_ofString (s : String) : (ByteText.ofString s).strict = some s := by
  have h : ∀ l : List Char, (l.map some).mapM id = some l := by
    intro l
    induction l with
    | nil => rfl
    | cons c l ih => simp [List.mapM_cons, ih]
  simp [ByteText.strict, ByteText.ofString, h]

/-- The bytes of a text. -/
def utf8 (s : String) : List UInt8 := s.toList.flatMap String.utf8EncodeChar

end ConnectorKeeper.Text
