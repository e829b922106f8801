/-!
# Parts of texts

A text is split at separators, and trimmed by the characters of the Unicode property
White_Space.  It is blank when it has no other character.
-/

namespace ConnectorKeeper.Text

/-! ## Between separators -/

/-- The parts of a text between separators, one more than there are separators. -/
def splitAt (separator : Char → Bool) : List Char → List (List Char)
  | [] => [[]]
  | c :: rest =>
      if separator c then [] :: splitAt separator rest
      else match splitAt separator rest with
        | [] => [[c]]
        | part :: parts => (c :: part) :: parts

/-! ## Blank characters -/

/-- A character with the Unicode property White_Space. -/
def isBlank (c : Char) : Bool :=
  let n := c.toNat
  (9 ≤ n && n ≤ 13) || n == 0x20 || n == 0x85 || n == 0xA0 || n == 0x1680 ||
    (0x2000 ≤ n && n ≤ 0x200A) || n == 0x2028 || n == 0x2029 || n == 0x202F ||
    n == 0x205F || n == 0x3000

/-- A text without any character that is not blank. -/
def blank (s : String) : Bool := s.toList.all isBlank

@[simp] theorem blank_empty : blank "" = true := rfl

/-- The characters from the first one that is not blank. -/
def dropBlank (s : List Char) : List Char := s.dropWhile isBlank

end ConnectorKeeper.Text
