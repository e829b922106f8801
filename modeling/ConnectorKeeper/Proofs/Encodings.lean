import Mathlib
import ConnectorKeeper.Text.Base64
import ConnectorKeeper.Text.Utf8

/-!
# Bytes that are read back

The bytes of a text are read as that text (`ByteText.ofBytes_utf8`), and bytes that
were written in Base64 are read as those bytes (`Base64.decode?_encode`).
-/

namespace ConnectorKeeper.Text

/-! ## UTF-8 -/

section Utf8

variable {a b c d : Nat} {rest : List UInt8}

theorem toNat_ofNat_of_lt (h : a < 256) : (UInt8.ofNat a).toNat = a := UInt8.toNat_ofNat_of_lt' h

/-- A continuation byte adds its six bits. -/
theorem takeContinuation_succ {more : Nat} (bits : Nat) (hb : b < 64) :
    takeContinuation (more + 1) bits (UInt8.ofNat (b + 0x80) :: rest) =
      takeContinuation more (bits * 64 + b) rest := by
  have hnat := toNat_ofNat_of_lt (show b + 0x80 < 256 by omega)
  have hcontinues : isContinuation (UInt8.ofNat (b + 0x80)) = true := by
    simp only [isContinuation, UInt8.le_iff_toNat_le, hnat, Bool.and_eq_true, decide_eq_true_eq]
    exact ⟨Nat.le_add_left .., show b + 0x80 ≤ 0xBF by omega⟩
  rw [takeContinuation, if_pos hcontinues, hnat, Nat.add_sub_cancel]

/-- A first byte with its class, and a second byte that the class allows. -/
theorem readChar_of_lead {first low high : UInt8} {more bits : Nat}
    (hlead : Lead.of? first = some ⟨low, high, more + 1, bits⟩) (hb : b < 64)
    (hlow : low.toNat ≤ b + 0x80) (hhigh : b + 0x80 ≤ high.toNat) :
    readChar first (UInt8.ofNat (b + 0x80) :: rest) =
      ((takeContinuation more (bits * 64 + b) rest).1.map Char.ofNat,
        (takeContinuation more (bits * 64 + b) rest).2) := by
  have hnat := toNat_ofNat_of_lt (show b + 0x80 < 256 by omega)
  have hin : low ≤ UInt8.ofNat (b + 0x80) ∧ UInt8.ofNat (b + 0x80) ≤ high := by
    rw [UInt8.le_iff_toNat_le, UInt8.le_iff_toNat_le, hnat]
    exact ⟨hlow, hhigh⟩
  simp only [readChar, hlead, Bool.and_eq_true, decide_eq_true_eq, if_pos hin, hnat,
    Nat.add_sub_cancel]

theorem Lead.of?_ofNat (ha : a < 256) : Lead.of? (UInt8.ofNat a) =
    if a < 0x80 then some ⟨0x80, 0xBF, 0, a⟩
    else if 0xC2 ≤ a ∧ a ≤ 0xDF then some ⟨0x80, 0xBF, 1, a - 0xC0⟩
    else if a = 0xE0 then some ⟨0xA0, 0xBF, 2, 0⟩
    else if a = 0xED then some ⟨0x80, 0x9F, 2, 0xD⟩
    else if 0xE1 ≤ a ∧ a ≤ 0xEF then some ⟨0x80, 0xBF, 2, a - 0xE0⟩
    else if a = 0xF0 then some ⟨0x90, 0xBF, 3, 0⟩
    else if 0xF1 ≤ a ∧ a ≤ 0xF3 then some ⟨0x80, 0xBF, 3, a - 0xF0⟩
    else if a = 0xF4 then some ⟨0x80, 0x8F, 3, 4⟩
    else none := by
  have hnat := toNat_ofNat_of_lt ha
  simp only [Lead.of?, UInt8.lt_iff_toNat_lt, UInt8.le_iff_toNat_le, beq_iff_eq, ← UInt8.toNat_inj,
    hnat, Bool.and_eq_true, decide_eq_true_eq]
  rfl

/-- A character of one byte is read as it was written. -/
theorem readChar_one (ha : a < 0x80) :
    readChar (UInt8.ofNat a) rest = (some (Char.ofNat a), rest) := by
  simp only [readChar, Lead.of?_ofNat (by omega : a < 256), if_pos ha]

/-- So is one of two bytes. -/
theorem readChar_two (ha : 2 ≤ a) (ha' : a < 32) (hb : b < 64) :
    readChar (UInt8.ofNat (a + 0xC0)) (UInt8.ofNat (b + 0x80) :: rest) =
      (some (Char.ofNat (a * 64 + b)), rest) := by
  have hlead : Lead.of? (UInt8.ofNat (a + 0xC0)) = some ⟨0x80, 0xBF, 1, a⟩ := by
    rw [Lead.of?_ofNat (by omega), if_neg (by omega), if_pos (by omega), Nat.add_sub_cancel]
  rw [readChar_of_lead hlead hb (Nat.le_add_left ..) (show b + 0x80 ≤ 0xBF by omega),
    takeContinuation]
  rfl

/-- So is one of three, where the bounds rule out longer spellings and surrogates. -/
theorem readChar_three (ha : a < 16) (hb : b < 64) (hc : c < 64) (hlow : a = 0 → 32 ≤ b)
    (hhigh : a = 13 → b < 32) :
    readChar (UInt8.ofNat (a + 0xE0))
        (UInt8.ofNat (b + 0x80) :: UInt8.ofNat (c + 0x80) :: rest) =
      (some (Char.ofNat ((a * 64 + b) * 64 + c)), rest) := by
  have hlead : ∃ low high : UInt8, Lead.of? (UInt8.ofNat (a + 0xE0)) = some ⟨low, high, 2, a⟩ ∧
      low.toNat ≤ b + 0x80 ∧ b + 0x80 ≤ high.toNat := by
    rw [Lead.of?_ofNat (by omega), if_neg (by omega), if_neg (by omega)]
    by_cases h0 : a = 0
    · subst h0
      exact ⟨0xA0, 0xBF, rfl, show 0xA0 ≤ b + 0x80 by omega, show b + 0x80 ≤ 0xBF by omega⟩
    · by_cases h13 : a = 13
      · subst h13
        exact ⟨0x80, 0x9F, rfl, Nat.le_add_left .., show b + 0x80 ≤ 0x9F by omega⟩
      · rw [if_neg (by omega), if_neg (by omega), if_pos (by omega), Nat.add_sub_cancel]
        exact ⟨0x80, 0xBF, rfl, Nat.le_add_left .., show b + 0x80 ≤ 0xBF by omega⟩
  obtain ⟨low, high, hlead, hl, hh⟩ := hlead
  rw [readChar_of_lead hlead hb hl hh, takeContinuation_succ _ hc, takeContinuation]
  rfl

theorem readChar_four (ha : a ≤ 4) (hb : b < 64) (hc : c < 64) (hd : d < 64)
    (hlow : a = 0 → 16 ≤ b) (hhigh : a = 4 → b < 16) :
    readChar (UInt8.ofNat (a + 0xF0))
        (UInt8.ofNat (b + 0x80) :: UInt8.ofNat (c + 0x80) :: UInt8.ofNat (d + 0x80) :: rest) =
      (some (Char.ofNat (((a * 64 + b) * 64 + c) * 64 + d)), rest) := by
  have hlead : ∃ low high : UInt8, Lead.of? (UInt8.ofNat (a + 0xF0)) = some ⟨low, high, 3, a⟩ ∧
      low.toNat ≤ b + 0x80 ∧ b + 0x80 ≤ high.toNat := by
    rw [Lead.of?_ofNat (by omega), if_neg (by omega), if_neg (by omega), if_neg (by omega),
      if_neg (by omega), if_neg (by omega)]
    by_cases h0 : a = 0
    · subst h0
      exact ⟨0x90, 0xBF, rfl, show 0x90 ≤ b + 0x80 by omega, show b + 0x80 ≤ 0xBF by omega⟩
    · by_cases h4 : a = 4
      · subst h4
        exact ⟨0x80, 0x8F, rfl, Nat.le_add_left .., show b + 0x80 ≤ 0x8F by omega⟩
      · rw [if_neg (by omega), if_pos (by omega), Nat.add_sub_cancel]
        exact ⟨0x80, 0xBF, rfl, Nat.le_add_left .., show b + 0x80 ≤ 0xBF by omega⟩
  obtain ⟨low, high, hlead, hl, hh⟩ := hlead
  rw [readChar_of_lead hlead hb hl hh, takeContinuation_succ _ hc, takeContinuation_succ _ hd,
    takeContinuation]
  rfl

/-- The first character is read from its bytes. -/
theorem ofBytes_utf8EncodeChar_append (c : Char) (rest : List UInt8) :
    ByteText.ofBytes (String.utf8EncodeChar c ++ rest) = some c :: ByteText.ofBytes rest := by
  have hvalid : c.val.toNat < 0xD800 ∨ 0xDFFF < c.val.toNat ∧ c.val.toNat < 0x110000 := c.valid
  have hchar : Char.ofNat c.val.toNat = c := c.ofNat_toNat
  simp only [String.utf8EncodeChar]
  generalize c.val.toNat = v at *
  split
  · next h1 =>
    rw [List.singleton_append, ByteText.ofBytes, readChar_one (by omega), hchar]
  · split
    · next h2 =>
      have hv : v / 64 % 32 * 64 + v % 64 = v := by omega
      rw [List.cons_append, List.singleton_append, ByteText.ofBytes,
        readChar_two (by omega) (by omega) (by omega), hv, hchar]
    · split
      · next h3 =>
        have hv : (v / 4096 % 16 * 64 + v / 64 % 64) * 64 + v % 64 = v := by omega
        rw [List.cons_append, List.cons_append, List.singleton_append, ByteText.ofBytes,
          readChar_three (by omega) (by omega) (by omega) (by omega) (by omega), hv, hchar]
      · have hv : ((v / 262144 % 8 * 64 + v / 4096 % 64) * 64 + v / 64 % 64) * 64 + v % 64 = v := by
          omega
        rw [List.cons_append, List.cons_append, List.cons_append, List.singleton_append,
          ByteText.ofBytes,
          readChar_four (by omega) (by omega) (by omega) (by omega) (by omega) (by omega), hv,
          hchar]

/-- The bytes of a text are read as the text. -/
theorem ByteText.ofBytes_utf8 (s : String) : ByteText.ofBytes (utf8 s) = ByteText.ofString s := by
  unfold utf8 ByteText.ofString
  induction s.toList with
  | nil =>
    rw [List.flatMap_nil, ByteText.ofBytes]
    rfl
  | cons c cs ih => rw [List.flatMap_cons, ofBytes_utf8EncodeChar_append, ih, List.map_cons]

end Utf8

/-! ## Base64 -/

namespace Base64

theorem value?_digit : ∀ n < 64, value? (digit n) = some n := by decide

theorem digit_ne_pad : ∀ n < 64, digit n ≠ '=' := by decide

/-- Four characters that end no text are three bytes. -/
theorem decodeChars_cons {a b c d : Nat} (ha : a < 64) (hb : b < 64) (hc : c < 64) (hd : d < 64)
    (rest : List Char) :
    decodeChars (digit a :: digit b :: digit c :: digit d :: rest) =
      (decodeChars rest).map fun bytes => UInt8.ofNat (a * 4 + b / 16) ::
        UInt8.ofNat (b % 16 * 16 + c / 4) :: UInt8.ofNat (c % 4 * 64 + d) :: bytes := by
  rw [decodeChars]
  · simp only [value?_digit _ ha, value?_digit _ hb, value?_digit _ hc, value?_digit _ hd]
    cases decodeChars rest <;> rfl
  · intro _ hpad
    exact absurd hpad (digit_ne_pad d hd)
  · intro hpad
    exact absurd hpad (digit_ne_pad d hd)

/-- What is written in base64 is read as it was. -/
theorem decodeChars_encodeChars (bytes : List UInt8) :
    decodeChars (encodeChars bytes) = some bytes := by
  induction bytes using encodeChars.induct with
  | case1 => rfl
  | case2 a =>
    have ha := a.toNat_lt
    have hvalue : a.toNat / 4 * 4 + a.toNat % 4 * 16 / 16 = a.toNat := by omega
    have hspare : a.toNat % 4 * 16 % 16 = 0 := by omega
    rw [encodeChars, decodeChars, value?_digit _ (by omega), value?_digit _ (by omega)]
    show (if a.toNat % 4 * 16 % 16 = 0 then _ else _) = _
    rw [if_pos hspare, hvalue, UInt8.ofNat_toNat]
  | case3 a b =>
    have ha := a.toNat_lt
    have hb := b.toNat_lt
    have ha' : a.toNat / 4 * 4 + (a.toNat % 4 * 16 + b.toNat / 16) / 16 = a.toNat := by omega
    have hb' : (a.toNat % 4 * 16 + b.toNat / 16) % 16 * 16 + b.toNat % 16 * 4 / 4 = b.toNat := by
      omega
    have hspare : b.toNat % 16 * 4 % 4 = 0 := by omega
    rw [encodeChars, decodeChars, value?_digit _ (by omega), value?_digit _ (by omega),
      value?_digit _ (by omega)]
    · show (if b.toNat % 16 * 4 % 4 = 0 then _ else _) = _
      rw [if_pos hspare, ha', hb', UInt8.ofNat_toNat, UInt8.ofNat_toNat]
    · exact digit_ne_pad _ (by omega)
  | case4 a b c rest ih =>
    have ha := a.toNat_lt
    have hb := b.toNat_lt
    have hc := c.toNat_lt
    have ha' : a.toNat / 4 * 4 + (a.toNat % 4 * 16 + b.toNat / 16) / 16 = a.toNat := by omega
    have hb' : (a.toNat % 4 * 16 + b.toNat / 16) % 16 * 16 +
        (b.toNat % 16 * 4 + c.toNat / 64) / 4 = b.toNat := by omega
    have hc' : (b.toNat % 16 * 4 + c.toNat / 64) % 4 * 64 + c.toNat % 64 = c.toNat := by omega
    rw [encodeChars, decodeChars_cons (by omega) (by omega) (by omega) (by omega), ih, ha', hb',
      hc', UInt8.ofNat_toNat, UInt8.ofNat_toNat, UInt8.ofNat_toNat]
    rfl

/-- Bytes are read back from their Base64 text. -/
theorem decode?_encode (bytes : List UInt8) : decode? (encode bytes) = some bytes := by
  rw [decode?, encode, String.toList_ofList, decodeChars_encodeChars]

end Base64

end ConnectorKeeper.Text
