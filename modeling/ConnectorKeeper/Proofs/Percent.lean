import Mathlib
import ConnectorKeeper.Text.Percent

/-!
# Percent-encoding reads back

A text that is percent-encoded stands for its own UTF-8 bytes, whatever set of
characters was encoded, as long as the percent sign is one of them
(`decode_encode`).  UTF-8 keeps texts apart (`utf8_inj`), so encoding does too
(`encode_inj`).  A character that is encoded does not stand in the encoded text
(`notMem_encode`), so what such characters separate can be told apart.
-/

namespace ConnectorKeeper.Text

/-- UTF-8 keeps texts apart. -/
theorem utf8_inj {s t : String} (h : utf8 s = utf8 t) : s = t := by
  have hbytes : s.toList.utf8Encode = t.toList.utf8Encode := congrArg List.toByteArray h
  rw [String.utf8Encode_toList, String.utf8Encode_toList] at hbytes
  exact String.toByteArray_inj.1 hbytes

/-- A text that has the bytes of its kept characters keeps them all. -/
theorem forall_of_utf8_filter {s : String} {keep : Char → Bool}
    (h : (s.toList.filter keep).flatMap String.utf8EncodeChar = utf8 s) :
    ∀ c ∈ s.toList, keep c = true := by
  have heq : String.ofList (s.toList.filter keep) = s :=
    utf8_inj (by rw [← h, utf8, String.toList_ofList])
  intro c hc
  rw [← heq, String.toList_ofList] at hc
  exact (List.mem_filter.1 hc).2

namespace Percent

/-! ## Reading one byte -/

theorem hexValue?_hexDigit : ∀ n < 16, hexValue? (hexDigit n) = some n := by decide

/-- A byte that was encoded is read back. -/
theorem decode_encodeByte (b : UInt8) (rest : List Char) :
    decode (encodeByte b ++ rest) = b :: decode rest := by
  have hb : b.toNat < 256 := b.toNat_lt
  have hhigh := hexValue?_hexDigit (b.toNat / 16) (by omega)
  have hlow := hexValue?_hexDigit (b.toNat % 16) (by omega)
  have hsum : b.toNat / 16 * 16 + b.toNat % 16 = b.toNat := by omega
  simp only [encodeByte, List.cons_append, List.nil_append, decode, hhigh, hlow, hsum,
    UInt8.ofNat_toNat]

theorem decode_encodeBytes (bs : List UInt8) (rest : List Char) :
    decode (bs.flatMap encodeByte ++ rest) = bs ++ decode rest := by
  induction bs with
  | nil => rfl
  | cons b bs ih =>
    rw [List.flatMap_cons, List.append_assoc, decode_encodeByte, ih, List.cons_append]

/-- Any character but the percent sign stands for itself. -/
theorem decode_cons_of_ne {c : Char} (h : c ≠ '%') (rest : List Char) :
    decode (c :: rest) = String.utf8EncodeChar c ++ decode rest := by
  rw [decode]
  intro a b rest' hc
  exact absurd hc h

/-! ## Reading a text -/

variable {set : Char → Bool}

theorem decode_encodeChar (hset : set '%' = true) (c : Char) (rest : List Char) :
    decode (encodeChar set c ++ rest) = String.utf8EncodeChar c ++ decode rest := by
  unfold encodeChar
  split
  · exact decode_encodeBytes _ rest
  · next hbare =>
    have hc : c ≠ '%' := by
      rintro rfl
      simp [hset] at hbare
    exact decode_cons_of_ne hc rest

/-- An encoded text stands for its bytes. -/
theorem decode_encode (hset : set '%' = true) (s : List Char) :
    decode (encode set s) = s.flatMap String.utf8EncodeChar := by
  induction s with
  | nil => rfl
  | cons c s ih =>
    rw [encode, List.flatMap_cons, decode_encodeChar hset, ← encode, ih, List.flatMap_cons]

/-- Encoding keeps texts apart. -/
theorem encode_inj (hset : set '%' = true) {s t : String}
    (h : encode set s.toList = encode set t.toList) : s = t := by
  apply utf8_inj
  have hdecoded := congrArg decode h
  rwa [decode_encode hset, decode_encode hset] at hdecoded

/-! ## What encoded texts are made of -/

theorem notMem_encodeByte {c : Char} (hsign : c ≠ '%') (hdigit : ∀ n < 16, hexDigit n ≠ c)
    (b : UInt8) : c ∉ encodeByte b := by
  have hlt : b.toNat < 256 := b.toNat_lt
  intro h
  simp only [encodeByte, List.mem_cons, List.not_mem_nil, or_false] at h
  rcases h with h | h | h
  · exact hsign h
  · exact hdigit _ (by omega) h.symm
  · exact hdigit _ (by omega) h.symm

/-- A character of an encoded text, none of those that codes are made of, stood bare in the text. -/
theorem bare_of_mem_encode {c : Char} (hsign : c ≠ '%') (hdigit : ∀ n < 16, hexDigit n ≠ c)
    {s : List Char} (h : c ∈ encode set s) : c ∈ s ∧ set c = false := by
  obtain ⟨d, hd, hc⟩ := List.mem_flatMap.1 h
  unfold encodeChar at hc
  split at hc
  · obtain ⟨b, -, hb⟩ := List.mem_flatMap.1 hc
    exact absurd hb (notMem_encodeByte hsign hdigit b)
  · next hbare =>
    rw [List.mem_singleton] at hc
    subst hc
    simp only [Bool.or_eq_true, not_or, Bool.not_eq_true] at hbare
    exact ⟨hd, hbare.2⟩

/-- A character that is encoded, and none of those that codes are made of, does
not stand in an encoded text. -/
theorem notMem_encode {c : Char} (hset : set c = true) (hsign : c ≠ '%')
    (hdigit : ∀ n < 16, hexDigit n ≠ c) (s : List Char) : c ∉ encode set s := by
  intro h
  rw [(bare_of_mem_encode hsign hdigit h).2] at hset
  cases hset

end Percent

end ConnectorKeeper.Text
