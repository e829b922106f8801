import Mathlib
import ConnectorKeeper.Json.Decoder
import ConnectorKeeper.Json.Printer

/-!
# Printed texts are read back

The compact text of a value is read as that value (`Document.ofText_print`).  Only a
number may come back in another form: one that is not kept exactly is printed as the
decimal of its double, and read as what these digits say (`Number.reread`).

A reader of numbers goes on as far as it can.  What follows a value inside a printed
text, a comma or a closing bracket, does not extend it (`Closes`).
-/

namespace ConnectorKeeper.Json

open Text (ByteText)

/-! ## Strings -/

theorem codeUnit?_control : ∀ n < 0x20, codeUnit?
    [some '0', some '0', some (Nat.digitChar (n / 16)), some (Nat.digitChar (n % 16))] =
      some n := by decide

theorem escape_ne_nil (c : Char) : escape c ≠ [] := by
  unfold escape
  split
  all_goals try exact List.cons_ne_nil _ _
  split
  · exact List.cons_ne_nil _ _
  · exact List.cons_ne_nil _ _

/-- A character is read from its form inside a literal. -/
theorem literal_escape (fuel : Nat) (c : Char) (rest : ByteText) :
    literal (fuel + 1) ((escape c).map some ++ rest) =
      (literal fuel rest).map fun (cs, r) => (some c :: cs, r) := by
  unfold escape
  split
  all_goals try rfl
  next hquote hslash _ _ _ _ _ =>
    split
    · next hcontrol =>
      have hunit := codeUnit?_control c.toNat hcontrol
      have hchar : Char.ofNat c.toNat = c := c.ofNat_toNat
      have hlow : ¬ 0xDC00 ≤ c.toNat := by omega
      have hhigh : ¬ 0xD800 ≤ c.toNat := by omega
      simp [literal, hunit, hchar, hlow, hhigh]
    · next hplain =>
      have hquote : some c ≠ some '"' := by simpa using hquote
      have hslash : some c ≠ some '\\' := by simpa using hslash
      rw [List.map_singleton, List.singleton_append, literal]
      · simp [hplain]
      · exact hquote
      · exact fun _ h => absurd h hslash
      · exact fun _ _ h => absurd h hslash
      · exact hslash

/-- A literal is read up to the quotation mark that ends it. -/
theorem literal_flatMap {fuel : Nat} {s : List Char} (h : s.length < fuel) (rest : ByteText) :
    literal fuel ((s.flatMap escape).map some ++ some '"' :: rest) = some (s.map some, rest) := by
  induction s generalizing fuel with
  | nil =>
    obtain ⟨fuel, rfl⟩ := Nat.exists_eq_add_of_lt h
    rfl
  | cons c s ih =>
    obtain ⟨fuel, rfl⟩ : ∃ n, fuel = n + 1 := ⟨fuel - 1, by omega⟩
    rw [List.flatMap_cons, List.map_append, List.append_assoc, literal_escape,
      ih (by simpa using h)]
    rfl

theorem length_le_flatMap_escape (s : List Char) : s.length ≤ (s.flatMap escape).length := by
  induction s with
  | nil => exact Nat.le_refl _
  | cons c s ih =>
    have hpos := List.length_pos_of_ne_nil (escape_ne_nil c)
    rw [List.flatMap_cons, List.length_append, List.length_cons]
    omega

/-- A string literal is read as its text. -/
theorem readString_flatMap (s : String) (rest : ByteText) :
    readString ((s.toList.flatMap escape).map some ++ some '"' :: rest) = some (some s, rest) := by
  have hfuel := length_le_flatMap_escape s.toList
  rw [readString, literal_flatMap (by simp only [List.length_append, List.length_map]; omega)]
  exact congrArg (fun t => some (t, rest)) (ByteText.strict_ofString s)

/-! ## Numbers -/

/-- What follows a value inside a text: nothing, a comma or a closing bracket. -/
def Closes (rest : ByteText) : Prop :=
  ∀ o ∈ rest.head?, o = some ',' ∨ o = some ']' ∨ o = some '\x7d'

variable {s s' rest : ByteText}

theorem closes_nil : Closes [] := by
  rintro _ ⟨⟩

theorem closes_cons {o : Option Char} (h : o = some ',' ∨ o = some ']' ∨ o = some '\x7d') :
    Closes (o :: rest) := by
  rintro _ ⟨⟩
  exact h

theorem readDigits_of_closes (h : Closes rest) : readDigits rest = ([], rest) := by
  cases rest with
  | nil => rfl
  | cons o rest =>
    rcases h o rfl with rfl | rfl | rfl
    · rfl
    · rfl
    · rfl

/-- Digits are read no further where a value may end. -/
theorem readDigits_append (h : Closes rest) (s : ByteText) :
    readDigits (s ++ rest) = ((readDigits s).1, (readDigits s).2 ++ rest) := by
  induction s with
  | nil => exact readDigits_of_closes h
  | cons o s ih =>
    cases o with
    | none => rfl
    | some c =>
      rw [List.cons_append, readDigits, readDigits, ih]
      split
      · rfl
      · rfl

theorem readFraction_of_ne (h : s.head? ≠ some (some '.')) :
    readFraction s = some (none, s) := by
  unfold readFraction
  split
  · exact absurd rfl h
  · rfl

theorem Closes.head?_ne {c : Char} (h : Closes rest) (hc : c ≠ ',' ∧ c ≠ ']' ∧ c ≠ '\x7d') :
    rest.head? ≠ some (some c) := by
  intro heq
  rcases h (some c) heq with h | h | h
  · exact hc.1 (Option.some.inj h)
  · exact hc.2.1 (Option.some.inj h)
  · exact hc.2.2 (Option.some.inj h)

theorem readFraction_append (h : Closes rest) {fraction : Option (List Char)}
    (hs : readFraction s = some (fraction, s')) :
    readFraction (s ++ rest) = some (fraction, s' ++ rest) := by
  by_cases hpoint : s.head? = some (some '.')
  · obtain ⟨t, rfl⟩ := List.head?_eq_some_iff.1 hpoint
    rw [List.cons_append]
    rw [readFraction] at hs ⊢
    rw [readDigits_append h]
    rcases hdigits : readDigits t with ⟨_ | ⟨d, ds⟩, r⟩
    · rw [hdigits] at hs
      cases hs
    · rw [hdigits] at hs
      cases hs
      rfl
  · rw [readFraction_of_ne hpoint] at hs
    cases hs
    refine readFraction_of_ne ?_
    cases s with
    | nil => exact h.head?_ne (by decide)
    | cons => exact hpoint

/-- The sign of an exponent, and what follows it. -/
def readSign : ByteText → Bool × ByteText
  | some '-' :: r => (true, r)
  | some '+' :: r => (false, r)
  | r => (false, r)

theorem readExponent_cons (e : Char) (t : ByteText) : readExponent (some e :: t) =
    if e = 'e' ∨ e = 'E' then
      match readDigits (readSign t).2 with
      | ([], _) => none
      | (ds, r) =>
        some (some (if (readSign t).1 then -(digitsValue ds : Int) else digitsValue ds), r)
    else some (none, some e :: t) := by
  simp only [readExponent, Bool.or_eq_true, decide_eq_true_eq]
  rfl

theorem readSign_append (hs : s ≠ []) (rest : ByteText) :
    readSign (s ++ rest) = ((readSign s).1, (readSign s).2 ++ rest) := by
  rcases s with _ | ⟨_ | c, s⟩
  · exact absurd rfl hs
  · rfl
  · by_cases hminus : c = '-'
    · subst hminus
      rfl
    · by_cases hplus : c = '+'
      · subst hplus
        rfl
      · simp [readSign, hminus, hplus]

theorem readExponent_append (h : Closes rest) {exponent : Option Int}
    (hs : readExponent s = some (exponent, s')) :
    readExponent (s ++ rest) = some (exponent, s' ++ rest) := by
  rcases s with _ | ⟨_ | e, t⟩
  · cases hs
    rcases rest with _ | ⟨o, rest⟩
    · rfl
    · rcases h o rfl with rfl | rfl | rfl
      · rfl
      · rfl
      · rfl
  · cases hs
    rfl
  · rw [List.cons_append, readExponent_cons]
    rw [readExponent_cons] at hs
    split at hs
    · next he =>
      have ht : t ≠ [] := by
        rintro rfl
        cases hs
      rw [if_pos he, readSign_append ht, readDigits_append h]
      rcases hdigits : readDigits (readSign t).2 with ⟨_ | ⟨d, ds⟩, r⟩
      · rw [hdigits] at hs
        cases hs
      · rw [hdigits] at hs
        cases hs
        rfl
    · next he =>
      cases hs
      rw [if_neg he]
      rfl

/-- A number is read as far as it goes. -/
theorem readMagnitude_append (h : Closes rest) {negative : Bool} {n : Number}
    (hs : readMagnitude negative s = some (n, s')) :
    readMagnitude negative (s ++ rest) = some (n, s' ++ rest) := by
  rw [readMagnitude] at hs ⊢
  rw [readDigits_append h]
  simp only at hs ⊢
  split at hs
  · cases hs
  · next hwhole =>
    rw [if_neg hwhole]
    simp only [Option.bind_eq_bind, Option.bind_eq_some_iff] at hs ⊢
    obtain ⟨⟨fraction, s₂⟩, hfraction, ⟨exponent, s₃⟩, hexponent, hs⟩ := hs
    refine ⟨_, readFraction_append h hfraction, _, readExponent_append h hexponent, ?_⟩
    simp only at hs ⊢
    split at hs
    · next hinteger =>
      rw [if_pos hinteger]
      cases hs
      rfl
    · next hdecimal =>
      rw [if_neg hdecimal]
      cases hs
      rfl

theorem readNumber_of_ne (h : s.head? ≠ some (some '-')) :
    readNumber s = readMagnitude false s := by
  unfold readNumber
  split
  · exact absurd rfl h
  · rfl

/-- Nor is a number. -/
theorem readNumber_append (h : Closes rest) {n : Number} (hs : readNumber s = some (n, s')) :
    readNumber (s ++ rest) = some (n, s' ++ rest) := by
  by_cases hminus : s.head? = some (some '-')
  · obtain ⟨t, rfl⟩ := List.head?_eq_some_iff.1 hminus
    exact readMagnitude_append h hs
  · rw [readNumber_of_ne hminus] at hs
    rw [readNumber_of_ne]
    · exact readMagnitude_append h hs
    · cases s with
      | nil => cases hs
      | cons => exact hminus

/-- A number begins with a sign or a digit. -/
theorem head_of_readNumber {n : Number} (hs : readNumber s = some (n, s')) :
    ∃ c t, s = some c :: t ∧ (c = '-' ∨ c.isDigit = true) := by
  rcases s with _ | ⟨_ | c, t⟩
  · cases hs
  · cases hs
  · refine ⟨c, t, rfl, ?_⟩
    by_cases hminus : c = '-'
    · exact .inl hminus
    · right
      by_contra hdigit
      simp [readNumber, hminus, readMagnitude, readDigits, hdigit] at hs

/-! ### Whole numbers -/

/-- The digits of a number have its value. -/
theorem digitsValue_toDigits (n : Nat) : digitsValue (Nat.toDigits 10 n) = n := by
  have h : digitsValue = fun ds => Nat.ofDigitChars 10 ds 0 := by
    funext ds
    simp only [digitsValue, Nat.ofDigitChars_eq_foldl, Nat.mul_comm]
    rfl
  rw [h]
  exact Nat.ofDigitChars_ten_toDigits

theorem readDigits_digits {ds : List Char} (h : ∀ c ∈ ds, c.isDigit = true) :
    readDigits (ds.map some) = (ds, []) := by
  induction ds with
  | nil => rfl
  | cons c ds ih =>
    rw [List.map_cons, readDigits, if_pos (h c List.mem_cons_self),
      ih fun c hc => h c (List.mem_cons_of_mem _ hc)]

/-- Only zero is written with a leading zero. -/
theorem head?_toDigits (n : Nat) (h : (Nat.toDigits 10 n).head? = some '0') : n = 0 := by
  induction n using Nat.strong_induction_on with
  | _ n ih =>
    by_cases hn : n < 10
    · rw [Nat.toDigits_of_lt_base hn] at h
      exact Nat.digitChar_eq_zero.1 (Option.some.inj h)
    · rw [Nat.toDigits_of_base_le (by decide) (by omega),
        List.head?_append_of_ne_nil _ Nat.toDigits_ne_nil] at h
      have := ih (n / 10) (by omega) h
      omega

/-- A number in decimal is read as it is. -/
theorem readMagnitude_toDigits (negative : Bool) {n : Nat} (h : negative = true → n ≠ 0) :
    readMagnitude negative ((Nat.toDigits 10 n).map some) =
      some (.integer (if negative then -n else n), []) := by
  have hdigits := readDigits_digits fun c (hc : c ∈ Nat.toDigits 10 n) =>
    Nat.isDigit_of_mem_toDigits (by decide) (by decide) hc
  have hzero : ¬ ((Nat.toDigits 10 n).head? = some '0' ∧ 1 < (Nat.toDigits 10 n).length) := by
    rintro ⟨hhead, hlength⟩
    rw [head?_toDigits n hhead, Nat.toDigits_zero] at hlength
    simp at hlength
  rw [readMagnitude, hdigits]
  simp [readFraction, readExponent, digitsValue_toDigits, Nat.toDigits_ne_nil, hzero]
  exact h

/-- An integer that is kept exactly is read back. -/
theorem readNumber_integer {n : Int} (h : Number.exact n = true) :
    readNumber ((Number.integer n).chars.map some) = some (.integer n, []) := by
  rw [Number.chars, if_pos h]
  by_cases hneg : n < 0
  · have hread := readMagnitude_toDigits true (n := n.natAbs) (by omega)
    have hvalue : -(n.natAbs : Int) = n := by omega
    rw [if_pos rfl, hvalue] at hread
    rw [if_pos hneg]
    exact hread
  · have hread := readMagnitude_toDigits false (n := n.natAbs) fun h => absurd h Bool.false_ne_true
    have hvalue : (n.natAbs : Int) = n := by omega
    rw [if_neg Bool.false_ne_true, hvalue] at hread
    rw [if_neg hneg, List.nil_append, readNumber_of_ne]
    · exact hread
    · intro hminus
      rw [List.head?_map, Option.map_eq_some_iff] at hminus
      obtain ⟨c, hc, hminus⟩ := hminus
      have hdigit := Nat.isDigit_of_mem_toDigits (by decide) (by decide) (List.mem_of_head? hc)
      rw [Option.some.inj hminus] at hdigit
      exact absurd hdigit (by decide)

/-! ## Values -/

/-- What the text of a number is read as. -/
def Number.reread (n : Number) : Number :=
  ((readNumber (n.chars.map some)).map (·.1)).getD n

mutual
/-- A value with every number as its text is read. -/
def reread : Json → Json
  | .number n => .number n.reread
  | .array items => .array (rereadItems items)
  | .object members => .object (rereadMembers members)
  | v => v

/-- Every item as its text is read. -/
def rereadItems : List Json → List Json
  | [] => []
  | v :: rest => reread v :: rereadItems rest

/-- Every member as its text is read. -/
def rereadMembers : List (Option String × Json) → List (Option String × Json)
  | [] => []
  | (key, v) :: rest => (key, reread v) :: rereadMembers rest
end

/-- A value whose text is one of JSON, and the text of what it is read as. -/
inductive Legible : Json → Prop
  | null : Legible .null
  | bool (b : Bool) : Legible (.bool b)
  | number {n n' : Number} (h : readNumber (n.chars.map some) = some (n', []))
      (hchars : n'.chars = n.chars) : Legible (.number n)
  | text (s : String) : Legible (.text s)
  | array {items : List Json} (h : ∀ v ∈ items, Legible v) : Legible (.array items)
  | object {members : List (Option String × Json)} (hkey : ∀ m ∈ members, m.1.isSome = true)
      (h : ∀ m ∈ members, Legible m.2) : Legible (.object members)

theorem skip_cons {c : Char} (h : isSpace (some c) = false) (rest : ByteText) :
    skip (some c :: rest) = some c :: rest := List.dropWhile_cons_of_neg (by simp [h])

/-- The text of a value is read as the value, whatever ends it. -/
def ReadsBack (v : Json) : Prop :=
  ∀ fuel rest, (chars v).length < fuel → Closes rest →
    readValue fuel ((chars v).map some ++ rest) = (reread v, some rest)

/-- The first character of a number begins nothing else. -/
theorem plain_of_head {c : Char} (h : c = '-' ∨ c.isDigit = true) :
    isSpace (some c) = false ∧ c ∉ ['n', 't', 'f', '"', '[', '\x7b'] ∧ c ≠ ']' := by
  have hother : ∀ d ∈ [' ', '\n', '\t', '\r', 'n', 't', 'f', '"', '[', '\x7b', ']'],
      d ≠ '-' ∧ d.isDigit = false := by simp
  have hc : c ∉ [' ', '\n', '\t', '\r', 'n', 't', 'f', '"', '[', '\x7b', ']'] := by
    intro hmem
    obtain ⟨hminus, hdigit⟩ := hother c hmem
    rcases h with h | h
    · exact hminus h
    · rw [h] at hdigit
      cases hdigit
  simp only [List.mem_cons, List.not_mem_nil, or_false, not_or] at hc ⊢
  simp [isSpace, hc]

/-- A number is the last that is tried. -/
theorem readValue_of_number {n : Number} (fuel : Nat) (hs : readNumber s = some (n, s')) :
    readValue (fuel + 1) s = (.number n, some s') := by
  obtain ⟨c, t, rfl, hc⟩ := head_of_readNumber hs
  obtain ⟨hspace, hother, -⟩ := plain_of_head hc
  rw [readValue, skip_cons hspace]
  split
  case h_7 => rw [hs]
  all_goals
    next heq =>
      refine absurd ?_ hother
      rw [Option.some.inj (List.cons.inj heq).1]
      decide

/-- A number reads back if its own text does. -/
theorem readsBack_number {n n' : Number} (h : readNumber (n.chars.map some) = some (n', [])) :
    ReadsBack (.number n) := by
  intro fuel rest hfuel hrest
  obtain ⟨fuel, rfl⟩ : ∃ n, fuel = n + 1 := ⟨fuel - 1, by omega⟩
  rw [chars, readValue_of_number fuel (readNumber_append hrest h), reread, Number.reread, h]
  rfl

/-- Every text reads back. -/
theorem readsBack_text (s : String) : ReadsBack (.text s) := by
  intro fuel rest hfuel hrest
  obtain ⟨fuel, rfl⟩ : ∃ n, fuel = n + 1 := ⟨fuel - 1, by omega⟩
  rw [text, chars, Option.getD_some, literalChars, List.map_append, List.append_assoc]
  show readValue (fuel + 1) (some '"' :: ((s.toList.flatMap escape).map some ++
    some '"' :: rest)) = _
  rw [readValue, skip_cons rfl]
  simp only [readString_flatMap]
  rfl

/-- Before further items, a value may end. -/
theorem closes_itemsChars (vs : List Json) (rest : ByteText) :
    Closes ((itemsChars vs).map some ++ rest) := by
  cases vs with
  | nil => exact closes_cons (.inr (.inl rfl))
  | cons => exact closes_cons (.inl rfl)

/-- Items read back one by one. -/
theorem readItems_chars {v : Json} {vs : List Json} (h : ∀ w ∈ v :: vs, ReadsBack w) :
    ∀ fuel rest, (chars v ++ itemsChars vs).length < fuel →
      readItems fuel ((chars v ++ itemsChars vs).map some ++ rest) =
        (rereadItems (v :: vs), some rest) := by
  intro fuel rest
  induction vs generalizing v fuel with
  | nil =>
    intro hfuel
    obtain ⟨fuel, rfl⟩ : ∃ n, fuel = n + 1 := ⟨fuel - 1, by omega⟩
    have hv := h v List.mem_cons_self fuel _ (by simp [itemsChars] at hfuel; omega)
      (closes_itemsChars [] rest)
    rw [List.map_append, List.append_assoc, readItems, hv]
    rfl
  | cons w ws ih =>
    intro hfuel
    obtain ⟨fuel, rfl⟩ : ∃ n, fuel = n + 1 := ⟨fuel - 1, by omega⟩
    have hv := h v List.mem_cons_self fuel _ (by simp [itemsChars] at hfuel; omega)
      (closes_itemsChars (w :: ws) rest)
    have hrest := ih (fun u hu => h u (List.mem_cons_of_mem _ hu)) fuel
      (by simp [itemsChars] at hfuel ⊢; omega)
    rw [List.map_append, List.append_assoc, readItems, hv]
    exact congrArg (fun p : List Json × Option ByteText => (reread v :: p.1, p.2)) hrest

theorem memberChars_eq (key : String) (v : Json) (rest : ByteText) :
    (literalChars key.toList ++ ':' :: chars v).map some ++ rest =
      some '"' :: ((key.toList.flatMap escape).map some ++
        some '"' :: some ':' :: ((chars v).map some ++ rest)) := by
  simp [literalChars]

section Member

variable {v : Json} {fuel : Nat} (key : String) (hv : ReadsBack v)
  (hfuel : (chars v).length < fuel) (rest : ByteText)

include hv hfuel

/-- A member is read up to the end of its value, and more members after a comma. -/
theorem readMembers_comma :
    readMembers (fuel + 1) ((literalChars key.toList ++ ':' :: chars v).map some ++
        some ',' :: rest) =
      ((some key, reread v) :: (readMembers fuel rest).1, (readMembers fuel rest).2) := by
  have hkey := readString_flatMap key (some ':' :: ((chars v).map some ++ some ',' :: rest))
  have hvalue := hv fuel (some ',' :: rest) hfuel (closes_cons (.inl rfl))
  rw [memberChars_eq, readMembers, skip_cons rfl]
  simp only [hkey, skip_cons (c := ':') rfl, hvalue]
  rfl

/-- The last member is read up to the end of its value. -/
theorem readMembers_brace :
    readMembers (fuel + 1) ((literalChars key.toList ++ ':' :: chars v).map some ++
        some '\x7d' :: rest) = ([(some key, reread v)], some rest) := by
  have hkey := readString_flatMap key (some ':' :: ((chars v).map some ++ some '\x7d' :: rest))
  have hvalue := hv fuel (some '\x7d' :: rest) hfuel (closes_cons (.inr (.inr rfl)))
  rw [memberChars_eq, readMembers, skip_cons rfl]
  simp only [hkey, skip_cons (c := ':') rfl, hvalue]
  rfl

end Member

/-- Members read back one by one. -/
theorem readMembers_chars {key : String} {v : Json} {ms : List (Option String × Json)}
    (hv : ReadsBack v) (hkeys : ∀ m ∈ ms, m.1.isSome = true) (h : ∀ m ∈ ms, ReadsBack m.2) :
    ∀ fuel rest, (literalChars key.toList ++ ':' :: chars v ++ membersChars ms).length < fuel →
      readMembers fuel
          ((literalChars key.toList ++ ':' :: chars v ++ membersChars ms).map some ++ rest) =
        (rereadMembers ((some key, v) :: ms), some rest) := by
  intro fuel rest
  induction ms generalizing key v fuel with
  | nil =>
    intro hfuel
    obtain ⟨fuel, rfl⟩ : ∃ n, fuel = n + 1 := ⟨fuel - 1, by omega⟩
    rw [List.map_append, List.append_assoc]
    exact readMembers_brace key hv (by simp [membersChars] at hfuel; omega) rest
  | cons m ms ih =>
    intro hfuel
    obtain ⟨fuel, rfl⟩ : ∃ n, fuel = n + 1 := ⟨fuel - 1, by omega⟩
    obtain ⟨key', hkey'⟩ := Option.isSome_iff_exists.1 (hkeys m List.mem_cons_self)
    obtain ⟨k, w⟩ := m
    obtain rfl : k = some key' := hkey'
    have hrest := @ih key' w (h _ List.mem_cons_self)
      (fun u hu => hkeys u (List.mem_cons_of_mem _ hu))
      (fun u hu => h u (List.mem_cons_of_mem _ hu)) fuel
      (by simp [membersChars] at hfuel ⊢; omega)
    rw [List.map_append, List.append_assoc]
    refine (readMembers_comma key hv (by simp [membersChars] at hfuel; omega) _).trans ?_
    exact congrArg (fun p : List (Option String × Json) × Option ByteText =>
      ((some key, reread v) :: p.1, p.2)) hrest

theorem readValue_bracket (fuel : Nat) {c : Char} (hspace : isSpace (some c) = false)
    (hc : c ≠ ']') (t : ByteText) : readValue (fuel + 1) (some '[' :: some c :: t) =
      (.array (readItems fuel (some c :: t)).1, (readItems fuel (some c :: t)).2) := by
  rw [readValue, skip_cons rfl]
  simp only [skip_cons hspace]
  split
  · next heq => exact absurd (Option.some.inj (List.cons.inj heq).1) hc
  · rfl

/-- A text of a value begins with a token other than a closing bracket. -/
theorem Legible.head {v : Json} (h : Legible v) :
    ∃ c cs, chars v = c :: cs ∧ isSpace (some c) = false ∧ c ≠ ']' := by
  cases h with
  | null => exact ⟨_, _, rfl, rfl, by decide⟩
  | bool b => cases b <;> exact ⟨_, _, rfl, rfl, by decide⟩
  | number h _ =>
    obtain ⟨c, t, hs, hc⟩ := head_of_readNumber h
    obtain ⟨c', cs, hchars, hsome, -⟩ := List.map_eq_cons_iff.1 hs
    obtain rfl := Option.some.inj hsome
    obtain ⟨hspace, -, hbracket⟩ := plain_of_head hc
    exact ⟨c', cs, hchars, hspace, hbracket⟩
  | text s => exact ⟨_, _, rfl, rfl, by decide⟩
  | @array items => cases items <;> exact ⟨_, _, rfl, rfl, by decide⟩
  | @object members => cases members <;> exact ⟨_, _, rfl, rfl, by decide⟩

/-- What is legible reads back. -/
theorem Legible.readsBack {v : Json} (h : Legible v) : ReadsBack v := by
  induction h with
  | null =>
    intro fuel rest hfuel hrest
    obtain ⟨fuel, rfl⟩ : ∃ n, fuel = n + 1 := ⟨fuel - 1, by omega⟩
    rfl
  | bool b =>
    intro fuel rest hfuel hrest
    obtain ⟨fuel, rfl⟩ : ∃ n, fuel = n + 1 := ⟨fuel - 1, by omega⟩
    cases b <;> rfl
  | number h _ => exact readsBack_number h
  | text s => exact readsBack_text s
  | @array items hitems ih =>
    intro fuel rest hfuel hrest
    obtain ⟨fuel, rfl⟩ : ∃ n, fuel = n + 1 := ⟨fuel - 1, by omega⟩
    cases items with
    | nil => rfl
    | cons v vs =>
      have hread := readItems_chars ih fuel rest (by simpa [chars] using hfuel)
      obtain ⟨c, cs, hc, hspace, hbracket⟩ := (hitems v List.mem_cons_self).head
      rw [hc] at hread
      rw [chars, hc]
      exact (readValue_bracket fuel hspace hbracket _).trans
        (congrArg (fun p : List Json × Option ByteText => (Json.array p.1, p.2)) hread)
  | @object members hkeys hmembers ih =>
    intro fuel rest hfuel hrest
    obtain ⟨fuel, rfl⟩ : ∃ n, fuel = n + 1 := ⟨fuel - 1, by omega⟩
    cases members with
    | nil => rfl
    | cons m ms =>
      obtain ⟨key, hkey⟩ := Option.isSome_iff_exists.1 (hkeys m List.mem_cons_self)
      obtain ⟨k, w⟩ := m
      obtain rfl : k = some key := hkey
      have hread := @readMembers_chars key w ms (ih _ List.mem_cons_self)
        (fun u hu => hkeys u (List.mem_cons_of_mem _ hu))
        (fun u hu => ih u (List.mem_cons_of_mem _ hu)) fuel rest (by simpa [chars] using hfuel)
      exact congrArg (fun p : List (Option String × Json) × Option ByteText =>
        (Json.object p.1, p.2)) hread

/-- The text of a value is a document that holds the value. -/
theorem Document.ofText_print {v : Json} (h : Legible v) :
    Document.ofText (.ofString (print v)) = ⟨reread v, true⟩ := by
  have hread := h.readsBack ((chars v).length + 1) [] (Nat.lt_succ_self _) closes_nil
  have htext : ByteText.ofString (print v) = (chars v).map some := by
    rw [ByteText.ofString, print, String.toList_ofList]
  rw [List.append_nil] at hread
  rw [Document.ofText, htext, List.length_map, hread]
  rfl

/-! ## What texts are read as -/

theorem rereadItems_eq (items : List Json) : rereadItems items = items.map reread := by
  induction items with
  | nil => rfl
  | cons v vs ih => rw [rereadItems, ih, List.map_cons]

theorem rereadMembers_eq (ms : List (Option String × Json)) :
    rereadMembers ms = ms.map fun m => (m.1, reread m.2) := by
  induction ms with
  | nil => rfl
  | cons m ms ih => rw [rereadMembers, ih, List.map_cons]

theorem itemsChars_reread {items : List Json} (h : ∀ v ∈ items, chars (reread v) = chars v) :
    itemsChars (rereadItems items) = itemsChars items := by
  induction items with
  | nil => rfl
  | cons v vs ih =>
    rw [rereadItems, itemsChars, itemsChars, h v List.mem_cons_self,
      ih fun w hw => h w (List.mem_cons_of_mem _ hw)]

theorem membersChars_reread {ms : List (Option String × Json)}
    (h : ∀ m ∈ ms, chars (reread m.2) = chars m.2) :
    membersChars (rereadMembers ms) = membersChars ms := by
  induction ms with
  | nil => rfl
  | cons m ms ih =>
    rw [rereadMembers, membersChars, membersChars, h m List.mem_cons_self,
      ih fun w hw => h w (List.mem_cons_of_mem _ hw)]

/-- The text of a value is that of what it is read as. -/
theorem Legible.chars_reread {v : Json} (h : Legible v) : chars (reread v) = chars v := by
  induction h with
  | null => rfl
  | bool => rfl
  | text => rfl
  | number h hchars =>
    rw [reread, Number.reread, h, chars, chars]
    exact hchars
  | @array items _ ih =>
    cases items with
    | nil => rfl
    | cons v vs =>
      rw [reread, rereadItems, chars, chars, ih v List.mem_cons_self,
        itemsChars_reread fun w hw => ih w (List.mem_cons_of_mem _ hw)]
  | @object ms _ _ ih =>
    cases ms with
    | nil => rfl
    | cons m ms =>
      rw [reread, rereadMembers, chars, chars, ih m List.mem_cons_self,
        membersChars_reread fun w hw => ih w (List.mem_cons_of_mem _ hw)]

end ConnectorKeeper.Json
