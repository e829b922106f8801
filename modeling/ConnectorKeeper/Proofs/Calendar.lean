import Mathlib
import ConnectorKeeper.Timestamp

/-!
# Moments that are read back

Every day has a date, and it is the day of that date (`Date.toDays_ofDays`).  So the
text of a moment is read as the moment, cut to whole seconds (`Timestamp.parse?_text`).

An era of the calendar has 400 years, counted from March.  The year of a day is found
by leaving out the leap days before it, whose number is estimated from the day itself.
The estimate is good enough: the day falls between the start of that year and of the
next (`yearStart_le`, `lt_yearStart`).
-/

namespace ConnectorKeeper.Timestamp

/-! ## Dates -/

/-- Days from the start of an era to the start of one of its years. -/
def yearStart (year : Int) : Int := 365 * year + year / 4 - year / 100 + year / 400

/-- Days from the start of a year to the start of one of its months, from March on. -/
def monthStart (month : Int) : Int := (153 * month + 2) / 5

/-- The year of an era in which a day falls. -/
def yearOf (day : Int) : Int := (day - day / 1460 + day / 36524 - day / 146096) / 365

section Year

variable {day : Int}

theorem yearOf_bounds (h : 0 ≤ day) (h' : day < 146097) : 0 ≤ yearOf day ∧ yearOf day < 400 := by
  unfold yearOf
  omega

theorem yearStart_le (h : 0 ≤ day) (h' : day < 146097) : yearStart (yearOf day) ≤ day := by
  obtain ⟨hlow, hhigh⟩ := yearOf_bounds h h'
  have hday : 365 * yearOf day + day / 1460 - day / 36524 + day / 146096 ≤ day := by
    unfold yearOf
    omega
  generalize yearOf day = year at *
  unfold yearStart
  by_contra hlt
  have hleap : year / 4 ≤ day / 1460 := by omega
  have hrest : year / 4 ≤ 25 * (year / 100) + 24 := by omega
  have hcentury : year / 100 < day / 36524 := by omega
  omega

theorem lt_yearStart (h : 0 ≤ day) (h' : day < 146097) : day < yearStart (yearOf day + 1) := by
  obtain ⟨hlow, hhigh⟩ := yearOf_bounds h h'
  have hday : day < 365 * (yearOf day + 1) + day / 1460 - day / 36524 + day / 146096 := by
    unfold yearOf
    omega
  generalize yearOf day = year at *
  unfold yearStart
  by_contra hlt
  have hleap : day / 1460 ≤ (year + 1) / 4 := by omega
  have hrest : 25 * ((year + 1) / 100) ≤ (year + 1) / 4 := by omega
  have hcentury : (year + 1) / 100 ≤ day / 36524 := by omega
  omega

/-- The next year begins after as many days as this one has. -/
theorem yearStart_succ {year : Int} (h : 0 ≤ year) (h' : year < 400) :
    yearStart (year + 1) = yearStart year + if isLeapYear (year + 1) then 366 else 365 := by
  simp only [yearStart, isLeapYear, Bool.and_eq_true, Bool.or_eq_true, beq_iff_eq, bne_iff_ne]
  split
  · omega
  · omega

end Year

/-- A day is given by its era, its year, its month and its place there. -/
theorem Date.exists_ofDays (days : Int) : ∃ era year month day : Int,
    (0 ≤ year ∧ year < 400) ∧ (0 ≤ month ∧ month ≤ 11) ∧ 1 ≤ day ∧
      monthStart month + day ≤ monthStart (month + 1) ∧
      yearStart year + monthStart month + day ≤ yearStart (year + 1) ∧
      days = era * 146097 + yearStart year + monthStart month + day - 719469 ∧
      ofDays days = ⟨year + era * 400 + (if month < 10 then 0 else 1),
        (if month < 10 then month + 3 else month - 9).toNat, day.toNat⟩ := by
  let era := (days + 719468) / 146097
  let day := days + 719468 - era * 146097
  have hday : 0 ≤ day ∧ day < 146097 := by omega
  obtain ⟨hlow, hhigh⟩ := yearOf_bounds hday.1 hday.2
  have hstart := yearStart_le hday.1 hday.2
  have hend := lt_yearStart hday.1 hday.2
  have hyear := yearStart_succ hlow hhigh
  let place := day - (365 * yearOf day + yearOf day / 4 - yearOf day / 100)
  have hplace : place = day - yearStart (yearOf day) := by
    unfold yearStart
    omega
  let month := (5 * place + 2) / 153
  have hmonth : (0 ≤ month ∧ month ≤ 11) ∧ monthStart month ≤ place ∧
      place < monthStart (month + 1) := by
    have hlength : 0 ≤ place ∧ place ≤ 365 := by split at hyear <;> omega
    unfold monthStart
    omega
  refine ⟨era, yearOf day, month, place - monthStart month + 1, ⟨hlow, hhigh⟩, hmonth.1, by omega,
    by omega, by omega, by omega, ?_⟩
  have hyear : ofDays days = ⟨yearOf day + era * 400 +
      (if (if month < 10 then month + 3 else month - 9) ≤ 2 then 1 else 0),
      (if month < 10 then month + 3 else month - 9).toNat,
      (place - monthStart month + 1).toNat⟩ := rfl
  rw [hyear]
  by_cases h : month < 10
  · rw [if_pos h, if_pos h, if_neg (by omega)]
  · rw [if_neg h, if_neg h, if_pos (by omega)]

/-- A day is the day of its date. -/
theorem Date.toDays_ofDays (days : Int) : (ofDays days).toDays = days := by
  obtain ⟨era, year, month, day, hyear, hmonth, hday, -, -, hdays, heq⟩ := exists_ofDays days
  have hera : (year + era * 400) / 400 = era := by omega
  have hday' : (day.toNat : Int) = day := by omega
  rw [heq, hdays]
  by_cases h : month < 10
  · have hmonth' : ((month + 3).toNat : Int) = month + 3 := by omega
    have hlate : ¬ (month + 3).toNat ≤ 2 := by omega
    simp only [toDays, if_pos h, if_neg hlate, hmonth', hday', Int.add_zero, hera, yearStart,
      monthStart]
    omega
  · have hmonth' : ((month - 9).toNat : Int) = month - 9 := by omega
    have hearly : (month - 9).toNat ≤ 2 := by omega
    simp only [toDays, if_neg h, if_pos hearly, hmonth', hday', Int.add_sub_cancel, hera,
      yearStart, monthStart]
    omega

/-- Leap years come again after four hundred years. -/
theorem isLeapYear_add_era (year era : Int) :
    isLeapYear (year + era * 400) = isLeapYear year := by
  have h : (year + era * 400) % 4 = year % 4 ∧ (year + era * 400) % 100 = year % 100 ∧
      (year + era * 400) % 400 = year % 400 := by omega
  rw [isLeapYear, isLeapYear, h.1, h.2.1, h.2.2]

/-- Only February, the last month, is not as long as the rule of months says. -/
theorem monthStart_succ_le {month : Int} (h : 0 ≤ month) (h' : month ≤ 10) (year : Int) :
    monthStart (month + 1) ≤ monthStart month +
      daysInMonth year (if month < 10 then month + 3 else month - 9).toNat := by
  interval_cases month <;> simp [monthStart, daysInMonth]

/-- A day whose year is in range has a valid date. -/
theorem Date.valid_ofDays {days : Int} (h : yearInRange (ofDays days).year = true) :
    (ofDays days).valid = true := by
  obtain ⟨era, year, month, day, hyear, hmonth, hday, hnext, hend, -, heq⟩ := exists_ofDays days
  have hlength : day.toNat ≤ daysInMonth (year + era * 400 + (if month < 10 then 0 else 1))
      (if month < 10 then month + 3 else month - 9).toNat := by
    by_cases hfebruary : month = 11
    · subst hfebruary
      have hleap := isLeapYear_add_era (year + 1) era
      rw [Int.add_right_comm] at hleap
      rw [yearStart_succ hyear.1 hyear.2] at hend
      have hstart : monthStart 11 = 337 := rfl
      show day.toNat ≤ if isLeapYear (year + era * 400 + 1) then 29 else 28
      rw [hleap]
      split at hend
      · next hleap =>
        rw [if_pos hleap]
        omega
      · next hplain =>
        rw [if_neg hplain]
        omega
    · have hmonths := monthStart_succ_le hmonth.1 (by omega)
        (year + era * 400 + if month < 10 then 0 else 1)
      omega
  rw [heq] at h ⊢
  simp only [valid, h, Bool.true_and, Bool.and_eq_true, decide_eq_true_eq]
  refine ⟨⟨⟨?_, ?_⟩, ?_⟩, hlength⟩
  · split <;> omega
  · split <;> omega
  · omega

/-! ## Digits -/

theorem digitsValue_eq (ds : List Char) : digitsValue ds = Nat.ofDigitChars 10 ds 0 := by
  rw [digitsValue, Nat.ofDigitChars_eq_foldl]
  congr 1
  funext n c
  rw [Nat.mul_comm]
  rfl

theorem toList_padded (width n : Nat) : (padded width n).toList =
    List.replicate (width - (Nat.toDigits 10 n).length) '0' ++ Nat.toDigits 10 n :=
  String.toList_ofList

theorem isDigit_of_mem_padded {width n : Nat} {c : Char} (h : c ∈ (padded width n).toList) :
    c.isDigit = true := by
  rw [toList_padded, List.mem_append] at h
  cases h with
  | inl h => rw [List.eq_of_mem_replicate h]; rfl
  | inr h => exact Nat.isDigit_of_mem_toDigits (by decide) (by decide) h

/-- Leading zeros leave the value. -/
theorem digitsValue_padded (width n : Nat) : digitsValue (padded width n).toList = n := by
  rw [toList_padded, digitsValue_eq, Nat.ofDigitChars_append, Nat.ofDigitChars_replicate_zero,
    Nat.mul_zero, Nat.ofDigitChars_ten_toDigits]

theorem padded_ne_nil (width n : Nat) : (padded width n).toList ≠ [] := by
  rw [toList_padded]
  exact List.append_ne_nil_of_right_ne_nil _ Nat.toDigits_ne_nil

/-- A number that fits is written in the given width. -/
theorem length_padded {width n : Nat} (hwidth : 0 < width) (h : n < 10 ^ width) :
    (padded width n).toList.length = width := by
  have hlength := (Nat.length_toDigits_le_iff (by decide) hwidth).2 h
  rw [toList_padded, List.length_append, List.length_replicate]
  omega

theorem digit_bounds {c : Char} (h : c.isDigit = true) : 48 ≤ c.toNat ∧ c.toNat ≤ 57 := by
  simpa [Char.isDigit, UInt32.le_iff_toNat_le] using h

/-- A number has less than the next power of ten. -/
theorem digitsValue_lt {ds : List Char} (h : ∀ c ∈ ds, c.isDigit = true) :
    digitsValue ds < 10 ^ ds.length := by
  induction ds with
  | nil => decide
  | cons c ds ih =>
    have hrest := ih fun d hd => h d (List.mem_cons_of_mem _ hd)
    have hdigit : c.toNat - 48 ≤ 9 := by
      have hbounds := digit_bounds (h c List.mem_cons_self)
      omega
    have hvalue : digitsValue (c :: ds) = 10 ^ ds.length * (c.toNat - 48) + digitsValue ds := by
      rw [digitsValue_eq, digitsValue_eq, Nat.ofDigitChars_cons, Nat.mul_zero, Nat.zero_add,
        Nat.ofDigitChars_eq_ofDigitChars_zero]
      rfl
    rw [hvalue, List.length_cons, Nat.pow_succ]
    have hscaled := Nat.mul_le_mul_left (10 ^ ds.length) hdigit
    omega

section Reading

variable {width : Nat} {ds rest : List Char}

theorem dropBlank_cons {c : Char} (h : Text.isBlank c = false) (rest : List Char) :
    Text.dropBlank (c :: rest) = c :: rest := List.dropWhile_cons_of_neg (by simp [h])

theorem not_isBlank_of_isDigit {c : Char} (h : c.isDigit = true) : Text.isBlank c = false := by
  have hbounds := digit_bounds h
  simp only [Text.isBlank, Bool.or_eq_false_iff, Bool.and_eq_false_iff, beq_eq_false_iff_ne,
    decide_eq_false_iff_not]
  omega

theorem dropBlank_digits (hdigits : ∀ c ∈ ds, c.isDigit = true) (hne : ds ≠ []) :
    Text.dropBlank (ds ++ rest) = ds ++ rest := by
  cases ds with
  | nil => exact absurd rfl hne
  | cons c ds => exact dropBlank_cons (not_isBlank_of_isDigit (hdigits c List.mem_cons_self)) _

/-- Digits are read up to what is no digit. -/
theorem readDigits_append (hdigits : ∀ c ∈ ds, c.isDigit = true) (hne : ds ≠ [])
    (hlength : ds.length ≤ width) (hrest : ∀ c ∈ rest.head?, c.isDigit = false) :
    readDigits width (ds ++ rest) = some (digitsValue ds, rest) := by
  have hnone : rest.takeWhile Char.isDigit = [] := by
    cases rest with
    | nil => rfl
    | cons c rest => rw [List.takeWhile_cons, hrest c rfl]; rfl
  rw [readDigits, List.takeWhile_append_of_pos hdigits, hnone, List.append_nil,
    List.take_of_length_le hlength]
  simp [hne]

/-- Two digits are read as they were written. -/
theorem readTwo_padded {n : Nat} (h : n < 100) (hrest : ∀ c ∈ rest.head?, c.isDigit = false) :
    readTwo ((padded 2 n).toList ++ rest) = some (n, rest) := by
  have hdigits := fun c (hc : c ∈ (padded 2 n).toList) => isDigit_of_mem_padded hc
  rw [readTwo, dropBlank_digits hdigits (padded_ne_nil 2 n), readDigits_append hdigits
    (padded_ne_nil 2 n) (length_padded (by decide) h).le hrest, digitsValue_padded]

theorem readMark_cons {mark : Char} (h : Text.isBlank mark = false) (rest : List Char) :
    readMark mark (mark :: rest) = some rest := by
  rw [readMark, dropBlank_cons h]
  exact if_pos rfl

theorem not_isDigit_head {c : Char} (h : c.isDigit = false) :
    ∀ d ∈ (c :: rest).head?, d.isDigit = false := by
  rintro _ ⟨⟩
  exact h

/-- A year without a sign has at most four digits. -/
theorem readYear_digits (hdigits : ∀ c ∈ ds, c.isDigit = true) (hne : ds ≠ []) :
    readYear (ds ++ rest) = (readDigits 4 (ds ++ rest)).map fun (n, r) => ((n : Int), r) := by
  cases ds with
  | nil => exact absurd rfl hne
  | cons c ds =>
    have hc := hdigits c List.mem_cons_self
    rw [readYear, dropBlank_digits hdigits hne]
    split
    · next heq =>
      cases heq
      exact absurd hc (by decide)
    · next heq =>
      cases heq
      exact absurd hc (by decide)
    · rfl

/-- A year is read from its text. -/
theorem readYear_yearText (year : Int) (hrest : ∀ c ∈ rest.head?, c.isDigit = false) :
    readYear ((yearText year).toList ++ rest) = some (year, rest) := by
  have hdigits : ∀ n, ∀ c ∈ (padded 4 n).toList, c.isDigit = true :=
    fun n c hc => isDigit_of_mem_padded hc
  have hsigned : ∀ n, readDigits ((padded 4 n).toList ++ rest).length
      ((padded 4 n).toList ++ rest) = some (n, rest) := by
    intro n
    rw [readDigits_append (hdigits n) (padded_ne_nil 4 n) (by simp) hrest, digitsValue_padded]
  unfold yearText
  split
  · next hshort =>
    simp only [Bool.and_eq_true, decide_eq_true_eq] at hshort
    have hlength := length_padded (by decide : 0 < 4) (by omega : year.toNat < 10 ^ 4)
    rw [readYear_digits (hdigits _) (padded_ne_nil _ _), readDigits_append (hdigits _)
      (padded_ne_nil _ _) hlength.le hrest, digitsValue_padded]
    simp [hshort.1]
  · next hlong =>
    simp only [Bool.and_eq_true, decide_eq_true_eq] at hlong
    split
    · next hneg =>
      have hvalue : -(year.natAbs : Int) = year := by omega
      have htext : ("-" ++ padded 4 year.natAbs).toList = '-' :: (padded 4 year.natAbs).toList := by
        rw [String.toList_append]
        rfl
      rw [htext, List.cons_append, readYear, dropBlank_cons rfl]
      simp only [hsigned, Option.map_some, hvalue]
    · next hpos =>
      have hvalue : (year.natAbs : Int) = year := by omega
      have htext : ("+" ++ padded 4 year.natAbs).toList = '+' :: (padded 4 year.natAbs).toList := by
        rw [String.toList_append]
        rfl
      rw [htext, List.cons_append, readYear, dropBlank_cons rfl]
      simp only [hsigned, Option.map_some, hvalue]

end Reading

/-! ## Moments -/

/-- The moment without its fraction of a second.  A leap second stays one. -/
def whole (t : Timestamp) : Timestamp :=
  ⟨t.seconds, if nanosPerSecond ≤ t.nanos then nanosPerSecond else 0⟩

/-- A moment that a text can stand for: its year is in range, and a leap second comes at
the end of a minute. -/
structure InRange (t : Timestamp) : Prop where
  year : yearInRange (Date.ofDays (t.seconds / 86400)).year = true
  leap : nanosPerSecond ≤ t.nanos → t.seconds % 60 = 59

instance (t : Timestamp) : Decidable t.InRange :=
  decidable_of_iff (yearInRange (Date.ofDays (t.seconds / 86400)).year = true ∧
    (nanosPerSecond ≤ t.nanos → t.seconds % 60 = 59))
    ⟨fun h => ⟨h.1, h.2⟩, fun h => ⟨h.year, h.leap⟩⟩

theorem le_nanos_whole {t : Timestamp} :
    nanosPerSecond ≤ t.whole.nanos ↔ nanosPerSecond ≤ t.nanos := by
  unfold whole
  split
  · next h => exact iff_of_true (Nat.le_refl _) h
  · next h => exact iff_of_false (show ¬ nanosPerSecond ≤ 0 by decide) h

/-- A moment without a fraction stays as it is. -/
theorem whole_whole (t : Timestamp) : t.whole.whole = t.whole := by
  show (⟨t.seconds, if nanosPerSecond ≤ t.whole.nanos then _ else _⟩ : Timestamp) = _
  simp only [le_nanos_whole]
  rfl

theorem InRange.whole {t : Timestamp} (h : t.InRange) : t.whole.InRange :=
  ⟨h.year, fun hleap => h.leap (le_nanos_whole.1 hleap)⟩

/-- A fraction is not written. -/
theorem text_whole (t : Timestamp) : t.whole.text = t.text := by
  simp only [text, textSeconds, le_nanos_whole]
  rfl

theorem toList_text (t : Timestamp) : t.text.toList =
    (yearText (Date.ofDays (t.seconds / 86400)).year).toList ++ '-' ::
      ((padded 2 (Date.ofDays (t.seconds / 86400)).month).toList ++ '-' ::
        ((padded 2 (Date.ofDays (t.seconds / 86400)).day).toList ++ 'T' ::
          ((padded 2 ((t.seconds % 86400).toNat / 3600)).toList ++ ':' ::
            ((padded 2 ((t.seconds % 86400).toNat / 60 % 60)).toList ++ ':' ::
              ((padded 2 ((t.seconds % 86400).toNat % 60 +
                (if nanosPerSecond ≤ t.nanos then 1 else 0))).toList ++ ['Z']))))) := by
  simp [text, textSeconds, toString]

theorem daysInMonth_le (year : Int) (month : Nat) : daysInMonth year month ≤ 31 := by
  unfold daysInMonth
  repeat' split
  all_goals decide

/-- The month and the day of a date have two digits. -/
theorem lt_hundred_of_valid {date : Date} (h : date.valid = true) :
    date.month < 100 ∧ date.day < 100 := by
  have hlength := daysInMonth_le date.year date.month
  simp only [Date.valid, Bool.and_eq_true, decide_eq_true_eq] at h
  omega

section Second

variable {n nanos : Nat} (hleap : nanosPerSecond ≤ nanos → n % 60 = 59)

include hleap

/-- The second of a leap second is written as sixty, and no other one is. -/
theorem second_eq_sixty_iff :
    (n % 60 + if nanosPerSecond ≤ nanos then 1 else 0) = 60 ↔ nanosPerSecond ≤ nanos := by
  split <;> omega

/-- A second is kept without the leap. -/
theorem second_kept :
    (if (n % 60 + if nanosPerSecond ≤ nanos then 1 else 0) = 60 then 59
      else n % 60 + if nanosPerSecond ≤ nanos then 1 else 0) = n % 60 := by
  by_cases hnanos : nanosPerSecond ≤ nanos
  · rw [if_pos ((second_eq_sixty_iff hleap).2 hnanos), hleap hnanos]
  · rw [if_neg (mt (second_eq_sixty_iff hleap).1 hnanos), if_neg hnanos, Nat.add_zero]

end Second

/-- A moment is read from its text, cut to the whole second. -/
theorem parse?_text {t : Timestamp} (h : t.InRange) : parse? t.text = some t.whole := by
  have hvalid := Date.valid_ofDays h.year
  have hdays := Date.toDays_ofDays (t.seconds / 86400)
  have hday : ((t.seconds % 86400).toNat : Int) = t.seconds % 86400 := by omega
  rw [parse?, toList_text]
  generalize Date.ofDays (t.seconds / 86400) = date at *
  generalize hofDay : (t.seconds % 86400).toNat = ofDay at *
  have hleap : nanosPerSecond ≤ t.nanos → ofDay % 60 = 59 := fun hnanos => by
    have hlast := h.leap hnanos
    omega
  have hsecond : ofDay % 60 + (if nanosPerSecond ≤ t.nanos then 1 else 0) ≤ 60 := by
    split <;> omega
  have hmoment : (⟨date.year, date.month, date.day⟩ : Date).toDays * 86400 +
      ((ofDay / 3600 * 3600 + ofDay / 60 % 60 * 60 + ofDay % 60 : Nat) : Int) - 0 =
        t.seconds := by
    show date.toDays * 86400 + _ - 0 = _
    omega
  obtain ⟨hmonth, hplace⟩ := lt_hundred_of_valid hvalid
  refine Option.bind_eq_some_iff.2 ⟨_, readYear_yearText _ (not_isDigit_head rfl), ?_⟩
  refine Option.bind_eq_some_iff.2 ⟨_, readMark_cons rfl _, ?_⟩
  refine Option.bind_eq_some_iff.2 ⟨_, readTwo_padded hmonth (not_isDigit_head rfl), ?_⟩
  refine Option.bind_eq_some_iff.2 ⟨_, readMark_cons rfl _, ?_⟩
  refine Option.bind_eq_some_iff.2 ⟨_, readTwo_padded hplace (not_isDigit_head rfl), ?_⟩
  refine Option.bind_eq_some_iff.2 ⟨_, rfl, ?_⟩
  refine Option.bind_eq_some_iff.2 ⟨_, readTwo_padded (by omega) (not_isDigit_head rfl), ?_⟩
  refine Option.bind_eq_some_iff.2 ⟨_, readMark_cons rfl _, ?_⟩
  refine Option.bind_eq_some_iff.2 ⟨_, readTwo_padded (by omega) (not_isDigit_head rfl), ?_⟩
  refine Option.bind_eq_some_iff.2 ⟨_, readMark_cons rfl _, ?_⟩
  refine Option.bind_eq_some_iff.2 ⟨_, readTwo_padded (by omega) (not_isDigit_head rfl), ?_⟩
  refine Option.bind_eq_some_iff.2 ⟨(0, ['Z']), rfl, ?_⟩
  refine Option.bind_eq_some_iff.2 ⟨(0, []), rfl, ?_⟩
  simp only [second_kept hleap]
  simp only [hmoment, second_eq_sixty_iff hleap]
  rw [if_pos]
  · simp [whole]
  · simp only [Bool.and_eq_true, decide_eq_true_eq]
    exact ⟨⟨⟨⟨⟨rfl, hvalid⟩, by omega⟩, by omega⟩, hsecond⟩, h.year⟩

/-- A fraction of a second is less than a second. -/
theorem readFraction_lt {s rest : List Char} {nanos : Nat}
    (h : readFraction s = some (nanos, rest)) : nanos < nanosPerSecond := by
  unfold readFraction at h
  split at h
  · next s =>
    simp only at h
    split at h
    · cases h
    · cases h
      have hdigits : ∀ c ∈ (s.takeWhile Char.isDigit).take 9, c.isDigit = true :=
        fun c hc => List.mem_takeWhile_imp (List.mem_of_mem_take hc)
      have hlength : ((s.takeWhile Char.isDigit).take 9).length ≤ 9 := List.length_take_le ..
      have hpower : 10 ^ ((s.takeWhile Char.isDigit).take 9).length *
          10 ^ (9 - ((s.takeWhile Char.isDigit).take 9).length) = nanosPerSecond := by
        rw [← Nat.pow_add, Nat.add_sub_cancel' hlength]
        rfl
      rw [← hpower]
      exact Nat.mul_lt_mul_of_pos_right (digitsValue_lt hdigits) (Nat.pow_pos (by decide))
  · cases h
    decide

/-- Zones differ by whole minutes. -/
theorem readOffset_mod {s rest : List Char} {offset : Int}
    (h : readOffset s = some (offset, rest)) : offset % 60 = 0 := by
  unfold readOffset at h
  split at h
  · cases h
    rfl
  · cases h
    rfl
  · split at h
    · cases h
      rfl
    · split at h
      · split at h
        · split at h
          · simp only at h
            split at h
            · cases h
              split <;> omega
            · cases h
          · cases h
        · cases h
      · cases h
  · cases h

/-- A moment that is read is one that a text can stand for. -/
theorem inRange_of_parse? {s : String} {t : Timestamp} (h : parse? s = some t) : t.InRange := by
  rw [parse?] at h
  obtain ⟨⟨year, s⟩, -, h⟩ := Option.bind_eq_some_iff.1 h
  obtain ⟨s, -, h⟩ := Option.bind_eq_some_iff.1 h
  obtain ⟨⟨month, s⟩, -, h⟩ := Option.bind_eq_some_iff.1 h
  obtain ⟨s, -, h⟩ := Option.bind_eq_some_iff.1 h
  obtain ⟨⟨day, s⟩, -, h⟩ := Option.bind_eq_some_iff.1 h
  dsimp only at h
  split at h
  case h_4 => cases h
  -- The mark between date and time, whichever of the three it is, is not looked at again.
  all_goals
    obtain ⟨s, -, h⟩ := Option.bind_eq_some_iff.1 h
    obtain ⟨⟨hour, s⟩, -, h⟩ := Option.bind_eq_some_iff.1 h
    obtain ⟨s, -, h⟩ := Option.bind_eq_some_iff.1 h
    obtain ⟨⟨minute, s⟩, -, h⟩ := Option.bind_eq_some_iff.1 h
    obtain ⟨s, -, h⟩ := Option.bind_eq_some_iff.1 h
    obtain ⟨⟨second, s⟩, -, h⟩ := Option.bind_eq_some_iff.1 h
    obtain ⟨⟨nanos, s⟩, hnanos, h⟩ := Option.bind_eq_some_iff.1 h
    obtain ⟨⟨offset, s⟩, hoffset, h⟩ := Option.bind_eq_some_iff.1 h
    have hzone := readOffset_mod hoffset
    have hfraction := readFraction_lt hnanos
    obtain ⟨hvalid, h⟩ := Option.ite_none_right_eq_some.1 h
    cases h
    simp only [Bool.and_eq_true, decide_eq_true_eq] at hvalid
    refine ⟨hvalid.2, ?_⟩
    intro hleap
    by_cases h60 : second = 60
    · simp only [if_pos h60]
      omega
    · simp only [if_neg h60] at hleap
      omega

end ConnectorKeeper.Timestamp
