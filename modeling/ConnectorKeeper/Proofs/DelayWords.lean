import Mathlib
import ConnectorKeeper.Retry

/-!
# Delays in machine words

A machine keeps a duration in two words, whole seconds in 64 bits and the nanoseconds
past them in 32 (`Duration.Words`).  The delay before an attempt is then a shift, a
product with a carry from the one word to the other, and a comparison of both.  What
a machine computes has no value where the exact result does not fit its word.

That never happens (`Backoff.delayWords?_words`): the doublings stop before the shift
is too far, the nanoseconds of a product always fit, and seconds that do not fit give
the greatest duration.  Nor does any of it show: where the limit is reached within the
doublings, the delay is the first one doubled for every further attempt, cut at the
limit (`Backoff.delay_doubles`).
-/

namespace ConnectorKeeper

/-! ## Words -/

namespace Word

/-- The product of two words, none if it does not fit. -/
def mul? (a b : UInt64) : Option UInt64 :=
  if a.toNat * b.toNat < 2 ^ 64 then some (a * b) else none

/-- The sum of two words, none if it does not fit. -/
def add? (a b : UInt64) : Option UInt64 :=
  if a.toNat + b.toNat < 2 ^ 64 then some (a + b) else none

/-- A word shifted to the left, none if it is shifted by all its bits. -/
def shiftLeft? (a n : UInt32) : Option UInt32 := if n < 32 then some (a <<< n) else none

variable {a b : UInt64}

/-- A product that fits its word is the product. -/
theorem mul?_eq (h : a.toNat * b.toNat < 2 ^ 64) :
    mul? a b = some (.ofNat (a.toNat * b.toNat)) := by
  rw [mul?, if_pos h]
  refine congrArg some (UInt64.toNat_inj.1 ?_)
  rw [UInt64.toNat_mul, UInt64.toNat_ofNat']

theorem add?_eq (h : a.toNat + b.toNat < 2 ^ 64) :
    add? a b = some (.ofNat (a.toNat + b.toNat)) := by
  rw [add?, if_pos h]
  refine congrArg some (UInt64.toNat_inj.1 ?_)
  rw [UInt64.toNat_add, UInt64.toNat_ofNat']

/-- A product and a sum in turn have a value if and only if the result fits. -/
theorem mul?_bind_add? (a b c : UInt64) : (mul? a b).bind (add? · c) =
    if a.toNat * b.toNat + c.toNat < 2 ^ 64 then some (.ofNat (a.toNat * b.toNat + c.toNat))
    else none := by
  by_cases hmul : a.toNat * b.toNat < 2 ^ 64
  · have hproduct : (UInt64.ofNat (a.toNat * b.toNat)).toNat = a.toNat * b.toNat :=
      UInt64.toNat_ofNat_of_lt' hmul
    rw [mul?_eq hmul, Option.bind_some]
    split
    · next hadd => rw [add?_eq (by rwa [hproduct]), hproduct]
    · next hadd => rw [add?, hproduct, if_neg hadd]
  · rw [mul?, if_neg hmul, if_neg (by omega)]
    rfl

/-- One, shifted by fewer bits than it has, is a power of two. -/
theorem shiftLeft?_one {n : UInt32} (h : n < 32) :
    shiftLeft? 1 n = some (.ofNat (2 ^ n.toNat)) := by
  have hn : n.toNat < 32 := h
  rw [shiftLeft?, if_pos h]
  refine congrArg some (UInt32.toNat_inj.1 ?_)
  rw [UInt32.toNat_shiftLeft, UInt32.toNat_ofNat', Nat.mod_eq_of_lt hn]
  simp [Nat.shiftLeft_eq]

end Word

/-! ## Durations -/

namespace Duration

/-- A duration as a machine keeps it. -/
structure Words where
  /-- The whole seconds. -/
  seconds : UInt64
  /-- The nanoseconds past them. -/
  nanos : UInt32
  /-- The nanoseconds are less than a second. -/
  nanos_lt : nanos.toNat < perSecond

theorem seconds_lt (d : Duration) : d.seconds < 2 ^ 64 :=
  Nat.div_lt_of_lt_mul (by simpa [bound, Nat.mul_comm] using d.bounded)

theorem subsecond_lt (d : Duration) : d.subsecond < perSecond := Nat.mod_lt _ (by decide)

theorem toNat_ofNat_subsecond (d : Duration) :
    (UInt32.ofNat d.subsecond).toNat = d.subsecond :=
  UInt32.toNat_ofNat_of_lt' (d.subsecond_lt.trans (by decide))

/-- The words of a duration. -/
def words (d : Duration) : Words :=
  ⟨.ofNat d.seconds, .ofNat d.subsecond, d.toNat_ofNat_subsecond.trans_lt d.subsecond_lt⟩

/-- The duration of two words. -/
def Words.duration (w : Words) : Duration :=
  ⟨w.seconds.toNat * perSecond + w.nanos.toNat, by
    have hseconds := w.seconds.toNat_lt
    have hnanos := w.nanos_lt
    simp only [bound, perSecond] at hnanos ⊢
    omega⟩

@[simp] theorem toNat_seconds_words (d : Duration) : d.words.seconds.toNat = d.seconds :=
  UInt64.toNat_ofNat_of_lt' d.seconds_lt

@[simp] theorem toNat_nanos_words (d : Duration) : d.words.nanos.toNat = d.subsecond :=
  d.toNat_ofNat_subsecond

/-- Words are told by their numbers. -/
theorem Words.ext_toNat {a b : Words} (hseconds : a.seconds.toNat = b.seconds.toNat)
    (hnanos : a.nanos.toNat = b.nanos.toNat) : a = b := by
  cases a
  cases b
  obtain rfl := UInt64.toNat_inj.1 hseconds
  obtain rfl := UInt32.toNat_inj.1 hnanos
  rfl

theorem Words.seconds_duration (w : Words) : w.duration.seconds = w.seconds.toNat := by
  have hnanos := w.nanos_lt
  simp only [duration, Duration.seconds, perSecond] at hnanos ⊢
  omega

theorem Words.subsecond_duration (w : Words) : w.duration.subsecond = w.nanos.toNat := by
  have hnanos := w.nanos_lt
  simp only [duration, subsecond, perSecond] at hnanos ⊢
  omega

/-- Every duration is kept in words, and every pair of words is that of a duration. -/
def equivWords : Duration ≃ Words where
  toFun := words
  invFun := Words.duration
  left_inv d := by
    obtain ⟨n, hn⟩ := d
    simp only [Words.duration, toNat_seconds_words, toNat_nanos_words, mk.injEq]
    exact Nat.div_add_mod' n perSecond
  right_inv w := by
    refine Words.ext_toNat ?_ ?_
    · rw [toNat_seconds_words, w.seconds_duration]
    · rw [toNat_nanos_words, w.subsecond_duration]

namespace Words

/-- The duration that is not exceeded. -/
def greatest : Words := ⟨.ofNat (2 ^ 64 - 1), .ofNat (perSecond - 1), by decide⟩

/-- A duration several times over, the greatest one if the seconds do not fit.  The product of
the nanoseconds is not checked: it has no value if it does not fit. -/
def scale? (w : Words) (k : UInt32) : Option Words := do
  let total ← Word.mul? w.nanos.toUInt64 k.toUInt64
  let carry := total / .ofNat perSecond
  let rest := total % .ofNat perSecond
  let seconds? := (Word.mul? w.seconds k.toUInt64).bind (Word.add? · carry)
  some (seconds?.elim greatest fun seconds => ⟨seconds, rest.toUInt32, by
    have hrest : rest.toNat < perSecond := Nat.mod_lt _ (by decide)
    rw [UInt64.toNat_toUInt32]
    exact (Nat.mod_le _ _).trans_lt hrest⟩)

/-- The lesser of two durations: the one of fewer seconds, or of fewer nanoseconds if the seconds
are the same. -/
def least (a b : Words) : Words :=
  if a.seconds < b.seconds ∨ a.seconds = b.seconds ∧ a.nanos ≤ b.nanos then a else b

end Words

/-- The seconds of a duration that fits are those of its nanoseconds. -/
theorem seconds_ofNanos {n : Nat} (h : n < bound) : (ofNanos n).seconds = n / perSecond := by
  rw [ofNanos, dif_pos h]
  rfl

theorem subsecond_ofNanos {n : Nat} (h : n < bound) : (ofNanos n).subsecond = n % perSecond := by
  rw [ofNanos, dif_pos h]
  rfl

/-- Seconds and nanoseconds are multiplied each, with a carry. -/
theorem nanos_mul (d : Duration) (k : Nat) :
    d.nanos * k / perSecond = d.seconds * k + d.subsecond * k / perSecond ∧
      d.nanos * k % perSecond = d.subsecond * k % perSecond := by
  have hsplit : d.nanos * k = d.subsecond * k + perSecond * (d.seconds * k) := by
    rw [← Nat.mul_assoc, ← Nat.add_mul, Nat.mul_comm perSecond, subsecond, seconds,
      Nat.mod_add_div']
  rw [hsplit]
  constructor
  · rw [Nat.add_mul_div_left _ _ (by decide), Nat.add_comm]
  · exact Nat.add_mul_mod_self_left ..

/-- Multiplication in words is multiplication. -/
theorem scale?_words (d : Duration) (k : UInt32) :
    d.words.scale? k = some (d.scale k.toNat).words := by
  obtain ⟨hseconds, hrest⟩ := d.nanos_mul k.toNat
  have htotal : d.subsecond * k.toNat < 2 ^ 64 :=
    calc d.subsecond * k.toNat < perSecond * 2 ^ 32 :=
          Nat.mul_lt_mul'' d.subsecond_lt k.toNat_lt
      _ < 2 ^ 64 := by decide
  have hvalue : (UInt64.ofNat (d.subsecond * k.toNat)).toNat = d.subsecond * k.toNat :=
    UInt64.toNat_ofNat_of_lt' htotal
  have hproduct : Word.mul? d.words.nanos.toUInt64 k.toUInt64 =
      some (.ofNat (d.subsecond * k.toNat)) := by
    rw [Word.mul?_eq (by simpa using htotal)]
    simp
  have hfits : d.seconds * k.toNat + d.subsecond * k.toNat / perSecond < 2 ^ 64 ↔
      d.nanos * k.toNat < bound := by
    rw [← hseconds, Nat.div_lt_iff_lt_mul (by decide)]
    exact Iff.rfl
  have hunit : (UInt64.ofNat perSecond).toNat = perSecond := rfl
  simp only [Words.scale?, hproduct, Option.bind_eq_bind, Option.bind_some, Option.some.injEq,
    Word.mul?_bind_add?, toNat_seconds_words, UInt64.toNat_div, hvalue, hunit,
    UInt32.toNat_toUInt64]
  by_cases h : d.nanos * k.toNat < bound
  · rw [if_pos (hfits.2 h)]
    refine Words.ext_toNat ?_ ?_
    · rw [toNat_seconds_words, scale, seconds_ofNanos h, hseconds]
      exact UInt64.toNat_ofNat_of_lt' (hfits.2 h)
    · rw [toNat_nanos_words, scale, subsecond_ofNanos h, hrest, Option.elim_some,
        UInt64.toNat_toUInt32, UInt64.toNat_mod, hvalue, hunit]
      exact Nat.mod_eq_of_lt ((Nat.mod_lt _ (by decide)).trans (by decide))
  · rw [if_neg (mt hfits.1 h), scale, ofNanos, dif_neg h]
    rfl

/-- Words are compared as durations are. -/
theorem least_words (d e : Duration) : d.words.least e.words = (min d e).words := by
  have hle : d ≤ e ↔ d.words.seconds < e.words.seconds ∨
      d.words.seconds = e.words.seconds ∧ d.words.nanos ≤ e.words.nanos := by
    rw [UInt64.lt_iff_toNat_lt, ← UInt64.toNat_inj, UInt32.le_iff_toNat_le]
    simp only [toNat_seconds_words, toNat_nanos_words, seconds, subsecond, perSecond]
    change d.nanos ≤ e.nanos ↔ _
    omega
  show (if _ then _ else _) = (if d ≤ e then d else e).words
  by_cases h : d ≤ e
  · rw [if_pos h, if_pos (hle.1 h)]
  · rw [if_neg h, if_neg (mt hle.2 h)]

theorem nanos_min (d e : Duration) : (min d e).nanos = min d.nanos e.nanos := by
  show (if d ≤ e then d else e).nanos = _
  split
  · next h => exact (Nat.min_eq_left h).symm
  · next h => exact (Nat.min_eq_right (Nat.le_of_not_le h)).symm

end Duration

/-! ## Delays -/

namespace Backoff

/-- The number of doublings before an attempt, in a word. -/
def doublingsWord (attempt : UInt32) : UInt32 := min (if 1 ≤ attempt then attempt - 1 else 0) 31

/-- The delay before an attempt, in words. -/
def delayWords? (base limit : Duration.Words) (attempt : UInt32) : Option Duration.Words := do
  let factor ← Word.shiftLeft? 1 (doublingsWord attempt)
  let product ← base.scale? factor
  some (product.least limit)

/-- The word holds the number of doublings. -/
theorem toNat_doublingsWord (attempt : UInt32) :
    (doublingsWord attempt).toNat = min (attempt.toNat - 1) doublings := by
  have hmin : ∀ n : UInt32, (min n 31).toNat = min n.toNat 31 := by
    intro n
    show (if n ≤ 31 then n else 31).toNat = _
    split
    · next h => exact (Nat.min_eq_left h).symm
    · next h => exact (Nat.min_eq_right (Nat.le_of_not_le h)).symm
  rw [doublingsWord, hmin, doublings]
  split
  · next h => rw [UInt32.toNat_sub_of_le _ _ h, UInt32.toNat_one]
  · next h =>
    have hzero : attempt.toNat < 1 := Nat.lt_of_not_le h
    rw [UInt32.toNat_zero]
    omega

/-- No operation of a machine overflows, and what comes of them is the delay. -/
theorem delayWords?_words (b : Backoff) (attempt : UInt32) :
    delayWords? b.base.words b.limit.words attempt = some (b.delay attempt.toNat).words := by
  have hcount := toNat_doublingsWord attempt
  have hsmall : (doublingsWord attempt).toNat < 32 := by
    rw [hcount, doublings]
    omega
  have hfactor : (UInt32.ofNat (2 ^ (doublingsWord attempt).toNat)).toNat =
      2 ^ min (attempt.toNat - 1) doublings := by
    rw [UInt32.toNat_ofNat_of_lt' (Nat.pow_lt_pow_right (by decide) hsmall), hcount]
  simp only [delayWords?, Word.shiftLeft?_one hsmall, Option.bind_eq_bind, Option.bind_some,
    Duration.scale?_words, Duration.least_words, hfactor]
  rfl

variable (b : Backoff) (attempt : Nat)

/-- The greatest duration does not show in a delay, since no limit is greater. -/
theorem nanos_delay : (b.delay attempt).nanos =
    min (b.base.nanos * 2 ^ min (attempt - 1) doublings) b.limit.nanos := by
  have hlimit := b.limit.nanos_le_max
  have hscaled : (b.base.scale (Nat.pow 2 (min (attempt - 1) doublings))).nanos =
      min (b.base.nanos * 2 ^ min (attempt - 1) doublings) Duration.max.nanos :=
    Duration.nanos_ofNanos _
  rw [delay, Duration.nanos_min, hscaled]
  omega

theorem delay_le : b.delay attempt ≤ b.limit := by
  show (b.delay attempt).nanos ≤ b.limit.nanos
  rw [nanos_delay]
  exact Nat.min_le_right ..

variable {attempt} in
/-- A later attempt waits no shorter. -/
theorem delay_mono {later : Nat} (h : attempt ≤ later) : b.delay attempt ≤ b.delay later := by
  have hcount : min (attempt - 1) doublings ≤ min (later - 1) doublings := by omega
  have hpow : 2 ^ min (attempt - 1) doublings ≤ 2 ^ min (later - 1) doublings :=
    Nat.pow_le_pow_right (by decide) hcount
  show (b.delay attempt).nanos ≤ (b.delay later).nanos
  rw [nanos_delay, nanos_delay]
  exact min_le_min_right _ (Nat.mul_le_mul_left _ hpow)

/-- A limit that is reached within the doublings cuts what they would yield without end. -/
theorem nanos_delay_of_limit_le (h : b.limit.nanos ≤ b.base.nanos * 2 ^ doublings) :
    (b.delay attempt).nanos = min (b.base.nanos * 2 ^ (attempt - 1)) b.limit.nanos := by
  rw [nanos_delay]
  by_cases hcount : attempt - 1 ≤ doublings
  · rw [Nat.min_eq_left hcount]
  · have hpow : 2 ^ doublings ≤ 2 ^ (attempt - 1) :=
      Nat.pow_le_pow_right (by decide) (Nat.le_of_not_le hcount)
    rw [Nat.min_eq_right (Nat.le_of_not_le hcount), Nat.min_eq_right h,
      Nat.min_eq_right (h.trans (Nat.mul_le_mul_left _ hpow))]

/-- A machine computes every delay without an overflow.  The delays do not exceed the limit and do
not fall from one attempt to a later one, and if the limit is reached within the doublings, they
double exactly up to it. -/
theorem delay_doubles (b : Backoff) (attempt : UInt32) :
    delayWords? (Duration.equivWords b.base) (Duration.equivWords b.limit) attempt =
      some (Duration.equivWords (b.delay attempt.toNat)) ∧
    b.delay attempt.toNat ≤ b.limit ∧
    (∀ later : UInt32, attempt ≤ later → b.delay attempt.toNat ≤ b.delay later.toNat) ∧
    (b.limit.nanos ≤ b.base.nanos * 2 ^ 31 → 1 ≤ attempt →
      (b.delay attempt.toNat).nanos =
        min (b.base.nanos * 2 ^ (attempt.toNat - 1)) b.limit.nanos) := by
  refine ⟨b.delayWords?_words attempt, b.delay_le _, ?_, ?_⟩
  · intro later h
    exact b.delay_mono h
  · intro h _
    exact b.nanos_delay_of_limit_le _ h

/-- Nanoseconds that are carried, and then seconds that do not fit any more. -/
theorem delay_doubles_long :
    let b : Backoff := ⟨.ofNanos (2 ^ 40 * Duration.perSecond + 999_999_999), .max⟩
    b.limit.nanos ≤ b.base.nanos * 2 ^ 31 ∧
    delayWords? (Duration.equivWords b.base) (Duration.equivWords b.limit) 24 =
      some (Duration.equivWords (b.delay 24)) ∧
    (b.delay 24).nanos = (2 ^ 63 + 2 ^ 23) * Duration.perSecond - 2 ^ 23 ∧
    (b.delay 40).nanos = Duration.max.nanos ∧
    b.delay 24 ≤ b.delay 0xFFFF_FFFF ∧ b.delay 0xFFFF_FFFF ≤ b.limit := by
  intro b
  have hreached : b.limit.nanos ≤ b.base.nanos * 2 ^ 31 := by decide
  obtain ⟨hwords, -, hmono, hexact⟩ := b.delay_doubles 24
  obtain ⟨-, -, -, hbeyond⟩ := b.delay_doubles 40
  obtain ⟨-, hlimit, -, -⟩ := b.delay_doubles 0xFFFF_FFFF
  refine ⟨hreached, hwords, ?_, ?_, hmono 0xFFFF_FFFF (by decide), hlimit⟩
  · exact (hexact hreached (by decide)).trans (by decide)
  · exact (hbeyond hreached (by decide)).trans (by decide)

end Backoff

end ConnectorKeeper
