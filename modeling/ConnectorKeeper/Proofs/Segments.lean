import ConnectorKeeper.Proofs.Percent
import ConnectorKeeper.Url.Segments

/-!
# Appending segments

Where a resource of a given name lies below a base URL.  A plain name, one that
is no dot segment and holds no tab or line end, becomes one segment that stands
for exactly that name (`push_plain`, `decode_segment`).  Any other name does
not: a dot segment appends nothing, and an ignored character is dropped.
`foldl_push_iff` says so of the name together with what follows it.

An encoded segment that acts as a dot segment could only stand for one or two
dots (`decode_of_isSingleDot`, `decode_of_isDoubleDot`), which are not encoded.
-/

namespace ConnectorKeeper.Url

open Text.Percent (encode decode decode_encode)

/-! ## Dot segments -/

/-- A character of a lower-case text was that character or its upper case. -/
theorem eq_or_of_toLower_eq {c d : Char} (h : c.toLower = d) :
    c = d ∨ (65 ≤ c.toNat ∧ c.toNat + 32 = d.toNat) := by
  unfold Char.toLower at h
  split at h
  · next hc =>
    right
    subst h
    have hlow : 65 ≤ c.val.toNat := hc.1
    have hhigh : c.val.toNat ≤ 90 := hc.2
    refine ⟨hlow, ?_⟩
    show c.val.toNat + 32 = (c.val + ('a'.val - 'A'.val)).toNat
    rw [UInt32.toNat_add]
    show _ = (c.val.toNat + 32) % 4294967296
    omega
  · exact .inl h

/-- A character below the lower-case letters was itself before. -/
theorem eq_of_toLower_eq {c d : Char} (hd : d.toNat < 97) (h : c.toLower = d) : c = d := by
  rcases eq_or_of_toLower_eq h with h | ⟨hlow, h⟩
  · exact h
  · omega

theorem eq_of_toLower_eq_e {c : Char} (h : c.toLower = 'e') : c = 'e' ∨ c = 'E' := by
  rcases eq_or_of_toLower_eq h with h | ⟨-, h⟩
  · exact .inl h
  · refine .inr (Char.toNat_inj.1 ?_)
    rw [show 'e'.toNat = 101 from rfl] at h
    rw [show 'E'.toNat = 69 from rfl]
    omega

/-- A text in lower case, as characters. -/
theorem map_toLower_of_eq {s : List Char} {t : String} (h : (String.ofList s).toLower = t) :
    s.map Char.toLower = t.toList := by
  rw [← h]
  simp [String.toLower]

/-- Reading a dot that is encoded, in either case. -/
theorem decode_dot {a b c : Char} (ha : a.toLower = '%') (hb : b.toLower = '2')
    (hc : c.toLower = 'e') (rest : List Char) :
    decode (a :: b :: c :: rest) = 0x2E :: decode rest := by
  rw [eq_of_toLower_eq (by decide) ha, eq_of_toLower_eq (by decide) hb]
  rcases eq_of_toLower_eq_e hc with rfl | rfl <;> rfl

/-- Reading a dot that stands bare. -/
theorem decode_bareDot {c : Char} (h : c.toLower = '.') (rest : List Char) :
    decode (c :: rest) = 0x2E :: decode rest := by
  rw [eq_of_toLower_eq (by decide) h, Text.Percent.decode_cons_of_ne (by decide)]
  rfl

/-- A segment that acts as a dot stands for a dot. -/
theorem decode_of_isSingleDot {s : List Char} (h : isSingleDot s = true) :
    decode s = Text.utf8 "." := by
  simp only [isSingleDot, Bool.or_eq_true, decide_eq_true_eq] at h
  rcases h with rfl | h
  · rfl
  · have hs := map_toLower_of_eq h
    simp only [String.reduceToList, List.map_eq_cons_iff, List.map_eq_nil_iff] at hs
    obtain ⟨a, _, rfl, ha, b, _, rfl, hb, c, _, rfl, hc, rfl⟩ := hs
    rw [decode_dot ha hb hc]
    rfl

/-- A segment that acts as two dots stands for two dots. -/
theorem decode_of_isDoubleDot {s : List Char} (h : isDoubleDot s = true) :
    decode s = Text.utf8 ".." := by
  simp only [isDoubleDot, Bool.or_eq_true, decide_eq_true_eq] at h
  rcases h with ((h | h) | h) | h
  all_goals
    have hs := map_toLower_of_eq h
    simp only [String.reduceToList, List.map_eq_cons_iff, List.map_eq_nil_iff] at hs
  · obtain ⟨a, _, rfl, ha, b, _, rfl, hb, rfl⟩ := hs
    rw [decode_bareDot ha, decode_bareDot hb]
    rfl
  · obtain ⟨a, _, rfl, ha, b, _, rfl, hb, c, _, rfl, hc, d, _, rfl, hd, e, _, rfl, he, f, _, rfl,
      hf, rfl⟩ := hs
    rw [decode_dot ha hb hc, decode_dot hd he hf]
    rfl
  · obtain ⟨a, _, rfl, ha, b, _, rfl, hb, c, _, rfl, hc, d, _, rfl, hd, rfl⟩ := hs
    rw [decode_dot ha hb hc, decode_bareDot hd]
    rfl
  · obtain ⟨a, _, rfl, ha, b, _, rfl, hb, c, _, rfl, hc, d, _, rfl, hd, rfl⟩ := hs
    rw [decode_bareDot ha, decode_dot hb hc hd]
    rfl

/-! ## One segment -/

/-- A name that one segment can stand for. -/
def Plain (name : String) : Prop :=
  name ≠ "." ∧ name ≠ ".." ∧ ∀ c ∈ name.toList, isIgnored c = false

instance (name : String) : Decidable (Plain name) :=
  decidable_of_iff (name ≠ "." ∧ name ≠ ".." ∧ name.toList.all (!isIgnored ·) = true)
    (by simp [Plain])

/-- The segment of a plain name. -/
def segment (special : Bool) (name : String) : String :=
  String.ofList (encode (segmentSet special) name.toList)

/-- The segments below which resources of a base lie. -/
def stem (base : Url) : List String := openEnd (popEmpty base.path)

theorem segmentSet_percent (special : Bool) : segmentSet special '%' = true := rfl

theorem segmentSet_slash (special : Bool) : segmentSet special '/' = true := rfl

theorem segmentSet_question (special : Bool) : segmentSet special '?' = true := rfl

/-- A segment stands for its name. -/
theorem decode_segment (special : Bool) (name : String) :
    decode (segment special name).toList = Text.utf8 name := by
  rw [segment, String.toList_ofList, decode_encode (segmentSet_percent special), Text.utf8]

/-- What an appended text that is no dot segment does to a path: the kept
characters decide whether it still acts as one. -/
theorem push_of_ne {special : Bool} {path : List String} {name : String} (h : name ≠ ".")
    (h' : name ≠ "..") :
    push special path name =
      let kept := String.ofList (name.toList.filter (!isIgnored ·))
      if kept = ".." then (openEnd path).dropLast ++ [""]
      else if kept = "." then openEnd path ++ [""]
      else openEnd path ++ [segment special kept] := by
  have hkept (s : List Char) :
      decode (encode (segmentSet special) s) = Text.utf8 (String.ofList s) := by
    rw [decode_encode (segmentSet_percent special), Text.utf8, String.toList_ofList]
  have hdouble (s : List Char) :
      isDoubleDot (encode (segmentSet special) s) = true ↔ String.ofList s = ".." := by
    constructor
    · intro hs
      exact Text.utf8_inj ((hkept s).symm.trans (decode_of_isDoubleDot hs))
    · intro hs
      rw [← @String.toList_ofList s, hs]
      cases special <;> cbv
  have hsingle (s : List Char) :
      isSingleDot (encode (segmentSet special) s) = true ↔ String.ofList s = "." := by
    constructor
    · intro hs
      exact Text.utf8_inj ((hkept s).symm.trans (decode_of_isSingleDot hs))
    · intro hs
      rw [← @String.toList_ofList s, hs]
      cases special <;> cbv
  simp only [push, h, h', if_false, Bool.or_false, decide_false, hdouble, hsingle, segment,
    String.toList_ofList, Bool.false_eq_true]

/-- A plain name becomes one segment. -/
theorem push_plain {special : Bool} {path : List String} {name : String} (h : Plain name) :
    push special path name = openEnd path ++ [segment special name] := by
  obtain ⟨hdot, hdots, hkept⟩ := h
  have hall : name.toList.filter (!isIgnored ·) = name.toList :=
    List.filter_eq_self.2 fun c hc => by rw [hkept c hc]; rfl
  rw [push_of_ne hdot hdots, hall, String.ofList_toList]
  simp only [hdot, hdots, if_false]

/-- A segment that names something else than an empty path is kept by the next one. -/
theorem openEnd_append {path : List String} {s : String} (h : path ≠ [] ∨ s ≠ "") :
    openEnd (path ++ [s]) = path ++ [s] := by
  refine if_neg fun heq => ?_
  obtain ⟨hpath, hs⟩ : path = [] ∧ s = "" := by simpa [List.append_eq_singleton_iff] using heq
  exact h.elim (· hpath) (· hs)

theorem length_push_le (special : Bool) (path : List String) (name : String) :
    (push special path name).length ≤ path.length + 1 := by
  have hopen : (openEnd path).length ≤ path.length := by
    unfold openEnd
    split <;> simp
  simp only [push]
  repeat' split
  all_goals try simp only [List.length_append, List.length_dropLast, List.length_singleton]
  all_goals omega

/-! ## What follows a name -/

/-- A word that is its own segment, whatever the scheme. -/
def Fixed (word : String) : Prop := Plain word ∧ ∀ special, segment special word = word

theorem fixed_connectors : Fixed "connectors" := ⟨by decide +kernel, by decide +kernel⟩

theorem fixed_config : Fixed "config" := ⟨by decide +kernel, by decide +kernel⟩

theorem fixed_status : Fixed "status" := ⟨by decide +kernel, by decide +kernel⟩

theorem fixed_plugins : Fixed "connector-plugins" := ⟨by decide +kernel, by decide +kernel⟩

theorem fixed_validate : Fixed "validate" := ⟨by decide +kernel, by decide +kernel⟩

/-- Plain names after a segment become the segments after it. -/
theorem foldl_push_plain {special : Bool} {names : List String} (h : ∀ n ∈ names, Plain n)
    {path : List String} {s : String} (hpath : path ≠ [] ∨ s ≠ "") :
    names.foldl (push special) (path ++ [s]) = path ++ s :: names.map (segment special) := by
  induction names generalizing path s with
  | nil => rfl
  | cons n names ih =>
    obtain ⟨hn, hnames⟩ := List.forall_mem_cons.1 h
    rw [List.foldl_cons, push_plain hn, openEnd_append hpath, ih hnames (.inl (by simp)),
      List.append_assoc, List.singleton_append, List.map_cons]

theorem map_segment_fixed {words : List String} (h : ∀ w ∈ words, Fixed w) (special : Bool) :
    words.map (segment special) = words :=
  (List.map_congr_left fun w hw => (h w hw).2 special).trans (List.map_id words)

theorem foldl_push_fixed {special : Bool} {words : List String} (h : ∀ w ∈ words, Fixed w)
    {path : List String} {s : String} (hpath : path ≠ []) :
    words.foldl (push special) (path ++ [s]) = path ++ s :: words := by
  rw [foldl_push_plain (fun w hw => (h w hw).1) (.inl hpath), map_segment_fixed h]

theorem length_foldl_push_le (special : Bool) (words : List String) (path : List String) :
    (words.foldl (push special) path).length ≤ path.length + words.length := by
  induction words generalizing path with
  | nil => exact Nat.le_refl _
  | cons w words ih =>
    have hstep := length_push_le special path w
    have hrest := ih (push special path w)
    rw [List.foldl_cons, List.length_cons]
    omega

/-- Plain names below a base, the first of them a word of its own. -/
theorem path_below {base : Url} {word : String} {names : List String} (hword : Fixed word)
    (hne : word ≠ "") (hnames : ∀ n ∈ names, Plain n) :
    (base.below (word :: names)).path =
      base.stem ++ word :: names.map (segment (isSpecial base.scheme)) := by
  rw [below, List.foldl_cons, push_plain hword.1, hword.2, foldl_push_plain hnames (.inr hne), stem]

/-- The segment of a name is all that its path holds between the segments before
and after it exactly if the name is plain. -/
theorem foldl_push_iff {special : Bool} {path : List String} {name : String}
    {words : List String} (hpath : path ≠ []) (hopen : openEnd path = path)
    (hwords : ∀ w ∈ words, Fixed w) :
    (∃ s, (name :: words).foldl (push special) path = path ++ s :: words ∧
      decode s.toList = Text.utf8 name) ↔ Plain name := by
  -- a shorter path has no segment for the name
  have hshort (path' : List String) (hlen : path'.length ≤ path.length) (s : String) :
      words.foldl (push special) path' ≠ path ++ s :: words := by
    intro heq
    have hle := length_foldl_push_le special words path'
    rw [heq, List.length_append, List.length_cons] at hle
    omega
  rw [List.foldl_cons]
  constructor
  · rintro ⟨s, heq, hs⟩
    by_cases hdots : name = "." ∨ name = ".."
    · refine absurd heq (hshort _ (Nat.le_of_eq ?_) s)
      rcases hdots with rfl | rfl <;> rfl
    · obtain ⟨hdot, hdots⟩ := not_or.1 hdots
      -- an appended segment is the one that stands for the name
      have hkept (s' : String) (hs' : push special path name = path ++ [s']) :
          decode s'.toList = Text.utf8 name := by
        rw [hs', foldl_push_fixed hwords hpath, List.append_cancel_left_eq] at heq
        rw [(List.cons.inj heq).1, hs]
      refine ⟨hdot, hdots, fun c hc => ?_⟩
      have hpush := @push_of_ne special path name hdot hdots
      rw [hopen] at hpush
      dsimp only at hpush
      split at hpush
      · rw [hpush] at heq
        refine absurd heq (hshort _ ?_ s)
        have hpos : 0 < path.length := List.length_pos_iff.2 hpath
        simp only [List.length_append, List.length_dropLast, List.length_singleton]
        omega
      · split at hpush
        · have hempty : name = "" := Text.utf8_inj (hkept _ hpush).symm
          simp [hempty] at hc
        · have hfilter := hkept _ hpush
          rw [decode_segment, Text.utf8, String.toList_ofList] at hfilter
          simpa using Text.forall_of_utf8_filter hfilter c hc
  · intro hplain
    refine ⟨segment special name, ?_, decode_segment special name⟩
    rw [push_plain hplain, hopen, foldl_push_fixed hwords hpath]

end ConnectorKeeper.Url
