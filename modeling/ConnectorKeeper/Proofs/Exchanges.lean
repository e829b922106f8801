import ConnectorKeeper.Proofs.Questions

/-!
# Exchanges

A run of a program, as its surroundings see it, is a list of exchanges: its
questions in their order, each with its answer.

*Traces.*  `p.Trace w a` says that `p` can have the exchanges `w` and end with
`a`.  Where programs answer its questions, `Carries answer w v` says that they
exchange `v` while it exchanges `w`.

*Rules.*  What may be asked can depend on the exchanges before.  `p.Obeys rule
ending past` is shown by going through the program, and holds for each place of
each trace (`Obeys.rule_of_trace`).

*Assurance.*  In surroundings with a state, `p.Ensures answer s post` says that
`p` is never left without an answer and ends as `post` demands, whatever the
answers are.  Its exchanges are then answers of the surroundings, one after the
other (`Ensures.exchanged`).
-/

namespace ConnectorKeeper

namespace Program

variable {Ask Ask' : Type} {Reply : Ask → Type} {Reply' : Ask' → Type} {S α β : Type}

/-- A question with its answer. -/
abbrev Exchange (Reply : Ask → Type) : Type := (q : Ask) × Reply q

/-! ## Traces -/

/-- The program can have the exchanges and end with the result. -/
inductive Trace : Program Ask Reply α → List (Exchange Reply) → α → Prop
  | done (a : α) : Trace (.done a) [] a
  | ask {q : Ask} {next : Reply q → Program Ask Reply α} {w : List (Exchange Reply)} {a : α}
      (r : Reply q) (h : Trace (next r) w a) : Trace (.ask q next) (⟨q, r⟩ :: w) a

@[simp] theorem trace_done_iff {a b : α} {w : List (Exchange Reply)} :
    (Program.done a : Program Ask Reply α).Trace w b ↔ w = [] ∧ b = a := by
  constructor
  · intro h
    cases h with
    | done => exact ⟨rfl, rfl⟩
  · rintro ⟨rfl, rfl⟩
    exact .done _

theorem trace_ask_iff {q : Ask} {next : Reply q → Program Ask Reply α}
    {w : List (Exchange Reply)} {a : α} :
    (Program.ask q next).Trace w a ↔ ∃ r w', w = ⟨q, r⟩ :: w' ∧ (next r).Trace w' a := by
  constructor
  · intro h
    cases h with
    | ask r h => exact ⟨r, _, rfl, h⟩
  · rintro ⟨r, w', rfl, h⟩
    exact .ask r h

/-- The exchanges of one program after another are those of the first, then of the second.
-/
theorem trace_bind_iff {p : Program Ask Reply α} {f : α → Program Ask Reply β}
    {w : List (Exchange Reply)} {b : β} :
    (p >>= f).Trace w b ↔ ∃ a w₁ w₂, p.Trace w₁ a ∧ (f a).Trace w₂ b ∧ w = w₁ ++ w₂ := by
  induction p generalizing w with
  | done a =>
    constructor
    · intro h
      exact ⟨a, [], w, .done a, h, rfl⟩
    · rintro ⟨_, _, w₂, ⟨⟩, h, rfl⟩
      exact h
  | ask q next ih =>
    rw [ask_bind, trace_ask_iff]
    constructor
    · rintro ⟨r, w', rfl, h⟩
      obtain ⟨a, w₁, w₂, ha, hb, rfl⟩ := (ih r).1 h
      exact ⟨a, _, w₂, .ask r ha, hb, rfl⟩
    · rintro ⟨a, w₁, w₂, ha, hb, rfl⟩
      obtain ⟨r, w', rfl, hrest⟩ := trace_ask_iff.1 ha
      exact ⟨r, w' ++ w₂, rfl, (ih r).2 ⟨a, w', w₂, hrest, hb, rfl⟩⟩

theorem mayEnd_of_trace {p : Program Ask Reply α} {w : List (Exchange Reply)} {a : α}
    (h : p.Trace w a) : p.MayEnd a := by
  induction h with
  | done a => exact .done a
  | ask r _ ih => exact .after r ih

/-- What was exchanged was asked. -/
theorem mayAsk_of_trace {p : Program Ask Reply α} {w : List (Exchange Reply)} {a : α}
    (h : p.Trace w a) {x : Exchange Reply} (hx : x ∈ w) : p.MayAsk x.1 := by
  induction h with
  | done a => cases hx
  | ask r _ ih =>
    cases hx with
    | head => exact .here _ _
    | tail _ hx => exact .after r (ih hx)

/-- What answers the questions of exchanges may exchange itself meanwhile. -/
inductive Carries (answer : (q : Ask) → Program Ask' Reply' (Reply q)) :
    List (Exchange Reply) → List (Exchange Reply') → Prop
  | nil : Carries answer [] []
  | cons {q : Ask} {r : Reply q} {w : List (Exchange Reply)} {v v' : List (Exchange Reply')}
      (hr : (answer q).Trace v r) (h : Carries answer w v') :
      Carries answer (⟨q, r⟩ :: w) (v ++ v')

theorem carries_cons_iff {answer : (q : Ask) → Program Ask' Reply' (Reply q)} {q : Ask}
    {r : Reply q} {w : List (Exchange Reply)} {v : List (Exchange Reply')} :
    Carries answer (⟨q, r⟩ :: w) v ↔
      ∃ v₁ v₂, (answer q).Trace v₁ r ∧ Carries answer w v₂ ∧ v = v₁ ++ v₂ := by
  constructor
  · intro h
    cases h with
    | cons hr h => exact ⟨_, _, hr, h, rfl⟩
  · rintro ⟨v₁, v₂, hr, h, rfl⟩
    exact .cons hr h

theorem carries_nil_iff {answer : (q : Ask) → Program Ask' Reply' (Reply q)}
    {v : List (Exchange Reply')} : Carries answer [] v ↔ v = [] := by
  constructor
  · intro h
    cases h with
    | nil => rfl
  · rintro rfl
    exact .nil

/-- What carries exchanges can be split where they are. -/
theorem carries_append_iff {answer : (q : Ask) → Program Ask' Reply' (Reply q)}
    {w w' : List (Exchange Reply)} {v : List (Exchange Reply')} :
    Carries answer (w ++ w') v ↔
      ∃ v₁ v₂, Carries answer w v₁ ∧ Carries answer w' v₂ ∧ v = v₁ ++ v₂ := by
  induction w generalizing v with
  | nil =>
    constructor
    · intro h
      exact ⟨[], v, .nil, h, rfl⟩
    · rintro ⟨v₁, v₂, h₁, h₂, rfl⟩
      obtain rfl := carries_nil_iff.1 h₁
      exact h₂
  | cons x w ih =>
    rw [List.cons_append, carries_cons_iff]
    constructor
    · rintro ⟨v₀, v', hx, h, rfl⟩
      obtain ⟨v₁, v₂, h₁, h₂, rfl⟩ := ih.1 h
      exact ⟨v₀ ++ v₁, v₂, .cons hx h₁, h₂, (List.append_assoc ..).symm⟩
    · rintro ⟨v₁, v₂, h₁, h₂, rfl⟩
      obtain ⟨v₀, v₁, hx, hw, rfl⟩ := carries_cons_iff.1 h₁
      exact ⟨v₀, v₁ ++ v₂, hx, ih.2 ⟨v₁, v₂, hw, h₂, rfl⟩, List.append_assoc ..⟩

/-- Each exchange that carries others belongs to the answer of one of them. -/
theorem exists_mem_of_carries {answer : (q : Ask) → Program Ask' Reply' (Reply q)}
    {w : List (Exchange Reply)} {v : List (Exchange Reply')} (h : Carries answer w v)
    {x : Exchange Reply'} (hx : x ∈ v) :
    ∃ y ∈ w, ∃ u, (answer y.1).Trace u y.2 ∧ x ∈ u := by
  induction h with
  | nil => cases hx
  | cons hr _ ih =>
    obtain hx | hx := List.mem_append.1 hx
    · exact ⟨_, List.mem_cons_self, _, hr, hx⟩
    · obtain ⟨y, hy, hu⟩ := ih hx
      exact ⟨y, List.mem_cons_of_mem _ hy, hu⟩

/-- A program whose questions are answered by programs exchanges what these exchange. -/
theorem trace_run_iff {answer : (q : Ask) → Program Ask' Reply' (Reply q)}
    {p : Program Ask Reply α} {v : List (Exchange Reply')} {a : α} :
    (p.run answer).Trace v a ↔ ∃ w, p.Trace w a ∧ Carries answer w v := by
  induction p generalizing v with
  | done b =>
    rw [run, pure_eq_done, trace_done_iff]
    constructor
    · rintro ⟨rfl, rfl⟩
      exact ⟨[], .done a, .nil⟩
    · rintro ⟨w, h, hv⟩
      obtain ⟨rfl, rfl⟩ := trace_done_iff.1 h
      exact ⟨carries_nil_iff.1 hv, rfl⟩
  | ask q next ih =>
    rw [run, trace_bind_iff]
    constructor
    · rintro ⟨r, v₁, v₂, hr, hnext, rfl⟩
      obtain ⟨w, hw, hv⟩ := (ih r).1 hnext
      exact ⟨_, .ask r hw, .cons hr hv⟩
    · rintro ⟨w, h, hv⟩
      obtain ⟨r, w, rfl, hw⟩ := trace_ask_iff.1 h
      obtain ⟨v₁, v₂, hr, hrest, rfl⟩ := carries_cons_iff.1 hv
      exact ⟨r, v₁, v₂, hr, (ih r).2 ⟨w, hw, hrest⟩, rfl⟩

/-- The exchanges and the result of a program whose questions are always answered alike. -/
def transcript (answer : (q : Ask) → Reply q) : Program Ask Reply α → List (Exchange Reply) × α
  | .done a => ([], a)
  | .ask q next =>
      let rest := transcript answer (next (answer q))
      (⟨q, answer q⟩ :: rest.1, rest.2)

/-- Answers that are a function lead through a program. -/
theorem trace_transcript (answer : (q : Ask) → Reply q) (p : Program Ask Reply α) :
    p.Trace (p.transcript answer).1 (p.transcript answer).2 := by
  induction p with
  | done a => exact .done a
  | ask q next ih => exact .ask _ (ih _)

/-! ## Rules -/

/-- Each question may be asked after the exchanges before it, and each result come
after all exchanges. -/
def Obeys (rule : List (Exchange Reply) → Ask → Prop)
    (ending : List (Exchange Reply) → α → Prop) :
    List (Exchange Reply) → Program Ask Reply α → Prop
  | past, .done a => ending past a
  | past, .ask q next => rule past q ∧ ∀ r, Obeys rule ending (past ++ [⟨q, r⟩]) (next r)

section Obeys

variable {rule : List (Exchange Reply) → Ask → Prop} {ending : List (Exchange Reply) → α → Prop}
  {past : List (Exchange Reply)}

/-- One program after another obeys a rule if the first does, and ends where the second
does. -/
theorem obeys_bind_iff {p : Program Ask Reply β} {f : β → Program Ask Reply α} :
    Obeys rule ending past (p >>= f) ↔
      Obeys rule (fun past b => Obeys rule ending past (f b)) past p := by
  induction p generalizing past with
  | done b => exact Iff.rfl
  | ask q next ih =>
    rw [ask_bind]
    simp only [Obeys, ih]

theorem Obeys.mono {ending' : List (Exchange Reply) → α → Prop} {p : Program Ask Reply α}
    (h : Obeys rule ending past p) (hending : ∀ past a, ending past a → ending' past a) :
    Obeys rule ending' past p := by
  induction p generalizing past with
  | done a => exact hending _ _ h
  | ask q next ih =>
    refine ⟨h.1, ?_⟩
    intro r
    exact ih r (h.2 r)

/-- The result fits the exchanges that led to it. -/
theorem Obeys.ending_of_trace {p : Program Ask Reply α} {w : List (Exchange Reply)} {a : α}
    (h : Obeys rule ending past p) (hw : p.Trace w a) : ending (past ++ w) a := by
  induction hw generalizing past with
  | done a =>
    rw [List.append_nil]
    exact h
  | ask r _ ih =>
    have hlast := ih (h.2 r)
    simpa using hlast

/-- Whatever was asked was allowed by what had been exchanged before. -/
theorem Obeys.rule_of_trace {p : Program Ask Reply α} {w before after : List (Exchange Reply)}
    {a : α} {q : Ask} {r : Reply q} (h : Obeys rule ending past p) (hw : p.Trace w a)
    (hsplit : w = before ++ ⟨q, r⟩ :: after) : rule (past ++ before) q := by
  induction hw generalizing past before with
  | done a => simp at hsplit
  | ask r' _ ih =>
    cases before with
    | nil =>
      obtain ⟨heq, -⟩ := List.cons.inj hsplit
      cases heq
      simpa using h.1
    | cons x before =>
      obtain ⟨rfl, htail⟩ := List.cons.inj hsplit
      have hrest := ih (h.2 r') htail
      simpa using hrest

end Obeys

section Run

variable {rule : List (Exchange Reply') → Ask' → Prop} {ending : List (Exchange Reply') → α → Prop}
  {past : List (Exchange Reply')} {answer : (q : Ask) → Program Ask' Reply' (Reply q)}

theorem obeys_run_bind_iff {p : Program Ask Reply β} {f : β → Program Ask Reply α} :
    Obeys rule ending past ((p >>= f).run answer) ↔
      Obeys rule (fun past b => Obeys rule ending past ((f b).run answer)) past
        (p.run answer) := by
  induction p generalizing past with
  | done b => exact Iff.rfl
  | ask q next ih =>
    rw [ask_bind, run, run, obeys_bind_iff, obeys_bind_iff]
    simp only [ih]

/-- A question obeys the rule as its answer does, if what follows does. -/
theorem Obeys.run_ask {q : Ask} {next : Reply q → Program Ask Reply α}
    {middle : List (Exchange Reply') → Reply q → Prop} (h : Obeys rule middle past (answer q))
    (hnext : ∀ past r, middle past r → Obeys rule ending past ((next r).run answer)) :
    Obeys rule ending past ((Program.ask q next).run answer) :=
  obeys_bind_iff.2 (h.mono hnext)

/-- One program after another. -/
theorem Obeys.run_bind {p : Program Ask Reply β} {f : β → Program Ask Reply α}
    {middle : List (Exchange Reply') → β → Prop} (h : Obeys rule middle past (p.run answer))
    (hnext : ∀ past b, middle past b → Obeys rule ending past ((f b).run answer)) :
    Obeys rule ending past ((p >>= f).run answer) :=
  obeys_run_bind_iff.2 (h.mono hnext)

end Run

/-! ## Assurance -/

/-- The program is never left without an answer, and whatever the answers are, its
exchanges, the last state and the result are as demanded. -/
def Ensures (answer : S → (q : Ask) → Reply q → S → Prop) :
    Program Ask Reply α → S → (List (Exchange Reply) → S → α → Prop) → Prop
  | .done a, s, post => post [] s a
  | .ask q next, s, post => (∃ r s', answer s q r s') ∧ ∀ r s', answer s q r s' →
      Ensures answer (next r) s' fun w => post (⟨q, r⟩ :: w)

/-- Exchanges whose answers are given in turn, the state at each being what the one
before left. -/
inductive Exchanged (answer : S → (q : Ask) → Reply q → S → Prop) :
    S → List (Exchange Reply) → S → Prop
  | nil (s : S) : Exchanged answer s [] s
  | cons {s s' s'' : S} {q : Ask} {r : Reply q} {w : List (Exchange Reply)}
      (h : answer s q r s') (hrest : Exchanged answer s' w s'') :
      Exchanged answer s (⟨q, r⟩ :: w) s''

section Ensures

variable {answer : S → (q : Ask) → Reply q → S → Prop} {s : S}

/-- What ensures more ensures less. -/
theorem Ensures.mono {p : Program Ask Reply α} {post post' : List (Exchange Reply) → S → α → Prop}
    (h : p.Ensures answer s post) (hpost : ∀ w s a, post w s a → post' w s a) :
    p.Ensures answer s post' := by
  induction p generalizing s post post' with
  | done a => exact hpost _ _ _ h
  | ask q next ih =>
    refine ⟨h.1, ?_⟩
    intro r s' hr
    exact ih r (h.2 r s' hr) fun w s a => hpost _ s a

/-- One program after another ensures what the second does wherever the first ends. -/
theorem ensures_bind_iff {p : Program Ask Reply α} {f : α → Program Ask Reply β}
    {post : List (Exchange Reply) → S → β → Prop} :
    (p >>= f).Ensures answer s post ↔
      p.Ensures answer s fun w s a => (f a).Ensures answer s fun w' => post (w ++ w') := by
  induction p generalizing s post with
  | done a => exact Iff.rfl
  | ask q next ih =>
    rw [ask_bind]
    simp only [Ensures, ih, List.cons_append]

/-- What is exchanged are answers of the surroundings. -/
theorem Ensures.exchanged {p : Program Ask Reply α} {post : List (Exchange Reply) → S → α → Prop}
    (h : p.Ensures answer s post) :
    p.Ensures answer s fun w s' a => post w s' a ∧ Exchanged answer s w s' := by
  induction p generalizing s post with
  | done a => exact ⟨h, .nil s⟩
  | ask q next ih =>
    refine ⟨h.1, ?_⟩
    intro r s' hr
    refine (ih r (h.2 r s' hr)).mono ?_
    rintro w s'' a ⟨hpost, hexchanged⟩
    exact ⟨hpost, .cons hr hexchanged⟩

/-- What is exchanged is a run of the program. -/
theorem Ensures.traced {p : Program Ask Reply α} {post : List (Exchange Reply) → S → α → Prop}
    (h : p.Ensures answer s post) :
    p.Ensures answer s fun w s' a => post w s' a ∧ p.Trace w a := by
  induction p generalizing s post with
  | done a => exact ⟨h, .done a⟩
  | ask q next ih =>
    refine ⟨h.1, ?_⟩
    intro r s' hr
    refine (ih r (h.2 r s' hr)).mono ?_
    rintro w s'' a ⟨hpost, htrace⟩
    exact ⟨hpost, .ask r htrace⟩

theorem exchanged_cons_iff {q : Ask} {r : Reply q} {w : List (Exchange Reply)} {s'' : S} :
    Exchanged answer s (⟨q, r⟩ :: w) s'' ↔ ∃ s', answer s q r s' ∧ Exchanged answer s' w s'' := by
  constructor
  · intro h
    cases h with
    | cons h hrest => exact ⟨_, h, hrest⟩
  · rintro ⟨s', h, hrest⟩
    exact .cons h hrest

/-- Exchanges in turn lead through a state between them. -/
theorem exchanged_append_iff {w w' : List (Exchange Reply)} {s'' : S} :
    Exchanged answer s (w ++ w') s'' ↔
      ∃ s', Exchanged answer s w s' ∧ Exchanged answer s' w' s'' := by
  induction w generalizing s with
  | nil =>
    constructor
    · intro h
      exact ⟨s, .nil s, h⟩
    · rintro ⟨s', h, h'⟩
      cases h with
      | nil => exact h'
  | cons x w ih =>
    rw [List.cons_append, exchanged_cons_iff]
    constructor
    · rintro ⟨s₁, hx, h⟩
      obtain ⟨s', hw, hw'⟩ := ih.1 h
      exact ⟨s', .cons hx hw, hw'⟩
    · rintro ⟨s', hw, hw'⟩
      obtain ⟨s₁, hx, hw⟩ := exchanged_cons_iff.1 hw
      exact ⟨s₁, hx, ih.2 ⟨s', hw, hw'⟩⟩

/-- There is a run. -/
theorem Ensures.exists_run {p : Program Ask Reply α} {post : List (Exchange Reply) → S → α → Prop}
    (h : p.Ensures answer s post) :
    ∃ w s' a, p.Trace w a ∧ Exchanged answer s w s' ∧ post w s' a := by
  induction p generalizing s post with
  | done a => exact ⟨[], s, a, .done a, .nil s, h⟩
  | ask q next ih =>
    obtain ⟨⟨r, s₁, hr⟩, hnext⟩ := h
    obtain ⟨w, s', a, htrace, hw, hpost⟩ := ih r (hnext r s₁ hr)
    exact ⟨⟨q, r⟩ :: w, s', a, .ask r htrace, .cons hr hw, hpost⟩

/-- Every run in the surroundings is as demanded. -/
theorem Ensures.of_trace {p : Program Ask Reply α} {post : List (Exchange Reply) → S → α → Prop}
    {w : List (Exchange Reply)} {s' : S} {a : α} (h : p.Ensures answer s post)
    (htrace : p.Trace w a) (hw : Exchanged answer s w s') : post w s' a := by
  induction htrace generalizing s post with
  | done a =>
    cases hw with
    | nil => exact h
  | ask r _ ih =>
    obtain ⟨s₁, hr, hrest⟩ := exchanged_cons_iff.1 hw
    exact ih (h.2 r s₁ hr) hrest

end Ensures

end Program

end ConnectorKeeper
