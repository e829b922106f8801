import ConnectorKeeper.Proofs.Questions

/-!
# Programs in changing surroundings

Surroundings have a state.  They change as they answer a program, and on their
own between its questions.  `Throughout` says that a program, started in a state,
meets its obligations whatever the answers are and whatever happens beside it:
each question is asked only where it may be, each answer keeps an invariant, and
the result is what it should be.

To show it, an assertion is carried along that nothing beside the program can
break (`Terms.Stable`).  Where one assertion serves all questions of a program,
it is enough to look at each kind of question (`Throughout.of_onlyAsks`).

`Exec` is a single run of a program that nothing interrupts.
-/

namespace ConnectorKeeper

open Relation (ReflTransGen)

namespace Program

variable {Ask : Type} {Reply : Ask → Type} {S α β : Type}

/-- How surroundings behave towards a program, and what is demanded of it. -/
structure Terms (Ask : Type) (Reply : Ask → Type) (S : Type) where
  /-- The answers to a question in a state, each with the state after it. -/
  answer : S → (q : Ask) → Reply q → S → Prop
  /-- What may happen at any time. -/
  beside : S → S → Prop
  /-- What has to hold after every answer. -/
  keeps : S → Prop
  /-- What has to hold where a question is asked. -/
  duty : S → Ask → Prop

/-- An assertion that nothing beside a program breaks. -/
def Terms.Stable (t : Terms Ask Reply S) (A : S → Prop) : Prop :=
  ∀ s s', A s → t.beside s s' → A s'

/-- The program meets its obligations from a state on. -/
inductive Throughout (t : Terms Ask Reply S) (post : S → α → Prop) :
    Program Ask Reply α → S → Prop
  /-- The result is as demanded, at any later time. -/
  | done {a : α} {s : S} (h : ∀ s', ReflTransGen t.beside s s' → post s' a) :
      Throughout t post (.done a) s
  /-- The question may be asked at any later time, and the program goes on well
  after any answer. -/
  | ask {q : Ask} {next : Reply q → Program Ask Reply α} {s : S}
      (hduty : ∀ s', ReflTransGen t.beside s s' → t.duty s' q)
      (hkeeps : ∀ s' r s'', ReflTransGen t.beside s s' → t.answer s' q r s'' → t.keeps s'')
      (hnext : ∀ s' r s'', ReflTransGen t.beside s s' → t.answer s' q r s'' →
        Throughout t post (next r) s'') :
      Throughout t post (.ask q next) s

variable {t : Terms Ask Reply S} {post : S → α → Prop} {p : Program Ask Reply α} {s s' : S}

/-- What is stable stays while others act. -/
theorem Terms.Stable.later {A : S → Prop} (hA : t.Stable A) (hs : A s)
    (h : ReflTransGen t.beside s s') : A s' := by
  induction h with
  | refl => exact hs
  | tail _ hstep ih => exact hA _ _ ih hstep

namespace Throughout

/-! ## What follows -/

/-- What happens beside a program does not disturb it. -/
theorem beside (h : Throughout t post p s) (hstep : t.beside s s') : Throughout t post p s' := by
  cases h with
  | done h => exact .done fun s'' hlater => h s'' (hlater.head hstep)
  | ask hduty hkeeps hnext =>
    exact .ask (fun s'' hlater => hduty s'' (hlater.head hstep))
      (fun s'' r s₃ hlater => hkeeps s'' r s₃ (hlater.head hstep))
      (fun s'' r s₃ hlater => hnext s'' r s₃ (hlater.head hstep))

theorem post_of_done {a : α} (h : Throughout t post (.done a) s) : post s a := by
  cases h with
  | done h => exact h s .refl

theorem duty_of_ask {q : Ask} {next : Reply q → Program Ask Reply α}
    (h : Throughout t post (.ask q next) s) : t.duty s q := by
  cases h with
  | ask hduty _ _ => exact hduty s .refl

/-- After an answer the state keeps to the terms, and so does the rest of the program. -/
theorem of_answer {q : Ask} {next : Reply q → Program Ask Reply α} {r : Reply q}
    (h : Throughout t post (.ask q next) s) (hr : t.answer s q r s') :
    t.keeps s' ∧ Throughout t post (next r) s' := by
  cases h with
  | ask _ hkeeps hnext => exact ⟨hkeeps s r s' .refl hr, hnext s r s' .refl hr⟩

/-! ## Showing it -/

/-- A program is done well if what holds is stable and enough. -/
theorem done_of_stable {A : S → Prop} {a : α} (hA : t.Stable A) (hs : A s)
    (hpost : ∀ s, A s → post s a) : Throughout t post (.done a) s :=
  .done fun s' hlater => hpost s' (hA.later hs hlater)

/-- A question may wait where what allows it is stable. -/
theorem ask_of_stable {A : S → Prop} {q : Ask} {next : Reply q → Program Ask Reply α}
    (hA : t.Stable A) (hs : A s) (hduty : ∀ s, A s → t.duty s q)
    (hnext : ∀ s r s', A s → t.answer s q r s' →
      t.keeps s' ∧ Throughout t post (next r) s') : Throughout t post (.ask q next) s :=
  .ask (fun s' hlater => hduty s' (hA.later hs hlater))
    (fun s' r s'' hlater hr => (hnext s' r s'' (hA.later hs hlater) hr).1)
    (fun s' r s'' hlater hr => (hnext s' r s'' (hA.later hs hlater) hr).2)

/-- One program after another. -/
theorem bind {Q : S → α → Prop} {post : S → β → Prop} {f : α → Program Ask Reply β}
    (h : Throughout t Q p s) (hf : ∀ s a, Q s a → Throughout t post (f a) s) :
    Throughout t post (p >>= f) s := by
  induction h with
  | done h => exact hf _ _ (h _ .refl)
  | ask hduty hkeeps _ ih => exact .ask hduty hkeeps ih

/-- One assertion for all questions. -/
theorem of_onlyAsks {A : S → Prop} {kind : Ask → Prop} (hp : p.OnlyAsks kind) (hA : t.Stable A)
    (hs : A s) (hduty : ∀ s q, A s → kind q → t.duty s q)
    (hanswer : ∀ s q r s', A s → kind q → t.answer s q r s' → t.keeps s' ∧ A s')
    (hpost : ∀ s a, A s → post s a) : Throughout t post p s := by
  induction p generalizing s with
  | done a => exact done_of_stable hA hs fun s hs => hpost s a hs
  | ask q next ih =>
    obtain ⟨hq, hnext⟩ := onlyAsks_of_ask hp
    refine ask_of_stable hA hs (fun s hs => hduty s q hs hq) fun s r s' hs hr => ?_
    obtain ⟨hkeeps, hs'⟩ := hanswer s q r s' hs hq hr
    exact ⟨hkeeps, ih r (hnext r) hs'⟩

end Throughout

/-! ## Runs without interruption -/

/-- A run of a program from a state to a result and another state. -/
inductive Exec (answer : S → (q : Ask) → Reply q → S → Prop) :
    Program Ask Reply α → S → α → S → Prop
  /-- Nothing is asked. -/
  | done (a : α) (s : S) : Exec answer (.done a) s a s
  /-- A question is answered first. -/
  | ask {q : Ask} {next : Reply q → Program Ask Reply α} {s s' s'' : S} {r : Reply q} {a : α}
      (hr : answer s q r s') (h : Exec answer (next r) s' a s'') :
      Exec answer (.ask q next) s a s''

variable {answer : S → (q : Ask) → Reply q → S → Prop}

theorem exec_done_iff {a b : α} :
    Exec answer (.done a : Program Ask Reply α) s b s' ↔ b = a ∧ s' = s := by
  constructor
  · rintro ⟨⟩
    exact ⟨rfl, rfl⟩
  · rintro ⟨rfl, rfl⟩
    exact .done _ _

theorem exec_ask_iff {q : Ask} {next : Reply q → Program Ask Reply α} {a : α} :
    Exec answer (.ask q next) s a s' ↔
      ∃ r s₁, answer s q r s₁ ∧ Exec answer (next r) s₁ a s' := by
  constructor
  · rintro (_ | ⟨hr, h⟩)
    exact ⟨_, _, hr, h⟩
  · rintro ⟨r, s₁, hr, h⟩
    exact .ask hr h

/-- One program after another is executed through a state between them. -/
theorem exec_bind_iff {f : α → Program Ask Reply β} {b : β} :
    Exec answer (p >>= f) s b s' ↔
      ∃ a s₁, Exec answer p s a s₁ ∧ Exec answer (f a) s₁ b s' := by
  induction p generalizing s with
  | done a =>
    constructor
    · exact fun h => ⟨a, s, .done a s, h⟩
    · rintro ⟨_, _, ⟨⟩, h⟩
      exact h
  | ask q next ih =>
    rw [ask_bind, exec_ask_iff]
    constructor
    · rintro ⟨r, s₁, hr, h⟩
      obtain ⟨a, s₂, ha, hb⟩ := (ih r).1 h
      exact ⟨a, s₂, .ask hr ha, hb⟩
    · rintro ⟨a, s₂, ha, hb⟩
      obtain ⟨r, s₁, hr, ha⟩ := exec_ask_iff.1 ha
      exact ⟨r, s₁, hr, (ih r).2 ⟨a, s₂, ha, hb⟩⟩

end Program

end ConnectorKeeper
