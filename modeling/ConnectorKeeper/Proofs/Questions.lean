import Mathlib
import ConnectorKeeper.Neighbour

/-!
# What a program may ask

`p.MayAsk q` says that some answers lead `p` to the question `q`, and
`p.MayEnd a` that some answers lead it to the result `a`.  A statement about
every question of a program is then one about every script of answers.

A program in front of another one asks its own questions first
(`mayAsk_bind`), and a program whose questions are answered by programs asks
only what those ask (`exists_mayAsk_of_run`).  `p.OnlyAsks kind` is shown by
going through the program.
-/

namespace ConnectorKeeper

namespace Program

variable {Ask Ask' : Type} {Reply : Ask → Type} {Reply' : Ask' → Type} {α β : Type}

/-- Some answers lead to the question. -/
inductive MayAsk : Program Ask Reply α → Ask → Prop
  /-- It is asked at once. -/
  | here (q : Ask) (next : Reply q → Program Ask Reply α) : MayAsk (.ask q next) q
  /-- It is asked after an answer. -/
  | after {q' q : Ask} {next : Reply q' → Program Ask Reply α} (r : Reply q')
      (h : MayAsk (next r) q) : MayAsk (.ask q' next) q

/-- Some answers lead to the result. -/
inductive MayEnd : Program Ask Reply α → α → Prop
  /-- It is there. -/
  | done (a : α) : MayEnd (.done a) a
  /-- It is there after an answer. -/
  | after {q : Ask} {next : Reply q → Program Ask Reply α} {a : α} (r : Reply q)
      (h : MayEnd (next r) a) : MayEnd (.ask q next) a

@[simp] theorem not_mayAsk_done (a : α) (q : Ask) :
    ¬ (Program.done a : Program Ask Reply α).MayAsk q := nofun

/-- The first question may be asked, and what follows on some answer. -/
@[simp] theorem mayAsk_ask (q' q : Ask) (next : Reply q' → Program Ask Reply α) :
    (Program.ask q' next).MayAsk q ↔ q = q' ∨ ∃ r, (next r).MayAsk q := by
  constructor
  · rintro (_ | ⟨r, h⟩)
    · exact .inl rfl
    · exact .inr ⟨r, h⟩
  · rintro (rfl | ⟨r, h⟩)
    · exact .here q next
    · exact .after r h

@[simp] theorem mayEnd_done (a b : α) :
    (Program.done b : Program Ask Reply α).MayEnd a ↔ a = b := by
  constructor
  · rintro ⟨⟩
    rfl
  · rintro rfl
    exact .done a

@[simp] theorem mayEnd_ask (q : Ask) (next : Reply q → Program Ask Reply α) (a : α) :
    (Program.ask q next).MayEnd a ↔ ∃ r, (next r).MayEnd a := by
  constructor
  · rintro (_ | ⟨r, h⟩)
    exact ⟨r, h⟩
  · rintro ⟨r, h⟩
    exact .after r h

@[simp] theorem bind_eq (p : Program Ask Reply α) (f : α → Program Ask Reply β) :
    Program.bind p f = p >>= f := rfl

/-- One program after another ends where the second does, after an end of the first. -/
@[simp] theorem mayEnd_bind (p : Program Ask Reply α) (f : α → Program Ask Reply β) (b : β) :
    (p >>= f).MayEnd b ↔ ∃ a, p.MayEnd a ∧ (f a).MayEnd b := by
  induction p with
  | done a => simp
  | ask q next ih =>
    rw [ask_bind, mayEnd_ask]
    constructor
    · rintro ⟨r, h⟩
      obtain ⟨a, ha, hb⟩ := (ih r).1 h
      exact ⟨a, .after r ha, hb⟩
    · rintro ⟨a, _ | ⟨r, ha⟩, hb⟩
      exact ⟨r, (ih r).2 ⟨a, ha, hb⟩⟩

/-- One program after another asks what the first asks, and then what the second does. -/
@[simp] theorem mayAsk_bind (p : Program Ask Reply α) (f : α → Program Ask Reply β) (q : Ask) :
    (p >>= f).MayAsk q ↔ p.MayAsk q ∨ ∃ a, p.MayEnd a ∧ (f a).MayAsk q := by
  induction p with
  | done a => simp
  | ask q' next ih =>
    rw [ask_bind, mayAsk_ask, mayAsk_ask]
    constructor
    · rintro (h | ⟨r, h⟩)
      · exact .inl (.inl h)
      · rcases (ih r).1 h with h | ⟨a, ha, hq⟩
        · exact .inl (.inr ⟨r, h⟩)
        · exact .inr ⟨a, .after r ha, hq⟩
    · rintro ((h | ⟨r, h⟩) | ⟨a, _ | ⟨r, ha⟩, hq⟩)
      · exact .inl h
      · exact .inr ⟨r, (ih r).2 (.inl h)⟩
      · exact .inr ⟨r, (ih r).2 (.inr ⟨a, ha, hq⟩)⟩

/-- A program in surroundings that are programs asks what they ask of its
questions. -/
theorem exists_mayAsk_of_run {answer : (q : Ask) → Program Ask' Reply' (Reply q)}
    {p : Program Ask Reply α} {q : Ask'} (h : (p.run answer).MayAsk q) :
    ∃ n, p.MayAsk n ∧ (answer n).MayAsk q := by
  induction p with
  | done a => exact absurd h (by simp [run])
  | ask n next ih =>
    rw [run, mayAsk_bind] at h
    rcases h with h | ⟨r, -, h⟩
    · exact ⟨n, .here n next, h⟩
    · obtain ⟨n', hn', hq⟩ := ih r h
      exact ⟨n', .after r hn', hq⟩

/-- Whatever the answers, all questions are of one kind. -/
def OnlyAsks (p : Program Ask Reply α) (kind : Ask → Prop) : Prop := ∀ q, p.MayAsk q → kind q

section OnlyAsks

variable {kind : Ask → Prop} {p : Program Ask Reply α}

theorem onlyAsks_done (a : α) : (Program.done a : Program Ask Reply α).OnlyAsks kind :=
  fun q h => absurd h (not_mayAsk_done a q)

theorem onlyAsks_ask {q : Ask} {next : Reply q → Program Ask Reply α} (hq : kind q)
    (hnext : ∀ r, (next r).OnlyAsks kind) : (Program.ask q next).OnlyAsks kind := by
  rintro q' (_ | ⟨r, h⟩)
  · exact hq
  · exact hnext r q' h

/-- What holds of all questions holds of the first, and after every answer. -/
theorem onlyAsks_of_ask {q : Ask} {next : Reply q → Program Ask Reply α}
    (h : (Program.ask q next).OnlyAsks kind) : kind q ∧ ∀ r, (next r).OnlyAsks kind :=
  ⟨h q (.here q next), fun r q' hq' => h q' (.after r hq')⟩

/-- One program after another keeps to a kind of questions if both do. -/
theorem onlyAsks_bind {f : α → Program Ask Reply β} (hp : p.OnlyAsks kind)
    (hf : ∀ a, (f a).OnlyAsks kind) : (p >>= f).OnlyAsks kind := by
  intro q h
  rcases (mayAsk_bind p f q).1 h with h | ⟨a, -, h⟩
  · exact hp q h
  · exact hf a q h

end OnlyAsks

end Program

end ConnectorKeeper
