import ConnectorKeeper.Proofs.Exchanges

/-!
# Two programs side by side

Two programs share a state, and the questions of one may be answered between those of
the other.  `Interleaved` says what such a run exchanges, ends with and leaves, and
`weave` is the run in which they take given turns.

A part of the state is a program's own if its questions are answered from that part
alone, and the other program leaves it.  Then the program notices nothing of the other
(`Interleaved.first_eq`): its exchanges, its result and what it leaves there are those
of a run by itself, in every interleaving.  What both programs add to, in any order, is
the same in the end as well (`Interleaved.total_eq`).
-/

namespace ConnectorKeeper

namespace Program

variable {Ask : Type} {Reply : Ask → Type} {S V M α β : Type}

/-- How questions are answered in a state, each with the state after it. -/
abbrev Acts (Ask : Type) (Reply : Ask → Type) (S : Type) : Type := (q : Ask) → S → Reply q × S

/-- What a program exchanged, and its result. -/
structure Ran (Reply : Ask → Type) (α : Type) where
  /-- The exchanges. -/
  exchanges : List (Exchange Reply)
  /-- The result. -/
  result : α

/-- One more exchange before all others. -/
def Ran.cons (x : Exchange Reply) (ran : Ran Reply α) : Ran Reply α :=
  { ran with exchanges := x :: ran.exchanges }

/-- A program by itself, with the state after it. -/
def play (act : Acts Ask Reply S) : Program Ask Reply α → S → Ran Reply α × S
  | .done a, s => (⟨[], a⟩, s)
  | .ask q next, s =>
      let rest := play act (next (act q s).1) (act q s).2
      (rest.1.cons ⟨q, (act q s).1⟩, rest.2)

/-- By itself, one program after another runs in turn. -/
theorem play_bind (act : Acts Ask Reply S) (p : Program Ask Reply α) (f : α → Program Ask Reply β)
    (s : S) :
    let front := play act p s
    let rest := play act (f front.1.result) front.2
    play act (p >>= f) s = (⟨front.1.exchanges ++ rest.1.exchanges, rest.1.result⟩, rest.2) := by
  induction p generalizing s with
  | done a => rfl
  | ask q next ih =>
    simp only [ask_bind, play, ih]
    rfl

/-- What a program exchanges by itself is one of its traces. -/
theorem trace_play (act : Acts Ask Reply S) (p : Program Ask Reply α) (s : S) :
    p.Trace (play act p s).1.exchanges (play act p s).1.result := by
  induction p generalizing s with
  | done a => exact .done a
  | ask q next ih => exact .ask _ (ih _ _)

/-- What no question changes is as before. -/
theorem view_play {act : Acts Ask Reply S} {view : S → V} {kind : Ask → Prop}
    {p : Program Ask Reply α} (hp : p.OnlyAsks kind)
    (h : ∀ q s, kind q → view (act q s).2 = view s) (s : S) : view (play act p s).2 = view s := by
  induction p generalizing s with
  | done a => rfl
  | ask q next ih =>
    obtain ⟨hq, hnext⟩ := onlyAsks_of_ask hp
    exact (ih _ (hnext _) _).trans (h q s hq)

/-- Two programs that have run, with the state after them. -/
structure Both (Reply : Ask → Type) (α β S : Type) where
  /-- The first program. -/
  first : Ran Reply α
  /-- The second program. -/
  second : Ran Reply β
  /-- The state. -/
  state : S

namespace Both

/-- The programs in the other order. -/
def swap (b : Both Reply α β S) : Both Reply β α S := ⟨b.second, b.first, b.state⟩

/-- One more exchange of the first program before all others. -/
def consFirst (x : Exchange Reply) (b : Both Reply α β S) : Both Reply α β S :=
  { b with first := b.first.cons x }

/-- One more exchange of the second program before all others. -/
def consSecond (x : Exchange Reply) (b : Both Reply α β S) : Both Reply α β S :=
  { b with second := b.second.cons x }

end Both

variable {act act' : Acts Ask Reply S} {p : Program Ask Reply α} {p' : Program Ask Reply β}
  {s : S} {b : Both Reply α β S}

/-- A run of two programs, question by question. -/
inductive Interleaved (act act' : Acts Ask Reply S) :
    Program Ask Reply α → Program Ask Reply β → S → Both Reply α β S → Prop
  /-- Both are over. -/
  | done (a : α) (a' : β) (s : S) :
      Interleaved act act' (.done a) (.done a') s ⟨⟨[], a⟩, ⟨[], a'⟩, s⟩
  /-- The first program asks next. -/
  | first {q : Ask} {next : Reply q → Program Ask Reply α} {p' : Program Ask Reply β} {s : S}
      {b : Both Reply α β S} (h : Interleaved act act' (next (act q s).1) p' (act q s).2 b) :
      Interleaved act act' (.ask q next) p' s (b.consFirst ⟨q, (act q s).1⟩)
  /-- The second program asks next. -/
  | second {p : Program Ask Reply α} {q : Ask} {next : Reply q → Program Ask Reply β} {s : S}
      {b : Both Reply α β S} (h : Interleaved act act' p (next (act' q s).1) (act' q s).2 b) :
      Interleaved act act' p (.ask q next) s (b.consSecond ⟨q, (act' q s).1⟩)

/-- Which of the programs comes first does not matter. -/
theorem Interleaved.swap (h : Interleaved act act' p p' s b) :
    Interleaved act' act p' p s b.swap := by
  induction h with
  | done a a' s => exact .done a' a s
  | first _ ih => exact .second ih
  | second _ ih => exact .first ih

/-! ## Schedules -/

/-- The first program, and then the second. -/
def inTurn (act act' : Acts Ask Reply S) (p : Program Ask Reply α) (p' : Program Ask Reply β)
    (s : S) : Both Reply α β S :=
  ⟨(play act p s).1, (play act' p' (play act p s).2).1, (play act' p' (play act p s).2).2⟩

/-- The programs take turns, `false` being one of the first program, and end one after
the other.  A program that is over lets its turns pass. -/
def weave (act act' : Acts Ask Reply S) :
    List Bool → Program Ask Reply α → Program Ask Reply β → S → Both Reply α β S
  | false :: turns, .ask q next, p', s =>
      (weave act act' turns (next (act q s).1) p' (act q s).2).consFirst ⟨q, (act q s).1⟩
  | true :: turns, p, .ask q next, s =>
      (weave act act' turns p (next (act' q s).1) (act' q s).2).consSecond ⟨q, (act' q s).1⟩
  | _ :: turns, p, p', s => weave act act' turns p p' s
  | [], p, p', s => inTurn act act' p p' s

/-- One program after the other is an interleaving. -/
theorem interleaved_inTurn (act act' : Acts Ask Reply S) (p : Program Ask Reply α)
    (p' : Program Ask Reply β) (s : S) : Interleaved act act' p p' s (inTurn act act' p p' s) := by
  induction p generalizing s with
  | done a =>
    induction p' generalizing s with
    | done a' => exact .done a a' s
    | ask q next ih => exact .second (ih _ _)
  | ask q next ih => exact .first (ih _ _)

/-- So are the programs with turns in any order. -/
theorem interleaved_weave (act act' : Acts Ask Reply S) (turns : List Bool)
    (p : Program Ask Reply α) (p' : Program Ask Reply β) (s : S) :
    Interleaved act act' p p' s (weave act act' turns p p' s) := by
  induction turns generalizing p p' s with
  | nil =>
    rw [weave]
    exact interleaved_inTurn act act' p p' s
  | cons turn turns ih =>
    cases turn with
    | false =>
      cases p with
      | done a =>
        rw [weave]
        · exact ih _ _ _
        all_goals simp
      | ask q next => exact .first (ih _ _ _)
    | true =>
      cases p' with
      | done a =>
        rw [weave]
        · exact ih _ _ _
        all_goals simp
      | ask q next =>
        cases p <;> exact .second (ih _ _ _)

/-! ## What a program does not notice -/

section Views

variable {kind kind' : Ask → Prop} {view : S → V} {own : Acts Ask Reply V}

/-- A part of the state is a program's own: its questions are answered from that part
alone, and those of the other program leave it. -/
structure Own (act act' : Acts Ask Reply S) (kind kind' : Ask → Prop) (view : S → V)
    (own : Acts Ask Reply V) : Prop where
  /-- What the questions of the program do to it. -/
  here : ∀ q s, kind q → own q (view s) = ((act q s).1, view (act q s).2)
  /-- What the questions of the other program do to it. -/
  there : ∀ q s, kind' q → view (act' q s).2 = view s

/-- A program that keeps to its own part runs there as if it were by itself. -/
theorem Interleaved.first_eq (h : Interleaved act act' p p' s b)
    (hown : Own act act' kind kind' view own) (hp : p.OnlyAsks kind) (hp' : p'.OnlyAsks kind') :
    play own p (view s) = (b.first, view b.state) := by
  induction h with
  | done => rfl
  | @first q next p' s b _ ih =>
    obtain ⟨hq, hnext⟩ := onlyAsks_of_ask hp
    simp only [play, hown.here q s hq, ih (hnext _) hp']
    rfl
  | second _ ih =>
    obtain ⟨hq, hnext⟩ := onlyAsks_of_ask hp'
    rw [← hown.there _ _ hq]
    exact ih hp (hnext _)

theorem Interleaved.second_eq (h : Interleaved act act' p p' s b)
    (hown : Own act' act kind' kind view own) (hp : p.OnlyAsks kind) (hp' : p'.OnlyAsks kind') :
    play own p' (view s) = (b.second, view b.state) :=
  h.swap.first_eq hown hp' hp

end Views

/-! ## What both add to -/

/-- Each question adds the same to a total, in whatever state. -/
def Adds (act : Acts Ask Reply S) (total : S → M) (add : Ask → M → M) : Prop :=
  ∀ q s, total (act q s).2 = add q (total s)

/-- A total does not depend on the order of what is added. -/
theorem Interleaved.total_eq {total : S → M} {add : Ask → M → M}
    (h : Interleaved act act' p p' s b) (hact : Adds act total add) (hact' : Adds act' total add)
    (hcomm : ∀ q q' m, add q (add q' m) = add q' (add q m)) :
    total b.state = (b.first.exchanges ++ b.second.exchanges).foldl (fun m x => add x.1 m)
      (total s) := by
  let step (m : M) (x : Exchange Reply) : M := add x.1 m
  have hright : RightCommutative step := ⟨fun m x y => hcomm y.1 x.1 m⟩
  induction h with
  | done => rfl
  | first _ ih =>
    refine ih.trans ?_
    rw [hact]
    rfl
  | @second p q next s b _ ih =>
    refine ih.trans ?_
    rw [hact']
    let x : Exchange Reply := ⟨q, (act' q s).1⟩
    have hlater : (x :: (b.first.exchanges ++ b.second.exchanges)).Perm
        (b.first.exchanges ++ x :: b.second.exchanges) := List.perm_middle.symm
    exact hlater.foldl_eq (f := step) (total s)

end Program

end ConnectorKeeper
