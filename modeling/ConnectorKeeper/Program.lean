/-!
# Programs that ask

A `Program` is a computation that can only ask questions of its surroundings
and go on with the answers.  It is data: what it asks, in which order and after
which answers, can be read off it without any world to run it in.

`Program.run` gives the surroundings.  They may be a script, a model of the
servers that are talked to, or another program that asks simpler questions.
-/

namespace ConnectorKeeper

/-- A computation that asks questions; each question has its type of answers. -/
inductive Program (Ask : Type) (Reply : Ask → Type) (α : Type) where
  /-- The result, with nothing more to ask. -/
  | done (a : α)
  /-- A question, and how to go on from its answer. -/
  | ask (question : Ask) (next : Reply question → Program Ask Reply α)

namespace Program

variable {Ask : Type} {Reply : Ask → Type} {α β : Type}

/-- One program after another. -/
def bind : Program Ask Reply α → (α → Program Ask Reply β) → Program Ask Reply β
  | .done a, f => f a
  | .ask q next, f => .ask q fun r => bind (next r) f

instance : Monad (Program Ask Reply) where
  pure := .done
  bind := bind

/-- A single question. -/
def question (q : Ask) : Program Ask Reply (Reply q) := .ask q .done

/-- A program in surroundings that answer its questions. -/
def run {m : Type → Type} [Monad m] (answer : (q : Ask) → m (Reply q)) :
    Program Ask Reply α → m α
  | .done a => pure a
  | .ask q next => do
      let r ← answer q
      run answer (next r)

@[simp] theorem pure_eq_done (a : α) : (pure a : Program Ask Reply α) = .done a := rfl

@[simp] theorem done_bind (a : α) (f : α → Program Ask Reply β) :
    (Program.done a : Program Ask Reply α) >>= f = f a := rfl

@[simp] theorem ask_bind (q : Ask) (next : Reply q → Program Ask Reply α)
    (f : α → Program Ask Reply β) :
    (Program.ask q next) >>= f = .ask q fun r => next r >>= f := rfl

/-- Running two programs in turn is running them as one. -/
theorem run_bind {m : Type → Type} [Monad m] [LawfulMonad m]
    (answer : (q : Ask) → m (Reply q)) (p : Program Ask Reply α) (f : α → Program Ask Reply β) :
    (p >>= f).run answer = p.run answer >>= fun a => (f a).run answer := by
  induction p with
  | done a => simp [run]
  | ask q next ih => simp [run, ih]

end Program

end ConnectorKeeper
