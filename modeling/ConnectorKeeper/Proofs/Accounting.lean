import ConnectorKeeper.Proofs.Isolation

/-!
# What the controller counts

A run is a list of passes, over any records and in any order, each with how it went.
After every pass of a run the counters agree with the run so far (`Controller.Accounts`).

* Each key has as many failures as passes have failed over it in a row.  Counts have
  32 bits, so this is for keys that have not failed too often (`count_afterRun`).
* Each action and each reason has as many passes as ended so, and the totals are those
  of the successful and the failed passes.
* All passes were timed.
-/

namespace ConnectorKeeper

open Program (Exchange)

variable {settings : ControllerSettings}

/-! ## Runs -/

/-- A pass over a record, as it went. -/
structure PassRun (settings : ControllerSettings) where
  /-- The record as the pass found it. -/
  record : Record
  /-- What it exchanged on the wire. -/
  exchanges : List (Exchange Wire.Reply)
  /-- How it ended. -/
  result : Except PassError Outcome
  /-- How long it took. -/
  elapsed : Duration
  /-- A pass over the record can go so. -/
  trace : (pass settings.resync record).overWire.Trace exchanges result

namespace PassRun

/-- Whether the pass failed. -/
def failed (p : PassRun settings) : Bool := !p.result.toBool

/-- The action of a pass that succeeded, by its name. -/
def action? (p : PassRun settings) : Option String :=
  match p.result with
  | .ok outcome => some outcome.action.name
  | .error _ => none

/-- The reason of a pass that failed. -/
def reason? (p : PassRun settings) : Option String :=
  match p.result with
  | .ok _ => none
  | .error e => some e.reason

end PassRun

/-- The passes of a run over records of one key. -/
def passesOf (key : String) (run : List (PassRun settings)) : List (PassRun settings) :=
  run.filter (·.record.key = key)

/-- How often passes over a key have failed since the last that succeeded. -/
def failuresInRow (key : String) (run : List (PassRun settings)) : Nat :=
  ((passesOf key run).reverse.takeWhile PassRun.failed).length

/-- The controller after a run. -/
def Controller.afterRun (run : List (PassRun settings)) : Controller :=
  run.foldl (fun c p => (c.afterPass settings p.record p.result p.elapsed).1) .initial

section Runs

variable {key : String} {run : List (PassRun settings)} {p : PassRun settings}

theorem passesOf_concat_self (h : p.record.key = key) :
    passesOf key (run ++ [p]) = passesOf key run ++ [p] := by
  simp [passesOf, h]

/-- A pass over another key does not belong to the passes of this one. -/
theorem passesOf_concat_of_ne (h : p.record.key ≠ key) :
    passesOf key (run ++ [p]) = passesOf key run := by
  simp [passesOf, h]

/-- Failures of another key do not add to the row. -/
theorem failuresInRow_concat_of_ne (h : p.record.key ≠ key) :
    failuresInRow key (run ++ [p]) = failuresInRow key run := by
  rw [failuresInRow, passesOf_concat_of_ne h, ← failuresInRow]

/-- A failure makes the row longer by one. -/
theorem failuresInRow_concat_failed (h : p.record.key = key) (hp : p.failed = true) :
    failuresInRow key (run ++ [p]) = failuresInRow key run + 1 := by
  simp [failuresInRow, passesOf_concat_self h, hp]

/-- A success ends the row. -/
theorem failuresInRow_concat_succeeded (h : p.record.key = key) (hp : p.failed = false) :
    failuresInRow key (run ++ [p]) = 0 := by
  simp [failuresInRow, passesOf_concat_self h, hp]

/-- There are no more failures in a row than passes. -/
theorem failuresInRow_le (key : String) (run : List (PassRun settings)) :
    failuresInRow key run ≤ run.length := by
  calc failuresInRow key run
      ≤ (passesOf key run).reverse.length := (List.takeWhile_sublist _).length_le
    _ = (passesOf key run).length := List.length_reverse
    _ ≤ run.length := List.length_filter_le ..

/-- No failure is counted exactly if there was no pass or the last one succeeded. -/
theorem failuresInRow_eq_zero_iff : failuresInRow key run = 0 ↔
    ∀ p, (passesOf key run).getLast? = some p → p.failed = false := by
  rw [failuresInRow, List.length_eq_zero_iff, ← List.head?_reverse]
  cases (passesOf key run).reverse with
  | nil => simp
  | cons p rest => cases hp : p.failed <;> simp [hp]

/-! ## Failures in a row -/

/-- A run with one more pass leaves the controller as it is after that. -/
theorem Controller.afterRun_concat (run : List (PassRun settings)) (p : PassRun settings) :
    afterRun (run ++ [p]) =
      ((afterRun run).afterPass settings p.record p.result p.elapsed).1 := by
  rw [afterRun, List.foldl_append]
  rfl

/-- A failed pass counts for its key, in the width of the counter. -/
theorem Controller.count_afterPass_failed (c : Controller) (h : p.record.key = key)
    (hp : p.failed = true) :
    (c.afterPass settings p.record p.result p.elapsed).1.failures.count key =
      (c.failures.count key + 1) % 0x1_0000_0000 := by
  unfold PassRun.failed at hp
  cases hresult : p.result with
  | ok outcome =>
    rw [hresult] at hp
    cases hp
  | error e =>
    subst h
    exact Failures.count_increment_self

/-- A successful pass sets the count of its key to zero. -/
theorem Controller.count_afterPass_succeeded (c : Controller) (h : p.record.key = key)
    (hp : p.failed = false) :
    (c.afterPass settings p.record p.result p.elapsed).1.failures.count key = 0 := by
  unfold PassRun.failed at hp
  cases hresult : p.result with
  | ok outcome =>
    subst h
    exact Failures.count_reset_self
  | error e =>
    rw [hresult] at hp
    cases hp

/-- A pass leaves the counts of other keys. -/
theorem Controller.count_afterPass_of_ne (c : Controller) (h : p.record.key ≠ key) :
    (c.afterPass settings p.record p.result p.elapsed).1.failures.count key =
      c.failures.count key := by
  cases p.result with
  | ok outcome => exact Failures.count_reset_of_ne h.symm
  | error e => exact Failures.count_increment_of_ne h.symm

/-- The failures of a key are counted with 32 bits. -/
theorem Controller.count_afterRun (key : String) (run : List (PassRun settings)) :
    (afterRun run).failures.count key = failuresInRow key run % 0x1_0000_0000 := by
  induction run using List.reverseRecOn with
  | nil => rfl
  | append_singleton run p ih =>
    rw [afterRun_concat]
    by_cases hkey : p.record.key = key
    · cases hp : p.failed with
      | true =>
        rw [count_afterPass_failed _ hkey hp, ih, failuresInRow_concat_failed hkey hp]
        omega
      | false =>
        rw [count_afterPass_succeeded _ hkey hp, failuresInRow_concat_succeeded hkey hp]
    · rw [count_afterPass_of_ne _ hkey, ih, failuresInRow_concat_of_ne hkey]

end Runs

/-! ## Totals -/

/-- The sum of all values of a map. -/
def StringMap.total (m : StringMap Nat) : Nat := (m.entries.map (·.2)).sum

theorem StringMap.lookup_eq_none_of_lt {α : Type} {key : String} {l : List (String × α)}
    (h : ∀ e ∈ l, key < e.1) : lookup key l = none := by
  induction l with
  | nil => rfl
  | cons e l ih =>
    have hlt : key < e.1 := h e List.mem_cons_self
    rw [lookup, if_neg hlt.ne']
    exact ih fun e' he' => h e' (List.mem_cons_of_mem _ he')

/-- A new value takes the place of the old one in the sum. -/
theorem StringMap.sum_insertEntry (key : String) (n : Nat) {l : List (String × Nat)}
    (h : l.Pairwise (·.1 < ·.1)) :
    ((insertEntry key n l).map (·.2)).sum + (lookup key l).getD 0 = (l.map (·.2)).sum + n := by
  induction l with
  | nil => simp [insertEntry, lookup]
  | cons e l ih =>
    obtain ⟨k, v⟩ := e
    obtain ⟨hk, hl⟩ := List.pairwise_cons.1 h
    rw [insertEntry]
    split
    · next hlt =>
      have hnone : lookup key ((k, v) :: l) = none := by
        refine lookup_eq_none_of_lt (List.forall_mem_cons.2 ⟨hlt, ?_⟩)
        intro e he
        exact hlt.trans (hk e he)
      rw [hnone]
      simp only [List.map_cons, List.sum_cons, Option.getD_none]
      omega
    · split
      · next heq =>
        rw [lookup, if_pos heq.symm]
        simp only [List.map_cons, List.sum_cons, Option.getD_some]
        omega
      · next hne =>
        have hrest := ih hl
        rw [lookup, if_neg (Ne.symm hne)]
        simp only [List.map_cons, List.sum_cons]
        omega

theorem StringMap.total_insert (m : StringMap Nat) (key : String) (n : Nat) :
    (m.insert key n).total + (m.get? key).getD 0 = m.total + n :=
  sum_insertEntry key n m.sorted

namespace Metrics

/-- Every count adds one to the total. -/
theorem total_bump (counts : StringMap Nat) (label : String) :
    (bump counts label).total = counts.total + 1 := by
  have h := counts.total_insert label ((counts.get? label).getD 0 + 1)
  rw [← bump] at h
  omega

/-- A count adds one to its label, and nothing to others. -/
theorem get?_bump (counts : StringMap Nat) (label key : String) :
    ((bump counts label).get? key).getD 0 =
      (counts.get? key).getD 0 + if label = key then 1 else 0 := by
  rw [bump, StringMap.get?_insert]
  by_cases h : key = label
  · simp [h]
  · simp [h, Ne.symm h]

/-- The metrics after a run count its passes, by action and by reason. -/
structure Counts (m : Metrics) (run : List (PassRun settings)) : Prop where
  actions : ∀ label, (m.actions.get? label).getD 0 = run.countP (·.action? = some label)
  reasons : ∀ label, (m.reasons.get? label).getD 0 = run.countP (·.reason? = some label)
  successes : m.successes = run.countP (!·.failed)
  failures : m.failures = run.countP (·.failed)
  actionTotal : m.actions.total = m.successes
  reasonTotal : m.reasons.total = m.failures
  timed : m.timed = run.length

theorem counts_none : Metrics.none.Counts ([] : List (PassRun settings)) := by
  constructor <;> intros <;> rfl

variable {m : Metrics} {run : List (PassRun settings)} {p : PassRun settings}

/-- Recording a success keeps the counts true. -/
theorem Counts.success (h : m.Counts run) {outcome : Outcome} (hp : p.result = .ok outcome) :
    (m.recordSuccess outcome.action.name p.elapsed).Counts (run ++ [p]) := by
  have haction : p.action? = some outcome.action.name := by simp [PassRun.action?, hp]
  have hreason : p.reason? = Option.none := by simp [PassRun.reason?, hp]
  have hok : p.failed = false := by simp [PassRun.failed, hp, Except.toBool]
  constructor
  case actions =>
    intro label
    show ((bump m.actions outcome.action.name).get? label).getD 0 = _
    rw [get?_bump, h.actions, List.countP_append, List.countP_singleton]
    simp [haction]
  case reasons =>
    intro label
    show (m.reasons.get? label).getD 0 = _
    rw [h.reasons, List.countP_append, List.countP_singleton]
    simp [hreason]
  case successes =>
    show m.successes + 1 = _
    rw [h.successes, List.countP_append, List.countP_singleton]
    simp [hok]
  case failures =>
    show m.failures = _
    rw [h.failures, List.countP_append, List.countP_singleton]
    simp [hok]
  case actionTotal =>
    show (bump m.actions outcome.action.name).total = m.successes + 1
    rw [total_bump, h.actionTotal]
  case reasonTotal => exact h.reasonTotal
  case timed =>
    show m.timed + 1 = _
    rw [h.timed, List.length_append, List.length_singleton]

/-- Recording a failure keeps them true. -/
theorem Counts.failure (h : m.Counts run) {e : PassError} (hp : p.result = .error e) :
    (m.recordFailure e.reason p.elapsed).Counts (run ++ [p]) := by
  have haction : p.action? = Option.none := by simp [PassRun.action?, hp]
  have hreason : p.reason? = some e.reason := by simp [PassRun.reason?, hp]
  have hfailed : p.failed = true := by simp [PassRun.failed, hp, Except.toBool]
  constructor
  case actions =>
    intro label
    show (m.actions.get? label).getD 0 = _
    rw [h.actions, List.countP_append, List.countP_singleton]
    simp [haction]
  case reasons =>
    intro label
    show ((bump m.reasons e.reason).get? label).getD 0 = _
    rw [get?_bump, h.reasons, List.countP_append, List.countP_singleton]
    simp [hreason]
  case successes =>
    show m.successes = _
    rw [h.successes, List.countP_append, List.countP_singleton]
    simp [hfailed]
  case failures =>
    show m.failures + 1 = _
    rw [h.failures, List.countP_append, List.countP_singleton]
    simp [hfailed]
  case actionTotal => exact h.actionTotal
  case reasonTotal =>
    show (bump m.reasons e.reason).total = m.failures + 1
    rw [total_bump, h.reasonTotal]
  case timed =>
    show m.timed + 1 = _
    rw [h.timed, List.length_append, List.length_singleton]

end Metrics

/-- The metrics count the passes of a run. -/
theorem Controller.counts_afterRun (run : List (PassRun settings)) :
    (afterRun run).metrics.Counts run := by
  induction run using List.reverseRecOn with
  | nil => exact Metrics.counts_none
  | append_singleton run p ih =>
    rw [afterRun_concat]
    cases hresult : p.result with
    | ok outcome => exact ih.success hresult
    | error e => exact ih.failure hresult

/-! ## Accounts -/

/-- What the controller keeps agrees with a run. -/
structure Controller.Accounts (c : Controller) (run : List (PassRun settings)) : Prop where
  /-- The failures of a key are those since its last success. -/
  failures : ∀ key, c.failures.count key = failuresInRow key run
  /-- There are none exactly if the key had no pass or its last one succeeded. -/
  unfailed : ∀ key, c.failures.count key = 0 ↔
    ∀ p, (passesOf key run).getLast? = some p → p.failed = false
  /-- One more pass leaves the failures of all other keys. -/
  others : ∀ (p : PassRun settings) (key : String), p.record.key ≠ key →
    (afterRun (run ++ [p])).failures.count key = c.failures.count key
  /-- The passes are counted by result, by action and by reason. -/
  metrics : c.metrics.Counts run

/-- After every pass of a run, as long as no key has failed 2 ^ 32 times in a row, the
controller's accounts are right. -/
theorem Controller.accounts_afterRun {whole : List (PassRun settings)}
    (h : ∀ key run, run <+: whole → failuresInRow key run < 2 ^ 32) :
    ∀ run, run <+: whole → (afterRun run).Accounts run := by
  intro run hrun
  have hcount : ∀ key, (afterRun run).failures.count key = failuresInRow key run := by
    intro key
    rw [count_afterRun]
    exact Nat.mod_eq_of_lt (h key run hrun)
  constructor
  case failures => exact hcount
  case unfailed =>
    intro key
    rw [hcount, failuresInRow_eq_zero_iff]
  case others =>
    intro p key hkey
    rw [afterRun_concat, count_afterPass_of_ne _ hkey]
  case metrics => exact counts_afterRun run

/-- A neighbour that never answers. -/
def Wire.silent : (q : Wire) → q.Reply
  | .cluster _ => none
  | .api _ => .dropped "timed out"
  | .clock => ⟨0, 0⟩

/-- A pass without any answer. -/
def PassRun.unanswered (r : Record) : PassRun ({} : ControllerSettings) where
  record := r
  exchanges := ((pass _ r).overWire.transcript Wire.silent).1
  result := ((pass _ r).overWire.transcript Wire.silent).2
  elapsed := .ofSeconds 1
  trace := Program.trace_transcript Wire.silent _

/-- Two keys fail in turn, one of them for good reason and one for want of a name; then
the first is let go. -/
theorem Controller.accounts_afterRun_orders :
    let record (name : String) (metadata : Metadata) (config : Config) : PassRun {} :=
      .unanswered ⟨{ metadata with name := some name, namespaceName := some "prod" },
        ⟨"http://dbz:8083", config⟩, none⟩
    let orders := record "orders" { Metadata.empty with finalizers := some [finalizer] }
      (.ofList [("name", "orders")])
    let gone := record "orders" { Metadata.empty with deletionTimestamp := some ⟨0, 0⟩ } .empty
    let users := record "users" .empty .empty
    let whole := [orders, users, orders, gone, users]
    let run := [orders, users, orders]
    (∀ key run, run <+: whole → failuresInRow key run < 2 ^ 32) ∧
      (failuresInRow "prod/orders" run = 2 ∧ failuresInRow "prod/users" run = 1 ∧
        failuresInRow "prod/orders" whole = 0 ∧ failuresInRow "prod/users" whole = 2) ∧
      (afterRun run).Accounts run ∧ (afterRun whole).Accounts whole := by
  intro record orders gone users whole run
  have hfew : ∀ key run, run <+: whole → failuresInRow key run < 2 ^ 32 := by
    intro key l hl
    calc failuresInRow key l ≤ l.length := failuresInRow_le key l
      _ ≤ 5 := hl.length_le
      _ < 2 ^ 32 := by norm_num
  have haccounts := accounts_afterRun hfew
  exact ⟨hfew, by decide +kernel, haccounts run ⟨[gone, users], rfl⟩,
    haccounts whole List.prefix_rfl⟩

end ConnectorKeeper
