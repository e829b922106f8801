import ConnectorKeeper.Decimal.Shortest
import ConnectorKeeper.Duration
import ConnectorKeeper.StringMap

/-!
# Metrics

Counts of passes by result, of successful ones by action and of failed ones by
reason, and how long passes took.  The text form has one line a counter; a
counter that was never counted has no line.
-/

namespace ConnectorKeeper

/-- What is counted about passes. -/
structure Metrics where
  /-- Successful passes. -/
  successes : Nat
  /-- Failed passes. -/
  failures : Nat
  /-- Successful passes by action. -/
  actions : StringMap Nat
  /-- Failed passes by reason. -/
  reasons : StringMap Nat
  /-- Passes that were timed. -/
  timed : Nat
  /-- The seconds they took together. -/
  seconds : Float

namespace Metrics

/-- No passes. -/
def none : Metrics := ⟨0, 0, .empty, .empty, 0, 0⟩

/-- A duration in seconds. -/
def inSeconds (d : Duration) : Float :=
  Float.ofNat d.seconds + Float.ofNat d.subsecond / 1e9

/-- One more under a label. -/
def bump (counts : StringMap Nat) (label : String) : StringMap Nat :=
  counts.insert label ((counts.get? label).getD 0 + 1)

/-- One more timed pass. -/
def time (m : Metrics) (elapsed : Duration) : Metrics :=
  { m with timed := m.timed + 1, seconds := m.seconds + inSeconds elapsed }

/-- One more successful pass. -/
def recordSuccess (m : Metrics) (action : String) (elapsed : Duration) : Metrics :=
  { m.time elapsed with successes := m.successes + 1, actions := bump m.actions action }

/-- One more failed pass. -/
def recordFailure (m : Metrics) (reason : String) (elapsed : Duration) : Metrics :=
  { m.time elapsed with failures := m.failures + 1, reasons := bump m.reasons reason }

/-! ## Text form -/

/-- A label's value between quotation marks.  A backslash is written when the
next character shows that it is to be kept; a quotation mark takes it. -/
def labelChars : Bool → List Char → List Char
  | held, [] => if held then ['\\', '\\'] else []
  | held, '\n' :: rest => '\\' :: 'n' :: labelChars held rest
  | _, '"' :: rest => '\\' :: '"' :: labelChars false rest
  | true, '\\' :: rest => '\\' :: '\\' :: labelChars false rest
  | false, '\\' :: rest => labelChars true rest
  | true, c :: rest => '\\' :: '\\' :: c :: labelChars false rest
  | false, c :: rest => c :: labelChars false rest

/-- A line of a counter with one label. -/
def labelled (name label value : String) (count : Nat) : String :=
  name ++ "\x7b" ++ label ++ "=\"" ++ String.ofList (labelChars false value.toList) ++ "\"\x7d " ++
    toString count

/-- The common start of all names. -/
def family : String := "debezium_operator_reconcile_"

/-- The line of a result, if there was one. -/
def resultLine (result : String) (count : Nat) : List String :=
  if count = 0 then [] else [labelled (family ++ "total") "result" result count]

/-- The lines of all counters, and of the number of timed passes. -/
def counterLines (m : Metrics) : List String :=
  resultLine "success" m.successes ++ resultLine "error" m.failures ++
    m.actions.toList.map (fun e => labelled (family ++ "actions_total") "action" e.1 e.2) ++
    m.reasons.toList.map (fun e => labelled (family ++ "errors_total") "reason" e.1 e.2) ++
    (if m.timed = 0 then [] else [s!"{family}duration_seconds_count {m.timed}"])

/-- The line of the time that passes took together. -/
def sumLines (m : Metrics) : List String :=
  if m.timed = 0 then []
  else [s!"{family}duration_seconds_sum {(Decimal.shortest m.seconds).positional}"]

/-- All lines, ascending. -/
def lines (m : Metrics) : List String :=
  (m.counterLines ++ m.sumLines).mergeSort (fun a b => a ≤ b)

/-- The media type of the text form. -/
def contentType : String := "text/plain; version=0.0.4"

end Metrics

end ConnectorKeeper
