import ConnectorKeeper.Duration
import ConnectorKeeper.StringMap

/-!
# Retries

How often each record has failed in a row, and how long to wait before the next
attempt.  The delay doubles from one failure to the next up to a limit.  An
error that only a change of the record can cure waits for that change.
-/

namespace ConnectorKeeper

/-- Whether an error can pass by itself. -/
inductive ErrorKind where
  /-- An outage: trying again may help. -/
  | transient
  /-- Only a change of the record helps. -/
  | permanent
deriving DecidableEq, Repr

/-- When the next pass is due. -/
inductive Requeue where
  /-- After a delay. -/
  | after (delay : Duration)
  /-- When the record changes. -/
  | awaitChange
deriving DecidableEq

/-- The delays between attempts. -/
structure Backoff where
  /-- The first delay. -/
  base : Duration := Duration.ofSeconds 5
  /-- The greatest delay. -/
  limit : Duration := Duration.ofSeconds 3600

/-- The greatest number of doublings. -/
def Backoff.doublings : Nat := 31

/-- The delay before an attempt, counted from one. -/
def Backoff.delay (b : Backoff) (attempt : Nat) : Duration :=
  min (b.base.scale (Nat.pow 2 (min (attempt - 1) Backoff.doublings))) b.limit

/-- When to try again after the given number of failures in a row. -/
def Backoff.requeue (b : Backoff) (attempt : Nat) : ErrorKind → Requeue
  | .permanent => .awaitChange
  | .transient => .after (b.delay attempt)

/-- Failures in a row, by key; a key without failures is not kept. -/
structure Failures where
  /-- The counts. -/
  counts : StringMap Nat

namespace Failures

/-- No failures. -/
def none : Failures := ⟨.empty⟩

/-- The failures of a key in a row. -/
def count (f : Failures) (key : String) : Nat := (f.counts.get? key).getD 0

/-- One more failure of a key.  Counts have 32 bits. -/
def increment (f : Failures) (key : String) : Failures :=
  ⟨f.counts.insert key ((f.count key + 1) % 0x1_0000_0000)⟩

/-- The failures of a key forgotten. -/
def reset (f : Failures) (key : String) : Failures := ⟨f.counts.erase key⟩

end Failures

end ConnectorKeeper
