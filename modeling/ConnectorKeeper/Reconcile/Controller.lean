import ConnectorKeeper.Metrics
import ConnectorKeeper.Reconcile.Pass

/-!
# The controller

What is kept between passes: how often each record failed in a row, and the
counts of all passes.  After a pass the controller says when the next one is
due.
-/

namespace ConnectorKeeper

/-- How the controller was set up. -/
structure ControllerSettings where
  /-- The delay after a successful pass over a live record. -/
  resync : Duration := Duration.ofSeconds 60
  /-- The delays after failures. -/
  backoff : Backoff := {}

/-- What is kept between passes. -/
structure Controller where
  /-- Failures in a row. -/
  failures : Failures
  /-- Counts of passes. -/
  metrics : Metrics

namespace Controller

/-- The controller before any pass. -/
def initial : Controller := ⟨.none, .none⟩

/-- The controller after a pass, and when the next one is due if the pass
succeeded. -/
def recordPass (c : Controller) (r : Record) (result : Except PassError Outcome)
    (elapsed : Duration) : Controller :=
  match result with
  | .ok outcome =>
      ⟨c.failures.reset r.key, c.metrics.recordSuccess outcome.action.name elapsed⟩
  | .error e => { c with metrics := c.metrics.recordFailure e.reason elapsed }

/-- The controller after it has heeded an error, and when the next pass is due. -/
def heed (backoff : Backoff) (c : Controller) (r : Record) (e : PassError) :
    Controller × Requeue :=
  let failures := c.failures.increment r.key
  ({ c with failures }, backoff.requeue (failures.count r.key) e.kind)

/-- The controller after a pass and, if it failed, after heeding the error, with
the time of the next pass. -/
def afterPass (settings : ControllerSettings) (c : Controller) (r : Record)
    (result : Except PassError Outcome) (elapsed : Duration) : Controller × Requeue :=
  let c := c.recordPass r result elapsed
  match result with
  | .ok outcome => (c, outcome.requeue)
  | .error e => c.heed settings.backoff r e

end Controller

end ConnectorKeeper
