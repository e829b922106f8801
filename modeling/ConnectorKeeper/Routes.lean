import ConnectorKeeper.Metrics

/-!
# Routes that are read

The probes, which tell whether the process lives and whether it is ready, and
the page with the metrics.  Both are read with `GET`, and with `HEAD` without
their content.
-/

namespace ConnectorKeeper.Routes

/-- A response as a probe or a scraper sees it. -/
structure Page where
  /-- The status. -/
  status : Nat
  /-- The media type, empty if there is none. -/
  contentType : String
  /-- The lines of the body. -/
  lines : List String
deriving DecidableEq

/-- A page of no content. -/
def bare (status : Nat) : Page := ⟨status, "", []⟩

/-- The path of a target, without its query. -/
def pathOf (target : String) : String := String.ofList (target.toList.takeWhile (· ≠ '?'))

/-- A page that is read; `HEAD` leaves out its lines. -/
def reading (method : String) (page : Page) : Page :=
  if method = "GET" then page
  else if method = "HEAD" then { page with lines := [] }
  else bare 405

/-- The probes: one succeeds always, the other once the start is complete. -/
def probe (started : Bool) (method target : String) : Page :=
  match pathOf target with
  | "/healthz" => reading method (bare 200)
  | "/readyz" => reading method (bare (if started then 200 else 503))
  | _ => bare 404

/-- The page with the metrics. -/
def metrics (m : Metrics) (method target : String) : Page :=
  if pathOf target = "/metrics" then reading method ⟨200, Metrics.contentType, m.lines⟩
  else bare 404

end ConnectorKeeper.Routes
