import ConnectorKeeper.Proofs.Questions
import ConnectorKeeper.Reconcile.Pass

/-!
# What a pass asks

Every question of a pass is about the connector that its record names, or about
the record itself (`pass_concerns`).  Only a pass over a live record creates or
updates, and only one over a record that is being deleted deletes the connector
or takes the finalizer off.  A status is written only as a report makes it of the
one that the record has (`pass_asks`).
-/

namespace ConnectorKeeper

/-- Where the connector of a record is, as host and name. -/
def Record.place (r : Record) : Option (String × String) :=
  r.connectorName.map fun name => (r.spec.host, name)

theorem Record.place_of_connectorName {r : Record} {name : String}
    (h : r.connectorName = some name) : r.place = some (r.spec.host, name) := by
  rw [place, h]
  rfl

/-- An edit that leaves the spec leaves the place. -/
theorem Record.place_congr {r r' : Record} (h : r'.spec = r.spec) : r'.place = r.place := by
  rw [place, place, connectorName, connectorName, h]

/-- The questions that a pass over a record may ask. -/
def Neighbour.Concerns (r : Record) : Neighbour → Prop
  | .lookup host name | .readConfig host name | .readStatus host name | .update host name _ =>
      host = r.spec.host ∧ r.connectorName = some name ∧ r.deletionRequested = false
  | .create host config =>
      host = r.spec.host ∧ config = r.spec.config ∧ r.connectorName.isSome ∧
        r.deletionRequested = false
  | .delete host name =>
      host = r.spec.host ∧ r.connectorName = some name ∧ r.deletionRequested = true
  | .addFinalizer r' => r' = r ∧ r.connectorName.isSome ∧ r.deletionRequested = false
  | .removeFinalizer r' => r' = r ∧ r.deletionRequested = true
  | .patchStatus r' _ => r' = r ∧ r.deletionRequested = false
  | .clock => True

/-- A status to be written is what a report makes of the record's. -/
def Neighbour.Reports (r : Record) : Neighbour → Prop
  | .patchStatus _ status => ∃ phase reason message now,
      status = r.currentStatus.next phase (.synced reason message now)
  | _ => True

section Concerns

open Program

variable {r : Record} {name : String}

/-- Looking at a connector asks about the one that the record names. -/
theorem observe_asks (hname : r.connectorName = some name)
    (hlive : r.deletionRequested = false) :
    (observe r.spec.host name).OnlyAsks fun n => n.Concerns r ∧ n.Reports r := by
  refine onlyAsks_ask ⟨⟨rfl, hname, hlive⟩, trivial⟩ fun found => ?_
  rcases found with _ | _ | _
  · exact onlyAsks_done _
  · refine onlyAsks_ask ⟨⟨rfl, hname, hlive⟩, trivial⟩ fun config => ?_
    rcases config with _ | _
    · exact onlyAsks_done _
    · exact onlyAsks_ask ⟨⟨rfl, hname, hlive⟩, trivial⟩ fun _ => onlyAsks_done _
  · exact onlyAsks_done _

theorem finish_asks (resync : Duration) (hlive : r.deletionRequested = false)
    (action : Action) (phase : Phase) (reason message : String) :
    (finish resync r action phase reason message).OnlyAsks fun n => n.Concerns r ∧ n.Reports r := by
  refine onlyAsks_bind (onlyAsks_ask ⟨trivial, trivial⟩ fun now => ?_) fun _ => onlyAsks_done _
  dsimp only
  split
  · exact onlyAsks_done _
  · refine onlyAsks_ask ⟨⟨rfl, hlive⟩, phase, reason, message, _, rfl⟩ fun written => ?_
    rcases written with _ | _ <;> exact onlyAsks_done _

/-- Creating, updating and leaving alone concern the connector that was looked at. -/
theorem converge_asks (resync : Duration) (hname : r.connectorName = some name)
    (hlive : r.deletionRequested = false) (seen : Observation) :
    (converge resync r name seen).OnlyAsks fun n => n.Concerns r ∧ n.Reports r := by
  unfold converge
  split
  · refine onlyAsks_ask ⟨⟨rfl, rfl, by rw [hname]; rfl, hlive⟩, trivial⟩ fun created => ?_
    rcases created with _ | _
    · exact onlyAsks_done _
    · exact finish_asks resync hlive _ _ _ _
  · refine onlyAsks_ask ⟨⟨rfl, hname, hlive⟩, trivial⟩ fun updated => ?_
    rcases updated with _ | _
    · exact onlyAsks_done _
    · exact finish_asks resync hlive _ _ _ _
  · exact finish_asks resync hlive _ _ _ _

theorem sync_asks (resync : Duration) (hlive : r.deletionRequested = false) :
    (sync resync r).OnlyAsks fun n => n.Concerns r ∧ n.Reports r := by
  unfold sync
  split
  · exact onlyAsks_done _
  · next name hname =>
    refine onlyAsks_bind (observe_asks hname hlive) fun seen => ?_
    rcases seen with _ | seen
    · exact onlyAsks_done _
    · exact converge_asks resync hname hlive seen

theorem adopt_asks (resync : Duration) (hlive : r.deletionRequested = false) :
    (adopt resync r).OnlyAsks fun n => n.Concerns r ∧ n.Reports r := by
  unfold adopt
  split
  · exact onlyAsks_done _
  · next name hname =>
    refine onlyAsks_bind ?_ fun registered => ?_
    · unfold Finalizer.ensure
      split
      · exact onlyAsks_done _
      · refine onlyAsks_ask ⟨⟨rfl, by rw [hname]; rfl, hlive⟩, trivial⟩ fun added => ?_
        rcases added with _ | _ <;> exact onlyAsks_done _
    · rcases registered with _ | _
      · exact onlyAsks_done _
      · exact sync_asks resync hlive

/-- Letting go changes the record alone, one that is being deleted. -/
theorem letGo_asks (hdeleting : r.deletionRequested = true) (known : Cleanup) :
    (letGo r known).OnlyAsks fun n => n.Concerns r ∧ n.Reports r := by
  refine onlyAsks_bind ?_ fun released => ?_
  · unfold Finalizer.release
    split
    · exact onlyAsks_done _
    · split
      · exact onlyAsks_done _
      · refine onlyAsks_ask ⟨⟨rfl, hdeleting⟩, trivial⟩ fun removed => ?_
        rcases removed with _ | _ <;> exact onlyAsks_done _
  · rcases released with _ | _ <;> exact onlyAsks_done _

/-- A cleanup deletes the connector that the record names, and lets the record go. -/
theorem cleanup_asks (hdeleting : r.deletionRequested = true) :
    (cleanup r).OnlyAsks fun n => n.Concerns r ∧ n.Reports r := by
  unfold cleanup
  split
  · split
    · exact letGo_asks hdeleting _
    · next name hname =>
      refine onlyAsks_ask ⟨⟨rfl, hname, hdeleting⟩, trivial⟩ fun deleted => ?_
      rcases deleted with e | _
      · dsimp only
        split
        · exact letGo_asks hdeleting _
        · exact onlyAsks_done _
      · exact letGo_asks hdeleting _
  · exact onlyAsks_done _

/-- All questions of a pass are about its record, and its reports are made of the status
there. -/
theorem pass_asks (resync : Duration) (r : Record) :
    (pass resync r).OnlyAsks fun n => n.Concerns r ∧ n.Reports r := by
  unfold pass Record.lifecycle
  cases hdeleting : r.deletionRequested with
  | true => exact cleanup_asks hdeleting
  | false =>
    cases r.finalizerPresent with
    | true => exact sync_asks resync hdeleting
    | false => exact adopt_asks resync hdeleting

/-- A pass keeps to its record. -/
theorem pass_concerns (resync : Duration) (r : Record) :
    (pass resync r).OnlyAsks (·.Concerns r) :=
  fun n hn => (pass_asks resync r n hn).1

theorem sync_concerns (resync : Duration) (hlive : r.deletionRequested = false) :
    (sync resync r).OnlyAsks (·.Concerns r) :=
  fun n hn => (sync_asks resync hlive n hn).1

theorem letGo_concerns (hdeleting : r.deletionRequested = true) (known : Cleanup) :
    (letGo r known).OnlyAsks (·.Concerns r) :=
  fun n hn => (letGo_asks hdeleting known n hn).1

end Concerns

end ConnectorKeeper
