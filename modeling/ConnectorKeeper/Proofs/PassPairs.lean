import ConnectorKeeper.Proofs.FinalizerUpdates

/-!
# Two passes in step

Records that differ in their status only, and in what the API server writes itself, have
one core (`Record.core`).  Two passes over them go in step (`pass_inStep`): they ask the
clusters the same questions, change the finalizers alike, and end alike, as long as they
get the same answers.  What the runtime status reads as, what time it is and what comes of
a report may be different for each of them.

The runtime status is the only answer of the three that a pass looks at again, and it does
so in its report alone: the action is chosen without it (`Action.choose_congr`).
-/

namespace ConnectorKeeper

/-- The record without its status, and without what the API server writes itself. -/
def Record.core (r : Record) : Record := { r.restamp none none none with status := none }

theorem Record.congr_core {α : Type} {f : Record → α} {r r' : Record} (h : r.core = r'.core)
    (hf : ∀ r, f r.core = f r) : f r = f r' := by
  rw [← hf r, h, hf r']

namespace Neighbour

/-- Whether a question manages a connector. -/
def manages : Neighbour → Bool
  | .lookup .. | .readConfig .. | .create .. | .update .. | .delete .. => true
  | _ => false

/-- Whether a question changes our finalizer. -/
def guards : Neighbour → Bool
  | .addFinalizer .. | .removeFinalizer .. => true
  | _ => false

/-- Whether a question is part of a report. -/
def reports : Neighbour → Bool
  | .patchStatus .. | .clock => true
  | _ => false

end Neighbour

/-- Two pieces of work go in step: they manage connectors and change finalizers alike,
whatever status each of them reads and whatever it reports. -/
inductive InStep {α β : Type} (R : α → β → Prop) : Work α → Work β → Prop
  | done {a : α} {b : β} (h : R a b) : InStep R (.done a) (.done b)
  | same {n : Neighbour} {next : n.Reply → Work α} {next' : n.Reply → Work β}
      (hn : n.manages = true) (h : ∀ reply, InStep R (next reply) (next' reply)) :
      InStep R (.ask n next) (.ask n next')
  | readStatus {host name : String} {next : Except ClusterError RuntimeStatus → Work α}
      {next' : Except ClusterError RuntimeStatus → Work β}
      (h : ∀ reply reply', InStep R (next reply) (next' reply')) :
      InStep R (.ask (.readStatus host name) next) (.ask (.readStatus host name) next')
  | addFinalizer {r r' : Record} {next : Except StoreError Unit → Work α}
      {next' : Except StoreError Unit → Work β} (hcore : r.core = r'.core)
      (h : ∀ reply, InStep R (next reply) (next' reply)) :
      InStep R (.ask (.addFinalizer r) next) (.ask (.addFinalizer r') next')
  | removeFinalizer {r r' : Record} {next : Except StoreError Unit → Work α}
      {next' : Except StoreError Unit → Work β} (hcore : r.core = r'.core)
      (h : ∀ reply, InStep R (next reply) (next' reply)) :
      InStep R (.ask (.removeFinalizer r) next) (.ask (.removeFinalizer r') next')
  | left {n : Neighbour} {next : n.Reply → Work α} {p' : Work β} (hn : n.reports = true)
      (h : ∀ reply, InStep R (next reply) p') : InStep R (.ask n next) p'
  | right {n : Neighbour} {p : Work α} {next' : n.Reply → Work β} (hn : n.reports = true)
      (h : ∀ reply, InStep R p (next' reply)) : InStep R p (.ask n next')

/-- Work in step, followed by work in step, goes on so. -/
theorem InStep.bind {α α' β β' : Type} {R : α → β → Prop} {Q : α' → β' → Prop} {p : Work α}
    {p' : Work β} {f : α → Work α'} {f' : β → Work β'} (h : InStep R p p')
    (hf : ∀ a b, R a b → InStep Q (f a) (f' b)) : InStep Q (p >>= f) (p' >>= f') := by
  induction h with
  | done h => exact hf _ _ h
  | same hn _ ih => exact .same hn ih
  | readStatus _ ih => exact .readStatus ih
  | addFinalizer hcore _ ih => exact .addFinalizer hcore ih
  | removeFinalizer hcore _ ih => exact .removeFinalizer hcore ih
  | left hn _ ih => exact .left hn ih
  | right hn _ ih => exact .right hn ih

/-- Which of the two comes first does not matter. -/
theorem InStep.symm {α β : Type} {R : α → β → Prop} {p : Work α} {p' : Work β}
    (h : InStep R p p') : InStep (flip R) p' p := by
  induction h with
  | done h => exact .done h
  | same hn _ ih => exact .same hn ih
  | readStatus _ ih => exact .readStatus fun reply reply' => ih reply' reply
  | addFinalizer hcore _ ih => exact .addFinalizer hcore.symm ih
  | removeFinalizer hcore _ ih => exact .removeFinalizer hcore.symm ih
  | left hn _ ih => exact .right hn ih
  | right hn _ ih => exact .left hn ih

/-! ## Observing -/

/-- An observation without the runtime status. -/
def Observation.blind (seen : Observation) : Observation := { seen with runtime := none }

/-- The runtime status of a connector has no say in what is done about it. -/
theorem Action.choose_congr {seen seen' : Observation} (h : seen.blind = seen'.blind)
    (desired : Config) : choose desired seen = choose desired seen' := by
  have hblind : ∀ seen, choose desired seen = choose desired seen.blind := fun _ => rfl
  rw [hblind, h, ← hblind]

/-- Two outcomes of observing a connector that differ in the runtime status at most. -/
def SeenAlike (x y : Except PassError Observation) : Prop :=
  x.map Observation.blind = y.map Observation.blind

/-- Looking at a connector twice may differ in the runtime status alone. -/
theorem observe_inStep (host name : String) :
    InStep SeenAlike (observe host name) (observe host name) := by
  refine .same rfl fun found => ?_
  rcases found with _ | _ | _
  · exact .done rfl
  · refine .same rfl fun config => ?_
    cases config with
    | error => exact .done rfl
    | ok => exact .readStatus fun _ _ => .done rfl
  · exact .done rfl

/-! ## Passes -/

section Passes

variable {r r' : Record} {resync : Duration} {name : String}

/-- However the report goes, it is followed by the end of the pass. -/
theorem finish_left {β : Type} {R : Except PassError Outcome → β → Prop} {p' : Work β}
    {action : Action} {phase : Phase} {reason message : String}
    (h : InStep R (.done (.ok ⟨action, some resync⟩)) p') :
    InStep R (finish resync r action phase reason message) p' := by
  refine .left (n := .clock) rfl fun now => ?_
  show InStep R (Program.bind (ite _ _ _) _) p'
  split
  · exact h
  · refine .left (n := .patchStatus _ _) rfl fun written => ?_
    cases written with
    | error => exact h
    | ok => exact h

theorem finish_inStep {action : Action} {phase phase' : Phase}
    {reason reason' message message' : String} :
    InStep Eq (finish resync r action phase reason message)
      (finish resync r' action phase' reason' message') := by
  -- one report may write and the other not, so each is gone through by itself
  have hright : InStep (flip Eq) (finish resync r' action phase' reason' message')
      (.done (.ok ⟨action, some resync⟩) : Step Outcome) := finish_left (.done rfl)
  exact finish_left hright.symm

/-- What brings a connector to its configuration is the same whatever its runtime status is.
-/
theorem converge_inStep {seen seen' : Observation} (hspec : r.spec = r'.spec)
    (hseen : seen.blind = seen'.blind) :
    InStep Eq (converge resync r name seen) (converge resync r' name seen') := by
  unfold converge
  rw [hspec, Action.choose_congr hseen]
  split
  · refine .same rfl fun created => ?_
    cases created with
    | error => exact .done rfl
    | ok => exact finish_inStep
  · refine .same rfl fun updated => ?_
    cases updated with
    | error => exact .done rfl
    | ok => exact finish_inStep
  · exact finish_inStep

/-- The statuses of two records that are else the same make no difference to a sync. -/
theorem sync_inStep (h : r.core = r'.core) : InStep Eq (sync resync r) (sync resync r') := by
  have hspec : r.spec = r'.spec := Record.congr_core h fun _ => rfl
  have hname : r.connectorName = r'.connectorName := Record.congr_core h fun _ => rfl
  unfold sync
  rw [hspec, hname]
  cases r'.connectorName with
  | none => exact .done rfl
  | some name =>
    refine InStep.bind (observe_inStep _ name) fun x y hseen => ?_
    cases x with
    | error e =>
      cases y with
      | error e' =>
        cases hseen
        exact .done rfl
      | ok => cases hseen
    | ok seen =>
      cases y with
      | error => cases hseen
      | ok seen' => exact converge_inStep hspec (Except.ok.inj hseen)

theorem adopt_inStep (h : r.core = r'.core) : InStep Eq (adopt resync r) (adopt resync r') := by
  have hname : r.connectorName = r'.connectorName := Record.congr_core h fun _ => rfl
  have hpresent : r.finalizerPresent = r'.finalizerPresent := Record.congr_core h fun _ => rfl
  unfold adopt Finalizer.ensure
  rw [hname, hpresent]
  cases r'.connectorName with
  | none => exact .done rfl
  | some name =>
    cases r'.finalizerPresent with
    | true => exact sync_inStep h
    | false =>
      refine .addFinalizer h fun added => ?_
      cases added with
      | error => exact .done rfl
      | ok => exact sync_inStep h

theorem letGo_inStep (h : r.core = r'.core) (known : Cleanup) :
    InStep Eq (letGo r known) (letGo r' known) := by
  have hdeleting : r.deletionRequested = r'.deletionRequested :=
    Record.congr_core h fun _ => rfl
  have hpresent : r.finalizerPresent = r'.finalizerPresent := Record.congr_core h fun _ => rfl
  unfold letGo Finalizer.release
  rw [hdeleting, hpresent]
  cases r'.deletionRequested with
  | false => exact .done rfl
  | true =>
    cases r'.finalizerPresent with
    | false => exact .done rfl
    | true =>
      refine .removeFinalizer h fun removed => ?_
      cases removed with
      | error => exact .done rfl
      | ok => exact .done rfl

/-- Nor do they to a cleanup. -/
theorem cleanup_inStep (h : r.core = r'.core) : InStep Eq (cleanup r) (cleanup r') := by
  have hspec : r.spec = r'.spec := Record.congr_core h fun _ => rfl
  have hname : r.connectorName = r'.connectorName := Record.congr_core h fun _ => rfl
  have hpresent : r.finalizerPresent = r'.finalizerPresent := Record.congr_core h fun _ => rfl
  unfold cleanup
  rw [hspec, hname, hpresent]
  cases r'.finalizerPresent with
  | false => exact .done rfl
  | true =>
    cases r'.connectorName with
    | none => exact letGo_inStep h _
    | some name =>
      refine .same rfl fun deleted => ?_
      cases deleted with
      | ok => exact letGo_inStep h _
      | error e =>
        dsimp only
        split
        · exact letGo_inStep h _
        · exact .done rfl

/-- Passes over records with one core go in step. -/
theorem pass_inStep (h : r.core = r'.core) (resync : Duration) :
    InStep Eq (pass resync r) (pass resync r') := by
  have hlifecycle : r.lifecycle = r'.lifecycle := Record.congr_core h fun _ => rfl
  unfold pass
  rw [hlifecycle]
  cases r'.lifecycle with
  | deleting => exact cleanup_inStep h
  | adopting => exact adopt_inStep h
  | synced => exact sync_inStep h

end Passes

end ConnectorKeeper
