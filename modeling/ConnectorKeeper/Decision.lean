import ConnectorKeeper.Connect.Runtime
import ConnectorKeeper.Record.Basic

/-!
# Decisions

What a pass does to a connector, chosen from the wanted configuration and the
connector that was observed.  A configuration that differs in any key or any
character of a value counts as drift.
-/

namespace ConnectorKeeper

/-- What a pass does to a connector. -/
inductive Action where
  /-- Nothing. -/
  | noAction
  /-- It is created. -/
  | create
  /-- Its configuration is replaced. -/
  | update
  /-- It is deleted. -/
  | delete
deriving DecidableEq, Repr

/-- The name of an action, as counters are labelled with it. -/
def Action.name : Action → String
  | .noAction => "no_action"
  | .create => "create"
  | .update => "update"
  | .delete => "delete"

/-- A connector as it was observed. -/
structure Observation where
  /-- Whether the connector exists. -/
  found : Bool
  /-- Its configuration, if it was read. -/
  config : Option Config
  /-- What it is doing, if that could be read. -/
  runtime : Option RuntimeStatus

/-- The observation of no connector. -/
def Observation.absent : Observation := ⟨false, none, none⟩

/-- The observation of a connector with a configuration. -/
def Observation.present (config : Config) : Observation := ⟨true, some config, none⟩

/-- Whether two configurations are the same: equally many keys, and every key of
the one has its value in the other. -/
def sameConfig (desired observed : Config) : Bool :=
  desired.size == observed.size &&
    desired.toList.all fun e => observed.get? e.1 == some e.2

/-- The action that brings what was observed to what is wanted. -/
def Action.choose (desired : Config) (seen : Observation) : Action :=
  if seen.found then
    match seen.config with
    | some active => if sameConfig desired active then .noAction else .update
    | none => .update
  else .create

end ConnectorKeeper
