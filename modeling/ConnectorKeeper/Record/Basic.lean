import ConnectorKeeper.Metadata

/-!
# Records

A record is the desired state of one connector: the cluster it lives on, its
configuration, and the status last reported.  Its life has three stages, told
from the record alone.

* Adopting: the record has no finalizer of ours yet.
* Synced: it has the finalizer, so its connector may exist.
* Deleting: its owner has asked for its removal.
-/

namespace ConnectorKeeper

/-- The configuration of a connector. -/
abbrev Config := StringMap String

/-- The configuration key of the connector's name. -/
def nameKey : String := "name"

/-- The configuration key of the connector's class. -/
def classKey : String := "connector.class"

/-- The path of a configuration key. -/
def configPath (key : String) : String := "spec.config." ++ key

/-- The finalizer that keeps a record until its connector is gone. -/
def finalizer : String := "debeziumconnector.finalizers.api.debezium"

/-- What the owner wants. -/
structure Spec where
  /-- The address of the cluster. -/
  host : String
  /-- The configuration of the connector. -/
  config : Config
deriving DecidableEq

/-- What the connector was last seen doing. -/
inductive Phase where
  /-- It works. -/
  | running
  /-- It is paused. -/
  | paused
  /-- It or one of its tasks failed. -/
  | taskFailed
  /-- Nobody knows. -/
  | unknown
deriving DecidableEq, Repr

/-- A statement about a record and its reason. -/
structure Condition where
  /-- What the statement is about. -/
  type : String
  /-- Whether it holds: `True`, `False` or `Unknown`. -/
  status : String
  /-- The reason, as one word. -/
  reason : String
  /-- The reason, for people. -/
  message : String
  /-- When `status` last changed. -/
  lastTransitionTime : String
deriving DecidableEq, Repr

/-- What is reported about a record. -/
structure Status where
  /-- The phase of the connector. -/
  phase : Phase
  /-- The statements, at most one of a type unless others write them. -/
  conditions : List Condition
deriving DecidableEq, Repr

/-- The status of a record that has none. -/
def Status.initial : Status := ⟨.unknown, []⟩

/-- The desired state of one connector. -/
structure Record where
  /-- The metadata. -/
  metadata : Metadata
  /-- What the owner wants. -/
  spec : Spec
  /-- What was last reported. -/
  status : Option Status

/-- The stage of a record's life. -/
inductive Lifecycle where
  /-- Its removal was asked for. -/
  | deleting
  /-- It has no finalizer of ours. -/
  | adopting
  /-- It has the finalizer. -/
  | synced
deriving DecidableEq, Repr

namespace Record

/-- The name of the record's connector. -/
def connectorName (r : Record) : Option String := r.spec.config.get? nameKey

/-- Whether the owner has asked for the record's removal. -/
def deletionRequested (r : Record) : Bool := r.metadata.deletionTimestamp.isSome

/-- The finalizers of the record. -/
def finalizers (r : Record) : List String := r.metadata.finalizers.getD []

/-- Whether our finalizer is among them. -/
def finalizerPresent (r : Record) : Bool := r.finalizers.contains finalizer

/-- The status, or that of a record without one. -/
def currentStatus (r : Record) : Status := r.status.getD .initial

/-- The stage of the record's life. -/
def lifecycle (r : Record) : Lifecycle :=
  if r.deletionRequested then .deleting
  else if r.finalizerPresent then .synced
  else .adopting

/-- The name of the record, or the start of it where the server chooses the rest. -/
def anyName (r : Record) : String :=
  (r.metadata.name.or r.metadata.generateName).getD ""

/-- The key under which failures of the record are counted. -/
def key (r : Record) : String := r.metadata.namespaceName.getD "" ++ "/" ++ r.anyName

end Record

end ConnectorKeeper
