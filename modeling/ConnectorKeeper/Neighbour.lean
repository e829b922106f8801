import ConnectorKeeper.Connect.Client
import ConnectorKeeper.Store

/-!
# Neighbours

What a pass asks of the two systems beside it, in the terms of the domain: the
cluster is asked about connectors, the store is told to change records, and the
clock is read.  `Neighbour.overWire` answers each question by exchanges on the
wire; a model of the two systems may answer them directly.
-/

namespace ConnectorKeeper

/-- A question of a pass. -/
inductive Neighbour where
  /-- Whether a connector exists. -/
  | lookup (host name : String)
  /-- The configuration of a connector. -/
  | readConfig (host name : String)
  /-- What a connector is doing. -/
  | readStatus (host name : String)
  /-- The creation of a connector. -/
  | create (host : String) (config : Config)
  /-- The replacement of a connector's configuration. -/
  | update (host name : String) (config : Config)
  /-- The deletion of a connector. -/
  | delete (host name : String)
  /-- The addition of our finalizer. -/
  | addFinalizer (record : Record)
  /-- The removal of our finalizer. -/
  | removeFinalizer (record : Record)
  /-- The replacement of a record's status. -/
  | patchStatus (record : Record) (status : Status)
  /-- The time. -/
  | clock

namespace Neighbour

/-- The answers to a question. -/
def Reply : Neighbour → Type
  | .lookup .. => Except ClusterError Presence
  | .readConfig .. => Except ClusterError Config
  | .readStatus .. => Except ClusterError RuntimeStatus
  | .create .. | .update .. | .delete .. => Except ClusterError Unit
  | .addFinalizer .. | .removeFinalizer .. | .patchStatus .. => Except StoreError Unit
  | .clock => Timestamp

/-- A question answered by exchanges on the wire. -/
def overWire : (q : Neighbour) → Talk q.Reply
  | .lookup host name => Connect.lookup host name
  | .readConfig host name => Connect.readConfig host name
  | .readStatus host name => Connect.readStatus host name
  | .create host config => Connect.create host config
  | .update host name config => Connect.update host name config
  | .delete host name => Connect.delete host name
  | .addFinalizer record => Store.addFinalizer record
  | .removeFinalizer record => Store.removeFinalizer record
  | .patchStatus record status => Store.patchStatus record status
  | .clock => Program.question Wire.clock

end Neighbour

/-- A computation that asks its neighbours. -/
abbrev Work (α : Type) := Program Neighbour Neighbour.Reply α

/-- The same computation, asking on the wire. -/
def Work.overWire {α : Type} (w : Work α) : Talk α := w.run Neighbour.overWire

end ConnectorKeeper
