import ConnectorKeeper.Connect.Request
import ConnectorKeeper.Connect.Runtime

/-!
# Managing connectors

The six operations on the connectors of a cluster.  Each is one request, and
each expects certain statuses.

* look up: `GET /connectors/NAME`, 200 for present and 404 for absent
* read the configuration: `GET /connectors/NAME/config`, 200
* create: `POST /connectors`, 200 or 201
* replace the configuration: `PUT /connectors/NAME/config`, 200
* delete: `DELETE /connectors/NAME`, 200 or 204
* read the runtime status: `GET /connectors/NAME/status`, 200
-/

namespace ConnectorKeeper

/-- Whether a connector exists. -/
inductive Presence where
  /-- It does. -/
  | present
  /-- It does not. -/
  | absent
deriving DecidableEq, Repr

namespace Connect

/-- Accepts certain statuses and takes nothing from the response. -/
def accept (operation : String) (statuses : List Nat) (response : Http.Response) :
    Except ClusterError Unit :=
  if statuses.contains response.status then .ok () else .error (unexpected operation response)

/-- Accepts status 200 and reads the body. -/
def acceptBody {α : Type} (operation : String) (decoder : Json.Decoder α)
    (response : Http.Response) : Except ClusterError α :=
  if response.status = 200 then decodeBody operation (Json.decodeText? decoder) response
  else .error (unexpected operation response)

/-- Whether there is a connector of the name.  Only 404 means that there is none. -/
def lookup (host name : String) : Talk (Except ClusterError Presence) :=
  exchange host ["connectors", name] .get none fun response =>
    if response.status = 200 then .ok .present
    else if response.status = 404 then .ok .absent
    else .error (unexpected "exists" response)

/-- The configuration that a connector runs with. -/
def readConfig (host name : String) : Talk (Except ClusterError Config) :=
  exchange host ["connectors", name, "config"] .get none (acceptBody "get_config" configDecoder)

/-- The body of a request that names a connector and gives its configuration. -/
def namedConfig (config : Config) : Json :=
  .record [("name", .text ((config.get? nameKey).getD "")), ("config", configJson config)]

/-- Creates the connector that a configuration names. -/
def create (host : String) (config : Config) : Talk (Except ClusterError Unit) :=
  exchange host ["connectors"] .post (some (namedConfig config)) (accept "create" [200, 201])

/-- Replaces the configuration of a connector. -/
def update (host name : String) (config : Config) : Talk (Except ClusterError Unit) :=
  exchange host ["connectors", name, "config"] .put (some (configJson config))
    (accept "update" [200])

/-- Deletes a connector. -/
def delete (host name : String) : Talk (Except ClusterError Unit) :=
  exchange host ["connectors", name] .delete none (accept "delete" [200, 204])

/-- What a connector and its tasks are doing. -/
def readStatus (host name : String) : Talk (Except ClusterError RuntimeStatus) :=
  exchange host ["connectors", name, "status"] .get none
    (acceptBody "status" RuntimeStatus.decoder)

end Connect

end ConnectorKeeper
