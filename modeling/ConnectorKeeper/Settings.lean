import ConnectorKeeper.Certificate.Bundle
import ConnectorKeeper.Leader.Settings
import ConnectorKeeper.Net.SocketAddress
import ConnectorKeeper.Reconcile.Controller
import ConnectorKeeper.Text.Quoted

/-!
# Settings

All that can be chosen when the program is started, with what it is if nobody
chooses.  The settings of the parts of the program are read off here.
-/

namespace ConnectorKeeper

open Net (SocketAddress)

/-- What the program is asked to do. -/
inductive Command where
  /-- To keep connectors. -/
  | run
  /-- To print the definition of the kind of records. -/
  | crd
deriving DecidableEq, Repr

/-- All that can be chosen. -/
structure Settings where
  /-- What to do, to keep connectors if it is not said. -/
  command : Option Command := none
  /-- Where health is told. -/
  probeAddress : SocketAddress := .onAll 8081
  /-- Where metrics are told, as it was written. -/
  metricsAddress : String := "0.0.0.0:8080"
  /-- Whether metrics are told over TLS. -/
  metricsSecure : Bool := false
  /-- The port of the webhook. -/
  webhookPort : UInt16 := 8443
  /-- The directory of certificate and key. -/
  certificateDirectory : String := "/tmp/certs"
  /-- The service that the webhook is reached by. -/
  serviceName : String := "debezium-operator"
  /-- The namespace of the program. -/
  namespaceName : String := "debezium-operator-ns"
  /-- The secret of the certificate. -/
  secretName : String := "debezium-operator-tls"
  /-- The webhook's entry in its configuration. -/
  webhookName : String := "vdebeziumconnector.api.debezium.io"
  /-- The webhook's configuration. -/
  webhookConfigName : String := "debeziumconnectors-validating-webhook"
  /-- Whether HTTP/2 is spoken too. -/
  http2 : Bool := false
  /-- Whether replicas elect a leader. -/
  electsLeader : Bool := false
  /-- The lease of the leader. -/
  leaseName : String := "7b7a467c.debezium"
  /-- The name of this replica. -/
  podName : Option String := none
  /-- How long a lease runs, in seconds. -/
  leaseSeconds : UInt64 := 15
  /-- The time between renewals of the lease, in seconds. -/
  renewSeconds : UInt64 := 5
  /-- How long to wait for a cluster, in seconds. -/
  connectSeconds : UInt64 := 10
  /-- The delay after a successful pass, in seconds. -/
  resyncSeconds : UInt64 := 60
  /-- The number of passes at one time, zero for no limit. -/
  concurrency : UInt16 := 0
deriving DecidableEq, Repr

/-- Why settings do not fit together. -/
inductive SettingsError where
  /-- The address of the metrics is none. -/
  | metricsAddress (written : String)
  /-- A replica without a name cannot lead. -/
  | namelessReplica
  /-- The settings of the election. -/
  | leader (error : LeaderSettingsError)
deriving DecidableEq

/-- The message of an error. -/
def SettingsError.message : SettingsError → String
  | .metricsAddress written => "invalid metrics bind address " ++ Text.quoted written
  | .namelessReplica => "POD_NAME required when leader election is enabled"
  | .leader e => e.message

namespace Settings

/-- Where the webhook listens. -/
def webhookAddress (s : Settings) : SocketAddress := .onAll s.webhookPort

/-- Where metrics are told: nowhere for a zero, on all addresses for a port
alone. -/
def metricsListener (s : Settings) : Except SettingsError (Option SocketAddress) :=
  if s.metricsAddress = "0" then .ok none
  else
    let full := if s.metricsAddress.startsWith ":" then "0.0.0.0" ++ s.metricsAddress
      else s.metricsAddress
    match SocketAddress.parse? full with
    | some a => .ok (some a)
    | none => .error (.metricsAddress s.metricsAddress)

/-- How long to wait for a cluster. -/
def connectTimeout (s : Settings) : Duration := .ofSeconds s.connectSeconds.toNat

/-- The settings of the controller. -/
def controller (s : Settings) : ControllerSettings := { resync := .ofSeconds s.resyncSeconds.toNat }

/-- The settings of the webhook's certificate. -/
def certificate (s : Settings) : CertificateSettings :=
  { namespaceName := s.namespaceName
    serviceName := s.serviceName
    secretName := s.secretName
    directory := s.certificateDirectory
    webhookName := s.webhookName
    webhookConfigName := s.webhookConfigName }

/-- The settings of the election, if there is one. -/
def leader (s : Settings) : Except SettingsError (Option LeaderSettings) :=
  if !s.electsLeader then .ok none
  else match s.podName with
    | none => .error .namelessReplica
    | some holder =>
        match LeaderSettings.make s.leaseName s.namespaceName holder
            (.ofSeconds s.leaseSeconds.toNat) (.ofSeconds s.renewSeconds.toNat) with
        | .ok l => .ok (some l)
        | .error e => .error (.leader e)

end Settings

end ConnectorKeeper
