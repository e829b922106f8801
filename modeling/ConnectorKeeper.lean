import ConnectorKeeper.Admission.Decision
import ConnectorKeeper.Admission.Review
import ConnectorKeeper.Admission.Route
import ConnectorKeeper.Api.Client
import ConnectorKeeper.Certificate.Bootstrap
import ConnectorKeeper.Certificate.Bundle
import ConnectorKeeper.Certificate.Curve
import ConnectorKeeper.Certificate.Der
import ConnectorKeeper.Certificate.PrivateKey
import ConnectorKeeper.Certificate.Tls
import ConnectorKeeper.Certificate.Webhook
import ConnectorKeeper.CommandLine
import ConnectorKeeper.Connect.Client
import ConnectorKeeper.Connect.Request
import ConnectorKeeper.Connect.Runtime
import ConnectorKeeper.Decimal.Shortest
import ConnectorKeeper.Decision
import ConnectorKeeper.Duration
import ConnectorKeeper.Files
import ConnectorKeeper.Finalizer
import ConnectorKeeper.Http
import ConnectorKeeper.Json.Basic
import ConnectorKeeper.Json.Decoder
import ConnectorKeeper.Json.MergePatch
import ConnectorKeeper.Json.Parser
import ConnectorKeeper.Json.Printer
import ConnectorKeeper.Json.Yaml
import ConnectorKeeper.Leader.Election
import ConnectorKeeper.Leader.Lease
import ConnectorKeeper.Leader.Settings
import ConnectorKeeper.Main
import ConnectorKeeper.Metadata
import ConnectorKeeper.Metrics
import ConnectorKeeper.Neighbour
import ConnectorKeeper.Net.Address
import ConnectorKeeper.Net.SocketAddress
import ConnectorKeeper.Program
import ConnectorKeeper.Proofs.AcceptedSpecs
import ConnectorKeeper.Proofs.Accounting
import ConnectorKeeper.Proofs.Addressing
import ConnectorKeeper.Proofs.Admitted
import ConnectorKeeper.Proofs.BasePaths
import ConnectorKeeper.Proofs.Calendar
import ConnectorKeeper.Proofs.ClusterRequests
import ConnectorKeeper.Proofs.ConditionMerges
import ConnectorKeeper.Proofs.Configurations
import ConnectorKeeper.Proofs.Convergence
import ConnectorKeeper.Proofs.Decoding
import ConnectorKeeper.Proofs.DelayWords
import ConnectorKeeper.Proofs.Deletion
import ConnectorKeeper.Proofs.Encodings
import ConnectorKeeper.Proofs.Exchanges
import ConnectorKeeper.Proofs.FailsClosed
import ConnectorKeeper.Proofs.FaithfulPass
import ConnectorKeeper.Proofs.FaithfulWorld
import ConnectorKeeper.Proofs.FieldTrees
import ConnectorKeeper.Proofs.FinalizerUpdates
import ConnectorKeeper.Proofs.History
import ConnectorKeeper.Proofs.Interleaving
import ConnectorKeeper.Proofs.Isolation
import ConnectorKeeper.Proofs.LeaderEnds
import ConnectorKeeper.Proofs.LeaseIdle
import ConnectorKeeper.Proofs.Moves
import ConnectorKeeper.Proofs.NamelessRelease
import ConnectorKeeper.Proofs.NoOrphan
import ConnectorKeeper.Proofs.OwnFields
import ConnectorKeeper.Proofs.PassHistories
import ConnectorKeeper.Proofs.PassPairs
import ConnectorKeeper.Proofs.PassQuestions
import ConnectorKeeper.Proofs.PassWalk
import ConnectorKeeper.Proofs.Percent
import ConnectorKeeper.Proofs.PrintedTexts
import ConnectorKeeper.Proofs.Questions
import ConnectorKeeper.Proofs.RecordPatch
import ConnectorKeeper.Proofs.ReportedErrors
import ConnectorKeeper.Proofs.RequestProtocol
import ConnectorKeeper.Proofs.Requeues
import ConnectorKeeper.Proofs.ReturnedConfigs
import ConnectorKeeper.Proofs.Routing
import ConnectorKeeper.Proofs.Schedules
import ConnectorKeeper.Proofs.Segments
import ConnectorKeeper.Proofs.ServedCertificate
import ConnectorKeeper.Proofs.SetupReplicas
import ConnectorKeeper.Proofs.SetupStages
import ConnectorKeeper.Proofs.StatusBlind
import ConnectorKeeper.Proofs.SteadyState
import ConnectorKeeper.Proofs.StoredCertificate
import ConnectorKeeper.Proofs.StoredDocuments
import ConnectorKeeper.Proofs.Surroundings
import ConnectorKeeper.Proofs.Targets
import ConnectorKeeper.Proofs.WrittenMembers
import ConnectorKeeper.Proofs.WrittenMetadata
import ConnectorKeeper.Proofs.WrittenRecords
import ConnectorKeeper.Reconcile.Controller
import ConnectorKeeper.Reconcile.Error
import ConnectorKeeper.Reconcile.Pass
import ConnectorKeeper.Record.Basic
import ConnectorKeeper.Record.Codec
import ConnectorKeeper.Record.Definition
import ConnectorKeeper.Retry
import ConnectorKeeper.Routes
import ConnectorKeeper.Settings
import ConnectorKeeper.Startup
import ConnectorKeeper.Status
import ConnectorKeeper.Store
import ConnectorKeeper.StringMap
import ConnectorKeeper.Text.Base64
import ConnectorKeeper.Text.Parts
import ConnectorKeeper.Text.Pem
import ConnectorKeeper.Text.Percent
import ConnectorKeeper.Text.Quoted
import ConnectorKeeper.Text.Utf8
import ConnectorKeeper.Timestamp
import ConnectorKeeper.Url.Basic
import ConnectorKeeper.Url.Domain
import ConnectorKeeper.Url.Parser
import ConnectorKeeper.Url.Segments
import ConnectorKeeper.Validation.Checks
import ConnectorKeeper.Validation.Endpoint
import ConnectorKeeper.Wire
