import Rollout.Artifact.Coordinates
import Rollout.Artifact.History
import Rollout.Artifact.Kind
import Rollout.Artifact.Reference
import Rollout.Artifact.Registry
import Rollout.Artifact.Store
import Rollout.Config
import Rollout.Coordinator
import Rollout.Deployer.Basic
import Rollout.Deployer.History
import Rollout.Deployer.Memory
import Rollout.Document.Basic
import Rollout.Document.Values
import Rollout.Event
import Rollout.Fault
import Rollout.Json.Leading
import Rollout.Json.RoundTrip
import Rollout.Json.Scan
import Rollout.Json.Text
import Rollout.Json.Token
import Rollout.Json.Value
import Rollout.Lifecycle
import Rollout.Linear
import Rollout.Partition
import Rollout.Pipeline.Basic
import Rollout.Pipeline.Stage
import Rollout.Plan
import Rollout.Proofs.Asking
import Rollout.Proofs.BuildingPipelines
import Rollout.Proofs.Consulted
import Rollout.Proofs.CoordinatesGrammar
import Rollout.Proofs.CoordinatesText
import Rollout.Proofs.DecodedPipelines
import Rollout.Proofs.DeployEndings
import Rollout.Proofs.EventRecord
import Rollout.Proofs.ExactTakedown
import Rollout.Proofs.FirstFault
import Rollout.Proofs.Holdings
import Rollout.Proofs.IncludedLibraries
import Rollout.Proofs.InstanceCounts
import Rollout.Proofs.LatestRequests
import Rollout.Proofs.LeftOutSettings
import Rollout.Proofs.LinearPlans
import Rollout.Proofs.Listening
import Rollout.Proofs.ListingGrammar
import Rollout.Proofs.ListingReadBack
import Rollout.Proofs.Neighbours
import Rollout.Proofs.OccurringStates
import Rollout.Proofs.OneHop
import Rollout.Proofs.PartitionAgreement
import Rollout.Proofs.PlanContents
import Rollout.Proofs.PlanFaults
import Rollout.Proofs.PlanShape
import Rollout.Proofs.PropagatingAgain
import Rollout.Proofs.ReadingBack
import Rollout.Proofs.RecordFields
import Rollout.Proofs.Registering
import Rollout.Proofs.Remembering
import Rollout.Proofs.Replanning
import Rollout.Proofs.Separation
import Rollout.Proofs.SettledLibraries
import Rollout.Proofs.Shares
import Rollout.Proofs.SideBySide
import Rollout.Proofs.Starting
import Rollout.Proofs.StatusAfterDeploy
import Rollout.Proofs.TakingDown
import Rollout.Proofs.TakingDownEach
import Rollout.Proofs.Teardown
import Rollout.Proofs.Traversal
import Rollout.Properties.Basic
import Rollout.Properties.Listing
import Rollout.Properties.Scope
import Rollout.Session
import Rollout.SortedMap
import Rollout.State
import Rollout.Status
import Rollout.Text.Blank
import Rollout.Text.Bytes
import Rollout.Text.Decimal
import Rollout.Text.Pattern
import Rollout.Text.Pieces
