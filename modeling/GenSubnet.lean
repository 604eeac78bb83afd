import GenSubnet.Auth.Authenticator
import GenSubnet.Auth.NonceTable
import GenSubnet.Auth.Replay
import GenSubnet.Collector.Admission
import GenSubnet.Collector.Isolation
import GenSubnet.Collector.LatestReveal
import GenSubnet.Collector.PromptSelection
import GenSubnet.Collector.Submission
import GenSubnet.Competition.BatchedWrites
import GenSubnet.Competition.Batches
import GenSubnet.Competition.GitBatcher
import GenSubnet.Competition.Overwrites
import GenSubnet.Competition.OwnReads
import GenSubnet.Competition.PromptIds
import GenSubnet.Competition.Readiness
import GenSubnet.Competition.Repository
import GenSubnet.Competition.Services
import GenSubnet.Competition.StageRun
import GenSubnet.Competition.State
import GenSubnet.Credential.Assignments
import GenSubnet.Credential.Circuit
import GenSubnet.Credential.Constraints
import GenSubnet.Credential.Soundness
import GenSubnet.Gateway.Activation
import GenSubnet.Gateway.Allocator
import GenSubnet.Gateway.Consistency
import GenSubnet.Gateway.Creates
import GenSubnet.Gateway.Fencing
import GenSubnet.Gateway.Footprint
import GenSubnet.Gateway.Inventory
import GenSubnet.Gateway.Leases
import GenSubnet.Gateway.Middleware
import GenSubnet.Gateway.Pins
import GenSubnet.Gateway.QueueJournal
import GenSubnet.Gateway.RequestRate
import GenSubnet.Gateway.Rounds
import GenSubnet.Gateway.Selection
import GenSubnet.Gateway.Spent
import GenSubnet.Gateway.StartQueue
import GenSubnet.Gateway.Worker
import GenSubnet.Judge.Duel
import GenSubnet.Judge.Finality
import GenSubnet.Judge.Finalization
import GenSubnet.Judge.MatchBound
import GenSubnet.Judge.MatchExecution
import GenSubnet.Judge.MatchReports
import GenSubnet.Judge.PngReader
import GenSubnet.Judge.PositionalBias
import GenSubnet.Judge.RoundRunner
import GenSubnet.Judge.SideGuard
import GenSubnet.Judge.Symmetry
import GenSubnet.Judge.Timeline
import GenSubnet.Library.Binary64
import GenSubnet.Library.ByteText
import GenSubnet.Library.Cell
import GenSubnet.Library.ChaCha20
import GenSubnet.Library.Datetime
import GenSubnet.Library.Decimal
import GenSubnet.Library.Dict
import GenSubnet.Library.DictOrder
import GenSubnet.Library.Effects
import GenSubnet.Library.Hex
import GenSubnet.Library.Journal
import GenSubnet.Library.JsNumber
import GenSubnet.Library.JsonText
import GenSubnet.Library.Objects
import GenSubnet.Library.Optimistic
import GenSubnet.Library.Parallel
import GenSubnet.Library.PngFormat
import GenSubnet.Library.PythonJson
import GenSubnet.Library.PythonUrl
import GenSubnet.Library.Rounding
import GenSubnet.Library.TextLines
import GenSubnet.Library.Transition
import GenSubnet.Library.Traversal
import GenSubnet.Library.UnicodeText
import GenSubnet.Library.Versioned
import GenSubnet.Render.Accepted
import GenSubnet.Render.Attribution
import GenSubnet.Render.CapabilityBoundary
import GenSubnet.Render.FreeIdentifiers
import GenSubnet.Render.PropertyReads
import GenSubnet.Render.ReportBounds
import GenSubnet.Render.SafeThree
import GenSubnet.Render.SceneLimits
import GenSubnet.Render.SceneValidation
import GenSubnet.Render.StaticAnalysis
import GenSubnet.Render.ValidationPool
import GenSubnet.Render.ValidationReport
import GenSubnet.Render.ValidatorAgreement
import GenSubnet.RoundManager.NextStart
import GenSubnet.RoundManager.PreviousStart
import GenSubnet.RoundManager.Schedule
import GenSubnet.RoundManager.Windows
import GenSubnet.Runtime.Persistence
import GenSubnet.Runtime.Program
import GenSubnet.Runtime.Recording
import GenSubnet.Runtime.Replay
import GenSubnet.Runtime.Resumption
import GenSubnet.Runtime.Schedule
import GenSubnet.Runtime.Sessions
import GenSubnet.Runtime.Traces
import GenSubnet.Tls.Coverage
import GenSubnet.Tls.Exchange
import GenSubnet.Tls.Honest
import GenSubnet.Tls.Records
import GenSubnet.Tls.Verifier
import GenSubnet.Witness.Artifacts
import GenSubnet.Witness.Budget
import GenSubnet.Witness.Channel
import GenSubnet.Witness.CompletedResponse
import GenSubnet.Witness.Dispatch
import GenSubnet.Witness.EventStream
import GenSubnet.Witness.Orphans
import GenSubnet.Witness.PodAdmission
import GenSubnet.Witness.PodRuntime
import GenSubnet.Witness.Pods
import GenSubnet.Witness.PoolService
import GenSubnet.Witness.Pricing
import GenSubnet.Witness.ProofPool
import GenSubnet.Witness.Reconstruction
import GenSubnet.Witness.Records
import GenSubnet.Witness.Relay
import GenSubnet.Witness.Release
import GenSubnet.Witness.RepeatedSettlement
import GenSubnet.Witness.RequestFraming
import GenSubnet.Witness.ResponseFraming
import GenSubnet.Witness.Settlement
import GenSubnet.Witness.StreamDecoding
import GenSubnet.Witness.SubmissionIndex
import GenSubnet.Witness.WriteOnce
