import ReplicaRing.Bytes
import ReplicaRing.Checksum
import ReplicaRing.Cluster.Basic
import ReplicaRing.Cluster.Control
import ReplicaRing.Cluster.Network
import ReplicaRing.Cluster.Replica
import ReplicaRing.CommandLine.Arguments
import ReplicaRing.CommandLine.Directory
import ReplicaRing.CommandLine.Program
import ReplicaRing.Config.Basic
import ReplicaRing.Config.Read
import ReplicaRing.Config.Setting
import ReplicaRing.Config.Write
import ReplicaRing.Fault
import ReplicaRing.Json.Basic
import ReplicaRing.Json.Forms
import ReplicaRing.Json.Text
import ReplicaRing.Key.Range
import ReplicaRing.Liveness.Detector
import ReplicaRing.Liveness.Oracle
import ReplicaRing.Liveness.RoundTrip
import ReplicaRing.Log.Local
import ReplicaRing.Log.Value
import ReplicaRing.Main
import ReplicaRing.Node.Id
import ReplicaRing.Node.Ids
import ReplicaRing.Node.View
import ReplicaRing.Operation
import ReplicaRing.Placement
import ReplicaRing.Replication.Engine
import ReplicaRing.Routing.Router
import ReplicaRing.Routing.Stats
import ReplicaRing.Sorted.Map
import ReplicaRing.Sorted.Set
import ReplicaRing.Store.Basic
import ReplicaRing.Store.Item
import ReplicaRing.Store.Scan
import ReplicaRing.Text.Decimal
import ReplicaRing.Text.Quoted
import ReplicaRing.Time.Duration
import ReplicaRing.Time.Timers
import ReplicaRing.Toml.Number
import ReplicaRing.Toml.Parser
import ReplicaRing.Toml.Printer
import ReplicaRing.Toml.Table
import ReplicaRing.Toml.Text
import ReplicaRing.Toml.Value
import ReplicaRing.Transfer.BlockCompression
import ReplicaRing.Transfer.Exchange
import ReplicaRing.Transfer.Mover
import ReplicaRing.Transfer.Page
import ReplicaRing.Transfer.RecentSet
import ReplicaRing.Transfer.Session
import ReplicaRing.Wire.Codec
import ReplicaRing.Wire.ConnectionPool
import ReplicaRing.Wire.Format
import ReplicaRing.Wire.Frame
import ReplicaRing.Wire.Message
import ReplicaRing.Proofs.MapContents
import ReplicaRing.Proofs.KeyRanges
import ReplicaRing.Proofs.RangeInclusion
import ReplicaRing.Proofs.Paging
import ReplicaRing.Proofs.BinaryForm
import ReplicaRing.Proofs.PageForm
import ReplicaRing.Proofs.PagePayloads
import ReplicaRing.Proofs.SenderSessions
import ReplicaRing.Proofs.SenderSteps
import ReplicaRing.Proofs.ReceiverSteps
import ReplicaRing.Proofs.PageOrder
import ReplicaRing.Proofs.TransferLink
import ReplicaRing.Proofs.SentPages
import ReplicaRing.Proofs.TransferCompleteness
import ReplicaRing.Proofs.EngineStates
import ReplicaRing.Proofs.EngineRuns
import ReplicaRing.Proofs.TransferRace
import ReplicaRing.Proofs.Execution
import ReplicaRing.Proofs.RecentMemory
import ReplicaRing.Proofs.Standing
import ReplicaRing.Proofs.SteadyReplicas
import ReplicaRing.Proofs.JoinAgreement
import ReplicaRing.Proofs.SharedStore
import ReplicaRing.Proofs.DecidedWrites
import ReplicaRing.Proofs.EngineOutputs
import ReplicaRing.Proofs.DecisionOrder
import ReplicaRing.Proofs.RingNeighbours
import ReplicaRing.Proofs.TransferDuties
import ReplicaRing.Proofs.LeaderFollowing
import ReplicaRing.Proofs.ExecutionTrace
import ReplicaRing.Proofs.Arrivals
import ReplicaRing.Proofs.AnsweredOperations
import ReplicaRing.Proofs.AtMostOnce
import ReplicaRing.Proofs.DetectorSteps
import ReplicaRing.Proofs.LivenessLink
import ReplicaRing.Proofs.OracleSteps
import ReplicaRing.Proofs.LeaderAgreement
import ReplicaRing.Proofs.DeferredOperations
import ReplicaRing.Proofs.FinalPages
import ReplicaRing.Proofs.FinishedTransfers
import ReplicaRing.Proofs.OrderlyDelivery
import ReplicaRing.Proofs.TransferEnds
import ReplicaRing.Proofs.ReliableTransfer
import ReplicaRing.Proofs.RouterSteps
import ReplicaRing.Proofs.WaitingCallers
import ReplicaRing.Proofs.DecidedNext
import ReplicaRing.Proofs.Announcements
import ReplicaRing.Proofs.EngineLink
import ReplicaRing.Proofs.ReportHistory
import ReplicaRing.Proofs.SuspicionAgreement
import ReplicaRing.Proofs.RangePages
import ReplicaRing.Proofs.PagedCalls
import ReplicaRing.Proofs.OperationTraffic
import ReplicaRing.Proofs.ReplicaService
import ReplicaRing.Proofs.RangeCalls
import ReplicaRing.Proofs.RangeAnswers
import ReplicaRing.Proofs.MoverRuns
import ReplicaRing.Proofs.SessionLives
import ReplicaRing.Proofs.SessionPages
import ReplicaRing.Proofs.InboundSessions
import ReplicaRing.Proofs.OracleLedger
import ReplicaRing.Proofs.WireForms
import ReplicaRing.Proofs.SuppliedKeys
import ReplicaRing.Proofs.TransferTargets
import ReplicaRing.Proofs.AwaitedAnswers
import ReplicaRing.Proofs.FrameStreams
import ReplicaRing.Proofs.Tombstones
import ReplicaRing.Proofs.ForwardingHops
import ReplicaRing.Proofs.DetectorRuns
import ReplicaRing.Proofs.DetectionWindow
import ReplicaRing.Proofs.SizeAccounting
import ReplicaRing.Proofs.SizeBounds
import ReplicaRing.Proofs.MonitoredNodes
import ReplicaRing.Proofs.StaleViews
import ReplicaRing.Proofs.PagedScans
import ReplicaRing.Proofs.CappedRanges
import ReplicaRing.Proofs.Admission
import ReplicaRing.Proofs.NodeTexts
import ReplicaRing.Proofs.AcceptedConfigs
import ReplicaRing.Proofs.LogPruning
import ReplicaRing.Proofs.Rounding
import ReplicaRing.Proofs.Binary64
import ReplicaRing.Proofs.FloatArithmetic
import ReplicaRing.Proofs.ScaledSpans
import ReplicaRing.Proofs.RetryWaits
import ReplicaRing.Proofs.DrawnNumbers
import ReplicaRing.Proofs.BackoffLimits
import ReplicaRing.Proofs.ReplicaRuns
import ReplicaRing.Proofs.AcceptedSettings
