import CongestionFabric.Lib.SortedMap
import CongestionFabric.Core.StrongId
import CongestionFabric.Core.Hash
import CongestionFabric.Model.Enums
import CongestionFabric.Model.Policy
import CongestionFabric.Model.PolicyValidation
import CongestionFabric.Model.State
import CongestionFabric.Lib.Run
import CongestionFabric.Lib.FramedLog
import CongestionFabric.Eval.Hysteresis
import CongestionFabric.Eval.HysteresisStep
import CongestionFabric.Eval.HysteresisRun
import CongestionFabric.Eval.Recovery
import CongestionFabric.Eval.BlackoutRecovery
import CongestionFabric.Model.Topology
import CongestionFabric.Model.TopologyIndex
import CongestionFabric.Model.Evidence
import CongestionFabric.Model.Evaluation
import CongestionFabric.Eval.Propagation
import CongestionFabric.Eval.Admission
import CongestionFabric.Eval.Classification
import CongestionFabric.Eval.Evaluator
import CongestionFabric.Eval.Acceptance
import CongestionFabric.Eval.Coverage
import CongestionFabric.Eval.MissingEvidence
import CongestionFabric.Eval.Planner
import CongestionFabric.Model.Fence
import CongestionFabric.Durability.Crc32c
import CongestionFabric.Durability.Codec
import CongestionFabric.Durability.Document
import CongestionFabric.Durability.StoreCodec
import CongestionFabric.Durability.Journal
import CongestionFabric.Durability.JournalFraming
import CongestionFabric.Durability.RoundTrip
import CongestionFabric.Durability.Snapshot
import CongestionFabric.Durability.Store
import CongestionFabric.Durability.CommitGroup
import CongestionFabric.Durability.Replay
import CongestionFabric.Durability.StoreCall
import CongestionFabric.Durability.CrashRecovery
import CongestionFabric.Durability.Reopen
import CongestionFabric.Durability.TornJournal
import CongestionFabric.Fabric.State
import CongestionFabric.Fabric.Authority
import CongestionFabric.Fabric.Evidence
import CongestionFabric.Fabric.Evaluate
import CongestionFabric.Fabric.Open
import CongestionFabric.Fabric.World
import CongestionFabric.Fabric.Effect
import CongestionFabric.Fabric.Opened
import CongestionFabric.Fabric.Window
import CongestionFabric.Fabric.FenceSafety
import CongestionFabric.Fabric.Atomicity
import CongestionFabric.Transport.Frame
import CongestionFabric.Transport.FrameDecoder
import CongestionFabric.Transport.Streaming
import CongestionFabric.Eval.Induced
import CongestionFabric.Eval.PropagationNeutral
import CongestionFabric.Eval.SingleMetric
import CongestionFabric.Transport.Messages
import CongestionFabric.Fabric.Membership
import CongestionFabric.Runtime.Coordinator
import CongestionFabric.Runtime.Moves
import CongestionFabric.Runtime.Departure
import CongestionFabric.Runtime.SessionEvidence
import CongestionFabric.Durability.Rebuilt
import CongestionFabric.Fabric.Enacted
import CongestionFabric.Durability.Room
import CongestionFabric.Fabric.Mirror
import CongestionFabric.Fabric.RestartRefinement
import CongestionFabric.Fabric.LiveAuthority
import CongestionFabric.Durability.SnapshotFraming
import CongestionFabric.Durability.Compaction
import CongestionFabric.Durability.Checkpoint
import CongestionFabric.Lib.ByteDamage
import CongestionFabric.Durability.CrcDamage
import CongestionFabric.Durability.Damage
import CongestionFabric.Durability.Classify
import CongestionFabric.Durability.SnapshotDamage
import CongestionFabric.Durability.Persistable
import CongestionFabric.Durability.BadSnapshot
import CongestionFabric.Durability.ProperReplay
import CongestionFabric.Eval.Escalation
import CongestionFabric.Lib.FirstBest
import CongestionFabric.Lib.BoundedList
import CongestionFabric.Eval.Buckets
import CongestionFabric.Eval.Contradiction
import CongestionFabric.Eval.ConflictCaught
import CongestionFabric.Eval.OrderFree
import CongestionFabric.Lib.CappedService
import CongestionFabric.Eval.ReportBounds
import CongestionFabric.Eval.BoundedPlan
import CongestionFabric.Eval.Warranted
import CongestionFabric.Eval.Coherence
import CongestionFabric.Eval.Discipline
import CongestionFabric.Eval.TickRefusal
import CongestionFabric.Eval.Settling
import CongestionFabric.Eval.PartialCoverage
import CongestionFabric.Eval.RuleLevels
import CongestionFabric.Eval.MarginBinding
import CongestionFabric.Eval.WorseReadings
import CongestionFabric.Lib.BreadthFirst
import CongestionFabric.Model.Adjacency
import CongestionFabric.Eval.PropagationSearch
import CongestionFabric.Eval.BestPressure
import CongestionFabric.Eval.BoundReadings
import CongestionFabric.Fabric.Planned
import CongestionFabric.Fabric.FreshBasis
import CongestionFabric.Fabric.Tracked
import CongestionFabric.Fabric.Currency
import CongestionFabric.Fabric.GuardedPlans
import CongestionFabric.Eval.Revalidation
import CongestionFabric.Fabric.DomainHistory
import CongestionFabric.Fabric.Revalidated
import CongestionFabric.Eval.PlanBudget
import CongestionFabric.Eval.NamedEvidence
import CongestionFabric.Durability.FullStore
import CongestionFabric.Fabric.FullFabric
import CongestionFabric.Fabric.Inspection
import CongestionFabric.Durability.ReadOnly
import CongestionFabric.Durability.Retention
import CongestionFabric.Fabric.ReplayProtection
import CongestionFabric.Fabric.FreshIncarnation
import CongestionFabric.Durability.MutationSize
import CongestionFabric.Eval.RepeatGate
import CongestionFabric.Fabric.RepeatInterval
import CongestionFabric.Fabric.RestartTicks
import CongestionFabric.Transport.SequenceWindow
import CongestionFabric.Transport.FrameDamage
import CongestionFabric.Eval.MarginShift
import CongestionFabric.Lib.ParentChain
import CongestionFabric.Model.Containment
import CongestionFabric.Lib.SlotTable
import CongestionFabric.Model.SlotIndex
import CongestionFabric.Durability.StickyReader
import CongestionFabric.Model.RawEnums
import CongestionFabric.Model.MetricReadings
import CongestionFabric.Transport.EvidenceTrip
import CongestionFabric.Transport.WireReadings
import CongestionFabric.Lib.BudgetedText
import CongestionFabric.Model.Explanation
import CongestionFabric.Lib.Layout
import CongestionFabric.Durability.StrictReading
import CongestionFabric.Durability.StrictRecords
import CongestionFabric.Durability.StrictPayloads
import CongestionFabric.Lib.Shares
import CongestionFabric.Core.Words
import CongestionFabric.Eval.RatioScaling
import CongestionFabric.Lib.Numerals
import CongestionFabric.Core.IdText
import CongestionFabric.Durability.FaultyAppends
import CongestionFabric.Durability.DanglingPayloads
import CongestionFabric.Durability.Ambiguity
import CongestionFabric.Transport.ControlPayloads
import CongestionFabric.Transport.OneInFlight
import CongestionFabric.Runtime.Publisher
import CongestionFabric.Lib.Lockstep
import CongestionFabric.Runtime.Replies
import CongestionFabric.Runtime.Exchange
import CongestionFabric.Runtime.ExchangeSession
import CongestionFabric.Runtime.PublisherSteps
import CongestionFabric.Runtime.ExchangeTurn
import CongestionFabric.Runtime.ExactlyOnce
import CongestionFabric.Runtime.PublishedEvidence
import CongestionFabric.Durability.Reopenings
import CongestionFabric.Durability.Verification
import CongestionFabric.Fabric.Explained
import CongestionFabric.Eval.AccountedPlan
import CongestionFabric.Eval.SampleLedger
import CongestionFabric.Eval.ReportedEvidence
import CongestionFabric.Durability.CompactedRecovery
import CongestionFabric.Eval.SpentEvidence
import CongestionFabric.Fabric.Silence
import CongestionFabric.Runtime.EvaluationLoop
import CongestionFabric.Lib.Ranking
import CongestionFabric.Runtime.Serving
import CongestionFabric.Runtime.ConnectionRegistry
import CongestionFabric.Runtime.AcceptLoop
import CongestionFabric.Runtime.Shutdown
import CongestionFabric.Runtime.NobodyLeft
