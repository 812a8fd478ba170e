import BetterGraphileWorker.Library.Runs
import BetterGraphileWorker.Library.Table
import BetterGraphileWorker.Data.Json
import BetterGraphileWorker.Data.Payload
import BetterGraphileWorker.Data.Jsonb
import BetterGraphileWorker.Data.Waits
import BetterGraphileWorker.Database.Tables
import BetterGraphileWorker.Database.Graphile
import BetterGraphileWorker.Database.PrivateJobs
import BetterGraphileWorker.System
import BetterGraphileWorker.Database.Enqueue
import BetterGraphileWorker.Database.Effects
import BetterGraphileWorker.System.Steps
import BetterGraphileWorker.System.Rows
import BetterGraphileWorker.System.Changes
import BetterGraphileWorker.System.WellFormed
import BetterGraphileWorker.Fencing
import BetterGraphileWorker.Accounting
import BetterGraphileWorker.Wakeup
import BetterGraphileWorker.Lineage
import BetterGraphileWorker.Checkpoints
import BetterGraphileWorker.RetryTime
import BetterGraphileWorker.WaitGraph
import BetterGraphileWorker.LostChildren
import BetterGraphileWorker.CrashRelease
import BetterGraphileWorker.Coverage
import BetterGraphileWorker.Worker.Exclusivity
import BetterGraphileWorker.Worker.LastCall
import BetterGraphileWorker.Worker.Verdict
import BetterGraphileWorker.Library.Pool
import BetterGraphileWorker.Worker.Guards
import BetterGraphileWorker.Worker.Context
import BetterGraphileWorker.Worker.SameCode
import BetterGraphileWorker.Worker.Unobserved
import BetterGraphileWorker.Database.Outcomes
import BetterGraphileWorker.System.Outcomes
import BetterGraphileWorker.Fidelity
import BetterGraphileWorker.Worker.ActiveSpan
import BetterGraphileWorker.Worker.Backoff
import BetterGraphileWorker.Library.Ranks
import BetterGraphileWorker.Database.AddJobs
import BetterGraphileWorker.Worker.Registry
import BetterGraphileWorker.Worker.CronItems
import BetterGraphileWorker.Suspension
import BetterGraphileWorker.Library.Locks
import BetterGraphileWorker.Database.IdempotencyKeys
import BetterGraphileWorker.Worker.WorkerPool
import BetterGraphileWorker.Worker.PoolWorker
import BetterGraphileWorker.Worker.PoolInvariant
import BetterGraphileWorker.Worker.PoolSteps
import BetterGraphileWorker.Worker.PoolRuns
import BetterGraphileWorker.Worker.JsValues
import BetterGraphileWorker.Worker.ChildQueue
import BetterGraphileWorker.Worker.ChildReports
import BetterGraphileWorker.Worker.TestHarness
import BetterGraphileWorker.Worker.EnqueueResults
import BetterGraphileWorker.Envelope
import BetterGraphileWorker.Data.WireText
import BetterGraphileWorker.StoredValues
import BetterGraphileWorker.Worker.JsHeap
import BetterGraphileWorker.Worker.StepRunner
import BetterGraphileWorker.Worker.ProgressRunner
import BetterGraphileWorker.Worker.ProgressOrder
import BetterGraphileWorker.Database.EnqueueSql
import BetterGraphileWorker.Worker.ClientUtils
import BetterGraphileWorker.Worker.Maintenance
import BetterGraphileWorker.Library.Keyset
import BetterGraphileWorker.Data.IsoText
import BetterGraphileWorker.Database.RecentJobs
import BetterGraphileWorker.Worker.Durations
import BetterGraphileWorker.Worker.EnqueueOptions
import BetterGraphileWorker.Database.WaitLocks
import BetterGraphileWorker.Database.IdempotencyLog
import BetterGraphileWorker.Worker.Runner
import BetterGraphileWorker.Worker.Shutdown
import BetterGraphileWorker.Worker.Notices
import BetterGraphileWorker.Completeness
import BetterGraphileWorker.Worker.JobStats
import BetterGraphileWorker.Data.Tracing
import BetterGraphileWorker.WaitResults
