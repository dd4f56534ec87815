import Kronical.Lib.MovePath
import Kronical.Lib.Farewell
import Kronical.Lib.Quiescence
import Kronical.Core.Adapter
import Kronical.Core.Engine
import Kronical.Core.Ticks
import Kronical.Core.Snapshot
import Kronical.Pipeline.Compressor
import Kronical.Pipeline.Downstream
import Kronical.Pipeline.Ingest
import Kronical.Pipeline.Delivery
import Kronical.Lib.Polyline
import Kronical.Pipeline.Simplify
import Kronical.Pipeline.Tolerance
import Kronical.Lib.Folds
import Kronical.Lib.HashMap
import Kronical.Lib.Recency
import Kronical.Core.Aggregate
import Kronical.Core.Passes
import Kronical.Core.RealTime
import Kronical.Core.Lanes
import Kronical.Core.OrderFree
import Kronical.Lib.VisitCounter
import Kronical.Pipeline.EventIds
import Kronical.Pipeline.Publish
import Kronical.Pipeline.Transitions
import Kronical.Pipeline.LockCoherence
import Kronical.Pipeline.Suppression
import Kronical.Pipeline.Coalescing
import Kronical.Pipeline.Overtaking
import Kronical.Pipeline.System
import Kronical.Pipeline.Shutdown
import Kronical.Pipeline.NothingLost
import Kronical.Pipeline.CompressionRace
import Kronical.Storage.Hydration
import Kronical.Storage.RecordIds
import Kronical.Pipeline.Restart
import Kronical.Core.Tiling
import Kronical.Pipeline.FocusTracking
import Kronical.Pipeline.LockedInput
import Kronical.Storage.Rows
import Kronical.Storage.Envelopes
import Kronical.Lib.GroupCommit
import Kronical.Lib.Transactions
import Kronical.Storage.SystemMetrics
import Kronical.Storage.Writer
import Kronical.Lib.Runs
import Kronical.Pipeline.MaximalRuns
import Kronical.Pipeline.Coverage
import Kronical.Pipeline.Reached
import Kronical.Pipeline.Interning
import Kronical.Storage.RawPointers
import Kronical.Lib.Machine
import Kronical.Storage.Backlog
import Kronical.Workspace.Exclusion
import Kronical.Lib.Base64
import Kronical.Workspace.RunId
import Kronical.Workspace.RunIdFile
import Kronical.Workspace.RunIdForms
import Kronical.Lib.Json
import Kronical.Server.SnapshotJson
import Kronical.Server.SnapshotPb
import Kronical.Pipeline.AppTree
import Kronical.Pipeline.Represented
import Kronical.Pipeline.AppGroups
import Kronical.Pipeline.HashOrder
import Kronical.Core.AppMap
import Kronical.Lib.LruCache
import Kronical.Lib.Uses
import Kronical.Common.LruReference
import Kronical.Lib.FirstMatch
import Kronical.Common.ThreadRegistry
import Kronical.Common.SharedStrings
import Kronical.Tracker.Titles
import Kronical.Tracker.FocusWorker
import Kronical.Tracker.Attribution
import Kronical.Tracker.Flush
import Kronical.Tracker.Overdue
import Kronical.Tracker.Normalised
import Kronical.Tracker.SystemTracker
import Kronical.Tracker.MetricsQueries
import Kronical.Core.Components
import Kronical.Pipeline.GroupSummary
import Kronical.Lib.SlidingWindow
import Kronical.Pipeline.Retention
import Kronical.Lib.Calendar
import Kronical.Lib.OrderedText
import Kronical.Storage.Rfc3339
import Kronical.Storage.TimeFilters
import Kronical.Pipeline.Bursts
import Kronical.Pipeline.Trajectories
import Kronical.Lib.Trimming
import Kronical.Kronictl.Selection
import Kronical.Lib.Periods
import Kronical.Kronictl.SleepPeriod
import Kronical.Lib.Picks
import Kronical.Pipeline.SplitPoints
import Kronical.Pipeline.Geometry
import Kronical.Lib.Lines
import Kronical.Lib.Watch
import Kronical.Server.EventStream
import Kronical.Server.Feed
import Kronical.Storage.Database
import Kronical.Storage.SessionRows
import Kronical.Storage.SessionCounts
import Kronical.Storage.CompactRows
import Kronical.Storage.Reread
import Kronical.Kronictl.Lifecycle
import Kronical.Kronictl.LogFiles
import Kronical.Lib.History
import Kronical.Coordinator.Rest
import Kronical.Core.ActivityLevel
import Kronical.Server.MetricsCalls
