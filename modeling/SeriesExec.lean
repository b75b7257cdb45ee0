import SeriesExec.Cluster.Driver
import SeriesExec.Cluster.History
import SeriesExec.Cluster.Hooks
import SeriesExec.Cluster.Listing
import SeriesExec.Cluster.Request
import SeriesExec.Cluster.Settle
import SeriesExec.Cluster.State
import SeriesExec.Cluster.Step
import SeriesExec.Cluster.Tasks
import SeriesExec.Config.Document
import SeriesExec.Config.Executor
import SeriesExec.Config.Server
import SeriesExec.Duration.Basic
import SeriesExec.Duration.Text
import SeriesExec.Error
import SeriesExec.KeyInterval
import SeriesExec.KeyedList
import SeriesExec.Ledger
import SeriesExec.Numeric.Binary64
import SeriesExec.Numeric.Total
import SeriesExec.Operator
import SeriesExec.Pipeline
import SeriesExec.Pool
import SeriesExec.Proofs.Acceptance
import SeriesExec.Proofs.Accounts
import SeriesExec.Proofs.Agreement
import SeriesExec.Proofs.Alignment
import SeriesExec.Proofs.Backpressure
import SeriesExec.Proofs.Balances
import SeriesExec.Proofs.Batching
import SeriesExec.Proofs.Blanks
import SeriesExec.Proofs.Breakdowns
import SeriesExec.Proofs.Broadcast
import SeriesExec.Proofs.ByteOrder
import SeriesExec.Proofs.CalledUnits
import SeriesExec.Proofs.Calls
import SeriesExec.Proofs.Changes
import SeriesExec.Proofs.Closing
import SeriesExec.Proofs.Conservation
import SeriesExec.Proofs.Convergence
import SeriesExec.Proofs.Copies
import SeriesExec.Proofs.Directory
import SeriesExec.Proofs.Discovery
import SeriesExec.Proofs.EventTraffic
import SeriesExec.Proofs.Events
import SeriesExec.Proofs.Excerpts
import SeriesExec.Proofs.Expressions
import SeriesExec.Proofs.Failures
import SeriesExec.Proofs.Feeding
import SeriesExec.Proofs.Fixtures
import SeriesExec.Proofs.Followers
import SeriesExec.Proofs.Groups
import SeriesExec.Proofs.Intersections
import SeriesExec.Proofs.Layouts
import SeriesExec.Proofs.Lineage
import SeriesExec.Proofs.Links
import SeriesExec.Proofs.Listings
import SeriesExec.Proofs.Naming
import SeriesExec.Proofs.Noninterference
import SeriesExec.Proofs.Orderings
import SeriesExec.Proofs.Pauses
import SeriesExec.Proofs.Pipelines
import SeriesExec.Proofs.PoolMoves
import SeriesExec.Proofs.PoolRuns
import SeriesExec.Proofs.Pushdown
import SeriesExec.Proofs.Readiness
import SeriesExec.Proofs.Release
import SeriesExec.Proofs.Repeats
import SeriesExec.Proofs.Replays
import SeriesExec.Proofs.Results
import SeriesExec.Proofs.Roster
import SeriesExec.Proofs.Routing
import SeriesExec.Proofs.Schedules
import SeriesExec.Proofs.Segments
import SeriesExec.Proofs.Sequential
import SeriesExec.Proofs.Sessions
import SeriesExec.Proofs.Settings
import SeriesExec.Proofs.Settled
import SeriesExec.Proofs.Shutdown
import SeriesExec.Proofs.Spellings
import SeriesExec.Proofs.Stamps
import SeriesExec.Proofs.Steps
import SeriesExec.Proofs.Stores
import SeriesExec.Proofs.Supplies
import SeriesExec.Proofs.Tallies
import SeriesExec.Proofs.TaskFrames
import SeriesExec.Proofs.Telemetry
import SeriesExec.Proofs.Traffic
import SeriesExec.Proofs.TrafficSteps
import SeriesExec.Proofs.Transfer
import SeriesExec.Proofs.UnitOrder
import SeriesExec.Proofs.Views
import SeriesExec.Proofs.Visibility
import SeriesExec.Proofs.Wildcards
import SeriesExec.Proofs.Workload
import SeriesExec.Proofs.Writes
import SeriesExec.Queue
import SeriesExec.Range.Basic
import SeriesExec.Range.Text
import SeriesExec.Replica.Affinity
import SeriesExec.Replica.Digest
import SeriesExec.Rows.Batch
import SeriesExec.Rows.Column
import SeriesExec.Rows.Stream
import SeriesExec.Series
import SeriesExec.Store.Basic
import SeriesExec.Store.Execution
import SeriesExec.Store.Projection
import SeriesExec.TagFilter
import SeriesExec.Tags
import SeriesExec.Task.Basic
import SeriesExec.Task.Text
import SeriesExec.Text.Blank
import SeriesExec.Text.Hidden
import SeriesExec.Text.Quoted
import SeriesExec.Topology.Catalog
import SeriesExec.Topology.Fragment
import SeriesExec.Topology.Registry
import SeriesExec.Topology.StorageEngine
import SeriesExec.Topology.StorageUnit
import SeriesExec.Wildcard
import SeriesExec.Wildcard.Library
