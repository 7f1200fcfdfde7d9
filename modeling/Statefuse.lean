import Statefuse.Foundation.Dict
import Statefuse.Foundation.Tables
import Statefuse.Foundation.Json
import Statefuse.Foundation.Number
import Statefuse.Foundation.JsonText
import Statefuse.Foundation.JsonParser
import Statefuse.Foundation.JsonPrefix
import Statefuse.Foundation.JsonRoundTrip
import Statefuse.Foundation.Equality
import Statefuse.Foundation.Outcome
import Statefuse.Foundation.Intervals
import Statefuse.Foundation.Spans
import Statefuse.Foundation.Undominated
import Statefuse.Foundation.OrderedDict
import Statefuse.Utils
import Statefuse.Model.Claim
import Statefuse.Model.Resolution
import Statefuse.Ops
import Statefuse.Codec
import Statefuse.Auth.Transport
import Statefuse.Auth.Coverage
import Statefuse.OpLog
import Statefuse.Foundation.Union
import Statefuse.Merge
import Statefuse.Auth
import Statefuse.Merge.Authenticated
import Statefuse.Merge.AuthenticatedSpec
import Statefuse.Conflict.Record
import Statefuse.Reference
import Statefuse.Conflict.Detection
import Statefuse.Conflict.Index
import Statefuse.Conflict.DetectionSpec
import Statefuse.Conflict.CausalResolver
import Statefuse.Conflict.Policies
import Statefuse.Conflict.IndexSpec
import Statefuse.Conflict.FindingSpec
import Statefuse.Conflict.Composition
import Statefuse.Conflict.Applicability
import Statefuse.Materialize.Lifecycle
import Statefuse.Materialize.State
import Statefuse.Materialize.PairScopes
import Statefuse.Materialize.Query
import Statefuse.Materialize.Full
import Statefuse.Materialize.Incremental
import Statefuse.Materialize.LifecycleSpec
import Statefuse.Materialize.Effective
import Statefuse.Materialize.Authority
import Statefuse.Materialize.Contents
import Statefuse.Materialize.Common
import Statefuse.Materialize.FullSpec
import Statefuse.Materialize.Gathering
import Statefuse.Materialize.Acceptance
import Statefuse.Conflict.IndexHistory
import Statefuse.Materialize.ContextQueries
import Statefuse.Materialize.IncrementalEntry
import Statefuse.Materialize.IncrementalKeys
import Statefuse.Materialize.IncrementalSpec
import Statefuse.Materialize.Frame
import Statefuse.Materialize.Accounting
import Statefuse.Materialize.Refinement
import Statefuse.Materialize.Tombstones
import Statefuse.Materialize.Affected
import Statefuse.Materialize.Retractions
import Statefuse.Materialize.Scopes
import Statefuse.Foundation.Paging
import Statefuse.Store.InMemory
import Statefuse.Foundation.Lines
import Statefuse.Foundation.JsonBytes
import Statefuse.Text
import Statefuse.Store.Paging
import Statefuse.Store.InMemoryPages
import Statefuse.Store.Jsonl
import Statefuse.Store.JsonlText
import Statefuse.Store.JsonlCrash
import Statefuse.Store.Sqlite
import Statefuse.Store.Paged
import Statefuse.Foundation.Books
import Statefuse.Store.Books
import Statefuse.Store.Equivalence
import Statefuse.Store.Positions
import Statefuse.Memory.Materialization
import Statefuse.Memory.Deltas
import Statefuse.Memory.Replica
import Statefuse.Memory.Progress
import Statefuse.Memory.Exchange
import Statefuse.Memory.Writes
import Statefuse.Memory.Identity
import Statefuse.View.Build
import Statefuse.View.Settled
import Statefuse.View.Unresolved
import Statefuse.View.Winners
import Statefuse.View.Scopes
import Statefuse.View.Resolver
import Statefuse.View.CloseRivals
import Statefuse.Integrations.Models
import Statefuse.Integrations.Hydration
import Statefuse.Integrations.HydrationOrder
import Statefuse.Integrations.SearchMerge
import Statefuse.Integrations.Freshness
import Statefuse.View.Heuristic
import Statefuse.Compaction.Report
import Statefuse.Compaction.Views
import Statefuse.Compaction.Replicas
import Statefuse.Compaction.Merging
import Statefuse.Integrations.ProjectionDeltas
import Statefuse.Integrations.Convergence
import Statefuse.Integrations.Search
import Statefuse.Integrations.Fake
import Statefuse.Integrations.Recovery
import Statefuse.Integrations.Service
import Statefuse.Materialize.CheckpointSpec
import Statefuse.Memory.Restarts
