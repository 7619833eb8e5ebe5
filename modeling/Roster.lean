import Roster.Client.Batch
import Roster.Client.Calls
import Roster.Client.Desk
import Roster.Client.Feed
import Roster.Client.PageCache
import Roster.Client.Pager
import Roster.Client.Session
import Roster.Digest.Hmac
import Roster.Digest.Sha256
import Roster.Filter
import Roster.Json.Basic
import Roster.Json.Outline
import Roster.Json.Parser
import Roster.Json.Printer
import Roster.Json.Shape
import Roster.Keyed
import Roster.Number.Decimal
import Roster.Number.Double
import Roster.Number.Layout
import Roster.Number.Scaled
import Roster.Path
import Roster.Predicate.Basic
import Roster.Predicate.Clause
import Roster.Predicate.Eval
import Roster.Predicate.Merge
import Roster.Predicate.Search
import Roster.Proofs.Client.Accumulation
import Roster.Proofs.Client.CacheKey
import Roster.Proofs.Client.Freshness
import Roster.Proofs.Client.Navigation
import Roster.Proofs.Client.Paging
import Roster.Proofs.Client.WordArithmetic
import Roster.Proofs.Filter
import Roster.Proofs.Json.Record
import Roster.Proofs.Json.Settled
import Roster.Proofs.Json.Strings
import Roster.Proofs.Json.Text
import Roster.Proofs.Keyed
import Roster.Proofs.Number.Exact
import Roster.Proofs.Number.Integers
import Roster.Proofs.Number.Interval
import Roster.Proofs.Number.Rounding
import Roster.Proofs.Number.Shortest
import Roster.Proofs.Number.Text
import Roster.Proofs.Predicate.Acceptance
import Roster.Proofs.Predicate.Decoded
import Roster.Proofs.Predicate.Definite
import Roster.Proofs.Predicate.Grammar
import Roster.Proofs.Predicate.Hops
import Roster.Proofs.Predicate.IgnoreCase
import Roster.Proofs.Predicate.Integers
import Roster.Proofs.Predicate.Leaves
import Roster.Proofs.Predicate.Operators
import Roster.Proofs.Predicate.Replacement
import Roster.Proofs.Predicate.Restriction
import Roster.Proofs.Predicate.RoundTrip
import Roster.Proofs.Predicate.Search
import Roster.Proofs.Predicate.SearchSession
import Roster.Proofs.Predicate.Settled
import Roster.Proofs.Query.Agreement
import Roster.Proofs.Query.IncludePath
import Roster.Proofs.Query.IncludeRoundTrip
import Roster.Proofs.Query.RoundTrip
import Roster.Proofs.Query.SortKeys
import Roster.Proofs.Query.Truncation
import Roster.Proofs.Schema.Recruiting
import Roster.Proofs.Schema.Resolve
import Roster.Proofs.Scope.Confinement
import Roster.Proofs.Scope.Echo
import Roster.Proofs.Scope.IncludeDepth
import Roster.Proofs.Scope.Overlay
import Roster.Proofs.Scope.RecordPlaces
import Roster.Proofs.Scope.Recruiting
import Roster.Proofs.Scope.Redaction
import Roster.Proofs.Scope.VisibleStore
import Roster.Proofs.Service.Bounds
import Roster.Proofs.Service.Echo
import Roster.Proofs.Service.Embedding
import Roster.Proofs.Service.Lookup
import Roster.Proofs.Service.Ownership
import Roster.Proofs.Service.Paging
import Roster.Proofs.Service.Records
import Roster.Proofs.Service.RowByRow
import Roster.Proofs.Service.Runnable
import Roster.Proofs.Service.Visibility
import Roster.Proofs.Sql.Agreement
import Roster.Proofs.Sql.Comparison
import Roster.Proofs.Sql.IgnoreCase
import Roster.Proofs.Sql.Like
import Roster.Proofs.Sql.Meaning
import Roster.Proofs.Sql.Mirror
import Roster.Proofs.Sql.Statement
import Roster.Proofs.Sql.Terms
import Roster.Proofs.Store.Columns
import Roster.Proofs.Store.Fetches
import Roster.Proofs.Store.Integers
import Roster.Proofs.Store.Loading
import Roster.Proofs.Store.Order
import Roster.Proofs.Store.Reach
import Roster.Proofs.Store.Reordering
import Roster.Proofs.Store.Resemblance
import Roster.Proofs.Store.Windows
import Roster.Proofs.Text.ByteOrder
import Roster.Proofs.Text.Lowercase
import Roster.Proofs.Text.Replacement
import Roster.Proofs.Text.Surroundings
import Roster.Proofs.Text.Words
import Roster.Query.Descriptor
import Roster.Query.Fault
import Roster.Query.Include
import Roster.Query.Order
import Roster.Scalar
import Roster.Schema.Basic
import Roster.Schema.Recruiting
import Roster.Schema.Validate
import Roster.Scope.Caller
import Roster.Scope.Narrow
import Roster.Scope.Redact
import Roster.Scope.Rule
import Roster.Service.Listing
import Roster.Service.Metrics
import Roster.Sql.Condition
import Roster.Sql.Pattern
import Roster.Sql.Statement
import Roster.Sql.Text
import Roster.Sql.Where
import Roster.Store.Dataset
import Roster.Store.Includes
import Roster.Store.Memory
import Roster.Store.Storage
import Roster.Text.Base64
import Roster.Text.Blank
import Roster.Text.Bytes
import Roster.Text.CaseData
import Roster.Text.Lowercase
import Roster.Text.Percent
import Roster.Text.PrintData
import Roster.Text.Quoted
import Roster.Text.Ranges
import Roster.Text.Split
import Roster.Timestamp
import Roster.Truth
import Roster.Uuid
import Roster.Web.Response
import Roster.Web.Route
import Roster.Web.Server
import Roster.Web.Settings
import Roster.Web.Token
import Roster.Web.Token.Claims
import Roster.Web.Token.Header
