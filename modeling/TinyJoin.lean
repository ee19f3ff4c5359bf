import TinyJoin.Lib.OrderCode
import TinyJoin.Lib.Bytes
import TinyJoin.Lib.Bitmap
import TinyJoin.Lib.Layout
import TinyJoin.Lib.Effect
import TinyJoin.Lib.Indexed
import TinyJoin.Lib.Slotted
import TinyJoin.Lib.Probing
import TinyJoin.Lib.LazyOrder
import TinyJoin.NameMap
import TinyJoin.Estimates
import TinyJoin.Storage
import TinyJoin.Overlay
import TinyJoin.OverlayInvariant
import TinyJoin.Transaction
import TinyJoin.Value
import TinyJoin.KeyCodec
import TinyJoin.KeyOrder
import TinyJoin.KeyTuples
import TinyJoin.RecordCodec
import TinyJoin.RecordValues
import TinyJoin.RecordFormat
import TinyJoin.RecordRoundTrip
import TinyJoin.RecordCanonical
import TinyJoin.Checksum
import TinyJoin.Page
import TinyJoin.PageCanonical
import TinyJoin.Allocation
import TinyJoin.Device
import TinyJoin.Metadata
import TinyJoin.MetadataFormat
import TinyJoin.MetadataRoots
import TinyJoin.Pager
import TinyJoin.PageCache
import TinyJoin.CacheInvariant
import TinyJoin.CacheOperations
import TinyJoin.CachePublish
import TinyJoin.CacheRefinement
import TinyJoin.PagerInvariant
import TinyJoin.PagerCommit
import TinyJoin.PagerReads
import TinyJoin.PagerFailure
import TinyJoin.PageView
import TinyJoin.NodeFormat
import TinyJoin.NodeCanonical
import TinyJoin.NodeRoundTrip
import TinyJoin.Overflow
import TinyJoin.OverflowRoundTrip
import TinyJoin.OverflowChain
import TinyJoin.StagedView
import TinyJoin.Lexer
import TinyJoin.SqlScript
import TinyJoin.Lexemes
import TinyJoin.ScriptSplit
import TinyJoin.Lib.Simulation
import TinyJoin.Lib.Utf16
import TinyJoin.Protocol
import TinyJoin.Preflight
import TinyJoin.ProtocolCheck
import TinyJoin.PreflightWrites
import TinyJoin.Structured
import TinyJoin.PreflightPaths
import TinyJoin.RequestRoundTrip
import TinyJoin.Lib.JsonText
import TinyJoin.StructuredJson
import TinyJoin.ResponseText
import TinyJoin.WasmBridge
import TinyJoin.PagerAllocation
import TinyJoin.StagedRuns
import TinyJoin.StagedTotals
import TinyJoin.StagedClaims
import TinyJoin.StagingExact
import TinyJoin.BootstrapImage
import TinyJoin.Bootstrap
import TinyJoin.BootstrapCrash
import TinyJoin.ChangedKeys
import TinyJoin.NotificationClaims
import TinyJoin.Messages
import TinyJoin.EngineHost
import TinyJoin.DatabaseBroker
import TinyJoin.Coordinator
import TinyJoin.Tabs
import TinyJoin.BrokerWork
import TinyJoin.Moves
import TinyJoin.Acts
import TinyJoin.Tasks
import TinyJoin.Lib.Cutting
import TinyJoin.Division
import TinyJoin.LikePattern
import TinyJoin.Lib.Codewords
import TinyJoin.Lib.Segments
import TinyJoin.LikePlaces
import TinyJoin.LikeSegments
import TinyJoin.LikeMatches
import TinyJoin.LikePrefix
import TinyJoin.Lib.Sorting
import TinyJoin.KeyValues
import TinyJoin.ChangeReport
import TinyJoin.ReportedKeys
import TinyJoin.RecordUpdate
import TinyJoin.FloatArithmetic
import TinyJoin.Lib.Reassign
import TinyJoin.DataModification
import TinyJoin.UpdatePlan
import TinyJoin.ColumnValues
import TinyJoin.UpdatedRows
import TinyJoin.UpdateChanges
import TinyJoin.StagedWrites
import TinyJoin.ScriptChanges
import TinyJoin.ScriptWrites
import TinyJoin.SimultaneousUpdate
import TinyJoin.GroupKeys
import TinyJoin.VisitedRows
import TinyJoin.Aggregates
import TinyJoin.AggregateQuery
import TinyJoin.Lib.Grouping
import TinyJoin.FloatOrder
import TinyJoin.AggregateMeaning
import TinyJoin.ShownValues
import TinyJoin.Accumulators
import TinyJoin.GroupStates
import TinyJoin.GroupedRows
import TinyJoin.AggregateRuns
import TinyJoin.GroupProjections
import TinyJoin.AggregateOrder
import TinyJoin.AggregateAnswers
import TinyJoin.ExpressionTypes
import TinyJoin.CrcTables
import TinyJoin.Lib.Presence
import TinyJoin.PageMessage
import TinyJoin.JsonSizes
import TinyJoin.SizeEstimates
import TinyJoin.RowTextBounds
import TinyJoin.Lib.Ranges
import TinyJoin.OpfsDevice
import TinyJoin.OpfsPages
import TinyJoin.WasmResults
import TinyJoin.WasmEngine
import TinyJoin.WasmEngineRuns
import TinyJoin.ScriptCounts
import TinyJoin.SpentEngine
import TinyJoin.Lib.WordOrder
import TinyJoin.NodeSearch
import TinyJoin.KeyedRuns
import TinyJoin.RootGrowth
import TinyJoin.CloneGraph
import TinyJoin.JsonUnfolding
import TinyJoin.CloneCheck
import TinyJoin.JsonVisits
import TinyJoin.StatementRequests
import TinyJoin.Lib.Charging
import TinyJoin.RequestSize
import TinyJoin.RequestCharges
import TinyJoin.StatementSize
import TinyJoin.Lib.Kleene
import TinyJoin.Predicates
import TinyJoin.ComparedValues
import TinyJoin.PredicateFilter
import TinyJoin.FilterMeaning
import TinyJoin.StoredTests
import TinyJoin.StoredColumns
import TinyJoin.RecordTests
import TinyJoin.FilterTests
import TinyJoin.KeyRanges
import TinyJoin.TransactionReads
import TinyJoin.TabTurns
import TinyJoin.TabAnswers
