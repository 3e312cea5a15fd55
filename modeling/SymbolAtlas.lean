import SymbolAtlas.Binding.Attributes
import SymbolAtlas.Binding.Entry
import SymbolAtlas.Binding.Run
import SymbolAtlas.Binding.Stages
import SymbolAtlas.Cache.Packed
import SymbolAtlas.Cache.Payload
import SymbolAtlas.Cache.Store
import SymbolAtlas.Cache.Unpack
import SymbolAtlas.Command.Error
import SymbolAtlas.Command.Execute
import SymbolAtlas.Command.Flags
import SymbolAtlas.Command.Queries
import SymbolAtlas.Command.Session
import SymbolAtlas.Command.Settings
import SymbolAtlas.Command.Verb
import SymbolAtlas.Diagnostic.Bag
import SymbolAtlas.Diagnostic.Basic
import SymbolAtlas.Diagnostic.Code
import SymbolAtlas.Diagnostic.Document
import SymbolAtlas.Diagnostic.PathStyle
import SymbolAtlas.Diagnostic.Pretty
import SymbolAtlas.Diagnostic.Report
import SymbolAtlas.Digest.Fnv
import SymbolAtlas.Digest.Sha256
import SymbolAtlas.Fault
import SymbolAtlas.Files.Error
import SymbolAtlas.Files.Host
import SymbolAtlas.Files.Load
import SymbolAtlas.Files.Tree
import SymbolAtlas.Main
import SymbolAtlas.Manifest.Entry
import SymbolAtlas.Manifest.Key
import SymbolAtlas.Manifest.Program
import SymbolAtlas.Order.Cycles
import SymbolAtlas.Order.Graph
import SymbolAtlas.Order.Quicksort
import SymbolAtlas.Order.Topo
import SymbolAtlas.Path
import SymbolAtlas.Project
import SymbolAtlas.Source.File
import SymbolAtlas.Source.FileSet
import SymbolAtlas.Source.Interner
import SymbolAtlas.Source.Span
import SymbolAtlas.Symbol.Atlas
import SymbolAtlas.Symbol.Attribute
import SymbolAtlas.Symbol.Closure
import SymbolAtlas.Symbol.Declaration
import SymbolAtlas.Symbol.Declare
import SymbolAtlas.Symbol.Error
import SymbolAtlas.Symbol.FilterCache
import SymbolAtlas.Symbol.Flags
import SymbolAtlas.Symbol.Kind
import SymbolAtlas.Symbol.Slots
import SymbolAtlas.Text.Blank
import SymbolAtlas.Text.Bytes
import SymbolAtlas.Text.CellWidth
import SymbolAtlas.Text.Colour
import SymbolAtlas.Text.Columns
import SymbolAtlas.Text.CombiningClass
import SymbolAtlas.Text.Composed
import SymbolAtlas.Text.Decomposition
import SymbolAtlas.Text.Grapheme
import SymbolAtlas.Text.Hex
import SymbolAtlas.Text.Json
import SymbolAtlas.Text.Letter
import SymbolAtlas.Text.Lowercase
import SymbolAtlas.Text.NonStarter
import SymbolAtlas.Text.Numeral
import SymbolAtlas.Text.Printable
import SymbolAtlas.Text.Quoted
import SymbolAtlas.Text.Ranges
import SymbolAtlas.Text.Utf8
import SymbolAtlas.Timing
import SymbolAtlas.Toml.Document
import SymbolAtlas.Toml.Literal
import SymbolAtlas.Toml.Scanner
import SymbolAtlas.Toml.Shape
import SymbolAtlas.Toml.Token
import SymbolAtlas.Toml.Value
import SymbolAtlas.Trace.Event
import SymbolAtlas.Trace.Instant
import SymbolAtlas.Trace.Outlet
import SymbolAtlas.Trace.Tracer
import SymbolAtlas.Version
import SymbolAtlas.Proofs.Execution
import SymbolAtlas.Proofs.Lookup
import SymbolAtlas.Proofs.Search
import SymbolAtlas.Proofs.ClosureRuns
import SymbolAtlas.Proofs.ProgramShape
import SymbolAtlas.Proofs.Skeleton
import SymbolAtlas.Proofs.DeclareStage
import SymbolAtlas.Proofs.Effects
import SymbolAtlas.Proofs.Scripts
import SymbolAtlas.Proofs.BindStage
import SymbolAtlas.Proofs.CloseStage
import SymbolAtlas.Proofs.RunGraph
import SymbolAtlas.Proofs.Chains
import SymbolAtlas.Proofs.CountedWaves
import SymbolAtlas.Proofs.EmissionOrder
import SymbolAtlas.Proofs.OrderedClosures
import SymbolAtlas.Proofs.TableOrder
import SymbolAtlas.Proofs.BagOrder
import SymbolAtlas.Proofs.ConcurrentClosures
import SymbolAtlas.Proofs.WorkerPools
import SymbolAtlas.Proofs.Schedules
import SymbolAtlas.Proofs.CallHistories
import SymbolAtlas.Proofs.DiagnosticLimit
import SymbolAtlas.Proofs.InternalErrors
import SymbolAtlas.Proofs.FreeRuns
import SymbolAtlas.Proofs.Admission
import SymbolAtlas.Proofs.Registry
import SymbolAtlas.Proofs.SuccessfulRuns
import SymbolAtlas.Proofs.RunFindings
import SymbolAtlas.Proofs.Utf8Text
import SymbolAtlas.Proofs.PackedRecords
import SymbolAtlas.Proofs.StoredFiles
import SymbolAtlas.Proofs.CachedAnswers
import SymbolAtlas.Proofs.Operations
import SymbolAtlas.Proofs.WrittenOnce
import SymbolAtlas.Proofs.FilteredClosures
import SymbolAtlas.Proofs.UntracedSteps
import SymbolAtlas.Proofs.TraceBrackets
import SymbolAtlas.Proofs.TracedRuns
import SymbolAtlas.Proofs.ContainmentCircles
import SymbolAtlas.Proofs.DeclarationWalks
import SymbolAtlas.Proofs.HierarchyLinks
import SymbolAtlas.Proofs.RequiredSymbols
import SymbolAtlas.Proofs.LinePositions
import SymbolAtlas.Proofs.LineSearch
import SymbolAtlas.Proofs.Snippets
import SymbolAtlas.Proofs.ScannerSteps
import SymbolAtlas.Proofs.PiecewiseScans
import SymbolAtlas.Proofs.PiecewiseForms
import SymbolAtlas.Proofs.PiecewiseDocuments
import SymbolAtlas.Proofs.EntryScans
import SymbolAtlas.Proofs.EntryTables
import SymbolAtlas.Proofs.DocumentBuilding
import SymbolAtlas.Proofs.EntryDocuments
import SymbolAtlas.Proofs.EntryBlocks
import SymbolAtlas.Proofs.KeyLines
import SymbolAtlas.Proofs.FindingLabels
import SymbolAtlas.Proofs.SortedBags
import SymbolAtlas.Proofs.LatestEvents
import SymbolAtlas.Proofs.CleanPaths
import SymbolAtlas.Proofs.SoundTrees
import SymbolAtlas.Proofs.EntryFiles
import SymbolAtlas.Proofs.StoreHistories
import SymbolAtlas.Proofs.CarriageReturns
import SymbolAtlas.Proofs.UntrueCounts
import SymbolAtlas.Proofs.BorrowedCounts
