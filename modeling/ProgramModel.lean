import ProgramModel.Analysis
import ProgramModel.Artifact
import ProgramModel.Attribution
import ProgramModel.Build.Builder
import ProgramModel.Build.Calls
import ProgramModel.Build.Hierarchy
import ProgramModel.Build.Supertypes
import ProgramModel.CallGraph
import ProgramModel.CallType
import ProgramModel.ClassHierarchy
import ProgramModel.Command.Arguments
import ProgramModel.Command.Failure
import ProgramModel.Command.Invocation
import ProgramModel.Command.LogLevel
import ProgramModel.Command.Report
import ProgramModel.Command.Run
import ProgramModel.Decimal.Shortest
import ProgramModel.Document
import ProgramModel.Files.Basic
import ProgramModel.Files.Path
import ProgramModel.Files.Tree
import ProgramModel.Format.Analysis
import ProgramModel.Format.Basic
import ProgramModel.Format.Document
import ProgramModel.Json.Basic
import ProgramModel.Json.Fault
import ProgramModel.Json.Number
import ProgramModel.Json.Token
import ProgramModel.Load
import ProgramModel.Log
import ProgramModel.Main
import ProgramModel.Method.Arena
import ProgramModel.Method.Basic
import ProgramModel.Method.Registry
import ProgramModel.Package
import ProgramModel.Reference
import ProgramModel.Schema.Basic
import ProgramModel.Schema.Json
import ProgramModel.Schema.Yaml
import ProgramModel.Scope
import ProgramModel.Sink
import ProgramModel.Sorted.Map
import ProgramModel.Sorted.Order
import ProgramModel.Sorted.Set
import ProgramModel.Text.Blank
import ProgramModel.Text.Hidden
import ProgramModel.Text.Keyword
import ProgramModel.Text.Quoted
import ProgramModel.Text.Utf8
import ProgramModel.TypeName
import ProgramModel.View
import ProgramModel.View.Dot
import ProgramModel.View.Graph
import ProgramModel.Yaml.Cursor
import ProgramModel.Yaml.Node
import ProgramModel.Yaml.Scalar
import ProgramModel.Yaml.Tag
import ProgramModel.Yaml.Token
import ProgramModel.Proofs.Registry
import ProgramModel.Proofs.Interning
import ProgramModel.Proofs.Arena
import ProgramModel.Proofs.Drafts
import ProgramModel.Proofs.Classes
import ProgramModel.Proofs.FirstRecords
import ProgramModel.Proofs.Coherence
import ProgramModel.Proofs.Documents
import ProgramModel.Proofs.Ledger
import ProgramModel.Proofs.Builds
import ProgramModel.Proofs.Rearrangement
import ProgramModel.Proofs.Growth
import ProgramModel.Proofs.Sources
import ProgramModel.Proofs.Kinds
import ProgramModel.Proofs.Utf8
import ProgramModel.Proofs.Spelling
import ProgramModel.Proofs.Schemas
import ProgramModel.Proofs.Formats
import ProgramModel.Proofs.Files
import ProgramModel.Proofs.Origins
import ProgramModel.Proofs.Counts
import ProgramModel.Proofs.ExpectedCalls
import ProgramModel.Proofs.Outputs
import ProgramModel.Proofs.Exchange
import ProgramModel.Proofs.FailingSinks
import ProgramModel.Proofs.Bundles
import ProgramModel.Proofs.Phases
import ProgramModel.Proofs.Declarations
import ProgramModel.Proofs.CallPhase
import ProgramModel.Proofs.Repetition
import ProgramModel.Proofs.Invariants
import ProgramModel.Proofs.DotReading
import ProgramModel.Proofs.Graphs
import ProgramModel.Proofs.Displays
import ProgramModel.Proofs.Attributions
import ProgramModel.Proofs.TypeNames
import ProgramModel.Proofs.Coordinates
import ProgramModel.Proofs.Respelling
import ProgramModel.Proofs.Routines
import ProgramModel.Proofs.Interleavings
import ProgramModel.Proofs.CoordinateGrammar
import ProgramModel.Proofs.MissingInputs
import ProgramModel.Proofs.Monotonicity
import ProgramModel.Proofs.Trees
import ProgramModel.Proofs.Readers
import ProgramModel.Proofs.Grammar
import ProgramModel.Proofs.Lexemes
import ProgramModel.Proofs.Segments
import ProgramModel.Proofs.Reordering
import ProgramModel.Proofs.Collisions
import ProgramModel.Proofs.Walks
