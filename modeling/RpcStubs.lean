import RpcStubs.Code.Block
import RpcStubs.Code.Comment
import RpcStubs.Code.Declaration
import RpcStubs.Code.File
import RpcStubs.Code.FuncLiteral
import RpcStubs.Code.Function
import RpcStubs.Code.GoType
import RpcStubs.Code.Identifier
import RpcStubs.Code.Import
import RpcStubs.Code.Layout
import RpcStubs.Code.Layout.Columns
import RpcStubs.Code.Layout.Fault
import RpcStubs.Code.Layout.Line
import RpcStubs.Code.Layout.Region
import RpcStubs.Code.Literal
import RpcStubs.Code.Name
import RpcStubs.Code.Operator
import RpcStubs.Code.Qualifier
import RpcStubs.Code.Step
import RpcStubs.Code.Switch
import RpcStubs.Failure
import RpcStubs.Gzip
import RpcStubs.Log.Event
import RpcStubs.Log.Filter
import RpcStubs.Log.Level
import RpcStubs.Log.Logger
import RpcStubs.Main
import RpcStubs.OrderedMap
import RpcStubs.OrderedSet
import RpcStubs.Pattern.Basic
import RpcStubs.Pattern.Reader
import RpcStubs.Pattern.Set
import RpcStubs.Proofs.Layout.Lines
import RpcStubs.Proofs.Layout.Marked
import RpcStubs.Proto.Message
import RpcStubs.Proto.RawField
import RpcStubs.Proto.Varint
import RpcStubs.Run.CommandLine
import RpcStubs.Run.Disk
import RpcStubs.Run.Failure
import RpcStubs.Run.FilePath
import RpcStubs.Run.Offline
import RpcStubs.Run.Plugin
import RpcStubs.Run.Program
import RpcStubs.Run.Storage
import RpcStubs.Schema.Context
import RpcStubs.Schema.File
import RpcStubs.Schema.Package
import RpcStubs.Schema.Registry
import RpcStubs.Schema.Shape
import RpcStubs.Stub.Client
import RpcStubs.Stub.Config
import RpcStubs.Stub.Descriptor
import RpcStubs.Stub.Framework
import RpcStubs.Stub.Generate
import RpcStubs.Stub.Header
import RpcStubs.Stub.Server
import RpcStubs.Stub.Service
import RpcStubs.Text.Blank
import RpcStubs.Text.CaseMap
import RpcStubs.Text.Class
import RpcStubs.Text.Hex
import RpcStubs.Text.Letter
import RpcStubs.Text.Quoted
import RpcStubs.Text.Split
import RpcStubs.Text.Utf8
import RpcStubs.Toml.Document
import RpcStubs.Toml.Table
import RpcStubs.Toml.Text
import RpcStubs.Wire.ContentType
import RpcStubs.Wire.ErrorBody
import RpcStubs.Wire.ErrorCode
import RpcStubs.Wire.Json
import RpcStubs.Wire.Route
import RpcStubs.Proofs.Layout.Nesting
import RpcStubs.Proofs.Layout.NormalForm
import RpcStubs.Proofs.Layout.Cells
import RpcStubs.Proofs.Layout.Openers
import RpcStubs.Proofs.Layout.Stretches
import RpcStubs.Proofs.Layout.Respacing
import RpcStubs.Proofs.Layout.Written
import RpcStubs.Proofs.Layout.Kept
import RpcStubs.Proofs.Layout.Content
import RpcStubs.Proofs.Layout.Settled
import RpcStubs.Proofs.Layout.Brackets
import RpcStubs.Proofs.Layout.Grammar
import RpcStubs.Proofs.Layout.Sound
import RpcStubs.Proofs.Layout.Alignment
import RpcStubs.Proofs.Code.Flat
import RpcStubs.Proofs.Code.Statements
import RpcStubs.Proofs.Code.Bodies
import RpcStubs.Proofs.Code.Composites
import RpcStubs.Proofs.Code.Declarations
import RpcStubs.Proofs.Code.Files
import RpcStubs.Proofs.Code.Scanning
import RpcStubs.Proofs.Code.Success
import RpcStubs.Proofs.Code.Usage
import RpcStubs.Proofs.Stub.Links
import RpcStubs.Proofs.Stub.Clients
import RpcStubs.Proofs.Stub.Servers
import RpcStubs.Proofs.Stub.Resolution
import RpcStubs.Proofs.Stub.Drafts
import RpcStubs.Proofs.Stub.Parts
import RpcStubs.Proofs.Stub.Generation
import RpcStubs.Proofs.Code.Types
import RpcStubs.Proofs.Code.WellNested
import RpcStubs.Proofs.Code.BlockLayout
import RpcStubs.Proofs.Code.Inversion
import RpcStubs.Proofs.Code.FailureKinds
import RpcStubs.Proofs.Code.DeclaredBodies
import RpcStubs.Proofs.Code.Outline
import RpcStubs.Proofs.Code.StatementShapes
import RpcStubs.Proofs.Code.Rows
import RpcStubs.Proofs.Schema.FullNames
import RpcStubs.Proofs.Schema.PackageNames
import RpcStubs.Proofs.Stub.Listing
import RpcStubs.Proofs.Stub.Routes
import RpcStubs.Proofs.Code.OutlineLayout
import RpcStubs.Proofs.Stub.Imports
import RpcStubs.Proofs.Stub.ForeignTypes
import RpcStubs.Proofs.Stub.Stubs
import RpcStubs.Proofs.Stub.ServerNames
import RpcStubs.Proofs.Stub.Conformance
import RpcStubs.Proofs.Layout.Literals
import RpcStubs.Proofs.Code.Contributions
import RpcStubs.Proofs.Code.Preamble
import RpcStubs.Proofs.Stub.FreeText
import RpcStubs.Proofs.Code.Ink
import RpcStubs.Proofs.Code.MisplacedCase
import RpcStubs.Proofs.Code.Documented
import RpcStubs.Proofs.Schema.Undocumented
import RpcStubs.Proofs.Stub.Documentation
import RpcStubs.Proofs.Text.Utf8
import RpcStubs.Proofs.Wire.JsonText
import RpcStubs.Proofs.Wire.ErrorBodies
import RpcStubs.Proofs.Go.Program
import RpcStubs.Proofs.Stub.Negotiation
import RpcStubs.Code.Edit
import RpcStubs.Proofs.Code.Constructions
import RpcStubs.Proofs.Code.Edits
import RpcStubs.Proofs.Stub.Runs
import RpcStubs.Proofs.Stub.Numbering
import RpcStubs.Proofs.Stub.OutputNames
import RpcStubs.Proofs.Run.WriteLog
import RpcStubs.Proofs.Layout.Segments
import RpcStubs.Proofs.Code.ResolvedImports
import RpcStubs.Proofs.Layout.Seams
import RpcStubs.Proofs.Code.Sections
import RpcStubs.Proofs.Layout.ColumnRuns
import RpcStubs.Proofs.Schema.MessageIndex
import RpcStubs.Proofs.Schema.SharedPackage
import RpcStubs.Proofs.Code.Leaves
import RpcStubs.Proofs.Code.Spellings
import RpcStubs.Proofs.Stub.Quoting
import RpcStubs.Proofs.Stub.Parameters
import RpcStubs.Proofs.Code.Invariants
import RpcStubs.Proofs.Stub.Naming
import RpcStubs.Proofs.Stub.Violations
import RpcStubs.Proofs.Stub.Clientless
import RpcStubs.Proofs.Code.CamelNames
import RpcStubs.Proofs.Code.EmbeddedBytes
