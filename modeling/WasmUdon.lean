import WasmUdon.Assembly.CodeMap
import WasmUdon.Assembly.Declaration
import WasmUdon.Assembly.Instruction
import WasmUdon.Assembly.Literal
import WasmUdon.Assembly.Program
import WasmUdon.Assembly.Rendering
import WasmUdon.Assembly.Workspace
import WasmUdon.Binary.Cursor
import WasmUdon.Binary.Failure
import WasmUdon.Binary.Leb128
import WasmUdon.Browser.Entry
import WasmUdon.Browser.Model
import WasmUdon.Browser.Terminal
import WasmUdon.Browser.TextField
import WasmUdon.Browser.Viewport
import WasmUdon.Bytes
import WasmUdon.CommandLine.Flag
import WasmUdon.CommandLine.Invocation
import WasmUdon.CommandLine.Parse
import WasmUdon.CommandLine.Run
import WasmUdon.CommandLine.Suggestion
import WasmUdon.CommandLine.Value
import WasmUdon.Decimal.Floating
import WasmUdon.Decimal.Shortest
import WasmUdon.Error
import WasmUdon.Files.Source
import WasmUdon.Files.Tree
import WasmUdon.Global.Entry
import WasmUdon.Listing.Csv
import WasmUdon.Listing.Row
import WasmUdon.Listing.Table
import WasmUdon.Lowering.Initializer
import WasmUdon.Lowering.Journal
import WasmUdon.Lowering.Names
import WasmUdon.Lowering.Operators
import WasmUdon.Lowering.Pipeline
import WasmUdon.Lowering.Section
import WasmUdon.Main
import WasmUdon.Module.Builder
import WasmUdon.Module.Decoder
import WasmUdon.Module.Payload
import WasmUdon.Module.Section
import WasmUdon.Module.Stream
import WasmUdon.Operator.Basic
import WasmUdon.Operator.Opcode
import WasmUdon.Operator.Reader
import WasmUdon.Proofs.Assembly.CodeMap
import WasmUdon.Proofs.Assembly.Legibility
import WasmUdon.Proofs.Assembly.Merging
import WasmUdon.Proofs.Assembly.Operations
import WasmUdon.Proofs.Assembly.Rendering
import WasmUdon.Proofs.Assembly.Settings
import WasmUdon.Proofs.Assembly.Sharing
import WasmUdon.Proofs.Assembly.Validity
import WasmUdon.Proofs.Assembly.Workspace
import WasmUdon.Proofs.Binary.Accounting
import WasmUdon.Proofs.Binary.Numbers
import WasmUdon.Proofs.Binary.Outcomes
import WasmUdon.Proofs.Binary.Reading
import WasmUdon.Proofs.Binary.Relocation
import WasmUdon.Proofs.Binary.Signed
import WasmUdon.Proofs.Binary.WordLoops
import WasmUdon.Proofs.Binary.Written
import WasmUdon.Proofs.Browser.Entries
import WasmUdon.Proofs.Browser.UpToDate
import WasmUdon.Proofs.Decimal.Numerals
import WasmUdon.Proofs.Error.Kinds
import WasmUdon.Proofs.Error.Places
import WasmUdon.Proofs.Error.Reads
import WasmUdon.Proofs.Global.Entries
import WasmUdon.Proofs.Global.Rereading
import WasmUdon.Proofs.Lowering.Balance
import WasmUdon.Proofs.Lowering.Blame
import WasmUdon.Proofs.Lowering.Completeness
import WasmUdon.Proofs.Lowering.Confinement
import WasmUdon.Proofs.Lowering.Faithful
import WasmUdon.Proofs.Lowering.Growth
import WasmUdon.Proofs.Lowering.Immediates
import WasmUdon.Proofs.Lowering.Initializer
import WasmUdon.Proofs.Lowering.Meaning
import WasmUdon.Proofs.Lowering.Names
import WasmUdon.Proofs.Lowering.Outcome
import WasmUdon.Proofs.Lowering.Program
import WasmUdon.Proofs.Lowering.Relocation
import WasmUdon.Proofs.Lowering.Section
import WasmUdon.Proofs.Module.Arrival
import WasmUdon.Proofs.Module.Calls
import WasmUdon.Proofs.Module.Decoding
import WasmUdon.Proofs.Module.Failures
import WasmUdon.Proofs.Module.Grammar
import WasmUdon.Proofs.Module.Places
import WasmUdon.Proofs.Module.Relocation
import WasmUdon.Proofs.Module.Requests
import WasmUdon.Proofs.Module.RoundTrip
import WasmUdon.Proofs.Module.SectionOrder
import WasmUdon.Proofs.Module.Truncation
import WasmUdon.Proofs.Module.Written
import WasmUdon.Proofs.Operator.Delimited
import WasmUdon.Proofs.Operator.Grammar
import WasmUdon.Proofs.Operator.Immediates
import WasmUdon.Proofs.Operator.Relocation
import WasmUdon.Proofs.Operator.TypedSelect
import WasmUdon.Proofs.Operator.Written
import WasmUdon.Proofs.Text.Ascii
import WasmUdon.Screen.Block
import WasmUdon.Screen.BreakClass
import WasmUdon.Screen.Cluster
import WasmUdon.Screen.Glyph
import WasmUdon.Screen.Look
import WasmUdon.Screen.Sequence
import WasmUdon.Screen.Wrap
import WasmUdon.Text.Columns
import WasmUdon.Text.Hex
import WasmUdon.Text.Lowercase
import WasmUdon.Text.Printable
import WasmUdon.Text.Quoted
import WasmUdon.Text.Ranges
import WasmUdon.Text.Space
import WasmUdon.Text.Template
import WasmUdon.Text.Utf8
import WasmUdon.ValueType
