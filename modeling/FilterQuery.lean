import FilterQuery.Filter.Evaluation
import FilterQuery.Filter.Reader
import FilterQuery.Json.Document
import FilterQuery.Json.Failure
import FilterQuery.Json.Printer
import FilterQuery.Main
import FilterQuery.Metadata.Json
import FilterQuery.Proofs.Cli.CommandLines
import FilterQuery.Proofs.Cli.EventLines
import FilterQuery.Proofs.Cli.FieldDeclarations
import FilterQuery.Proofs.Cli.Runs
import FilterQuery.Proofs.Filter.Decoding
import FilterQuery.Proofs.Filter.Footprint
import FilterQuery.Proofs.Filter.Presentation
import FilterQuery.Proofs.Filter.Reduction
import FilterQuery.Proofs.Filter.Restyling
import FilterQuery.Proofs.Filter.Sameness
import FilterQuery.Proofs.Filter.Slots
import FilterQuery.Proofs.Filter.Texts
import FilterQuery.Proofs.Filter.Transport
import FilterQuery.Proofs.Filter.Validity
import FilterQuery.Proofs.Json.Acceptance
import FilterQuery.Proofs.Json.Documents
import FilterQuery.Proofs.Json.Floats
import FilterQuery.Proofs.Json.Integers
import FilterQuery.Proofs.Json.Numerals
import FilterQuery.Proofs.Json.Printing
import FilterQuery.Proofs.Json.Rereading
import FilterQuery.Proofs.Json.Scaling
import FilterQuery.Proofs.Json.Soundness
import FilterQuery.Proofs.Json.Strings
import FilterQuery.Proofs.Metadata.Entries
import FilterQuery.Proofs.Metadata.Transport
import FilterQuery.Proofs.Metadata.Writes
import FilterQuery.Proofs.Number.Bits
import FilterQuery.Proofs.Number.Fewest
import FilterQuery.Proofs.Number.NearestEven
import FilterQuery.Proofs.Number.Positional
import FilterQuery.Proofs.Number.Shortest
import FilterQuery.Proofs.Query.Canonical
import FilterQuery.Proofs.Query.Dependence
import FilterQuery.Proofs.Query.Sameness
import FilterQuery.Proofs.Query.Support
import FilterQuery.Proofs.Query.Unambiguous
import FilterQuery.Proofs.Query.Writing
import FilterQuery.Proofs.Schema.Entries
import FilterQuery.Proofs.Sequences
import FilterQuery.Proofs.SortedMap
import FilterQuery.Proofs.Stream.Endings
import FilterQuery.Proofs.Stream.Lines
import FilterQuery.Proofs.Stream.Payloads
import FilterQuery.Proofs.Stream.Pieces
import FilterQuery.Proofs.Stream.WrittenEvents
import FilterQuery.Proofs.Text.Encoding
import FilterQuery.Proofs.Text.Trimming
import FilterQuery.Proofs.Value.FloatTexts
import FilterQuery.Proofs.Value.MixedOrder
import FilterQuery.Proofs.Value.Order
import FilterQuery.Proofs.Value.Rereading
import FilterQuery.Query.Renderer
import FilterQuery.Query.Rendering
import FilterQuery.Schema.Load
import FilterQuery.Stream.Transcript
import FilterQuery.Value.Json
import FilterQuery.Proofs.Value.IntegerTexts
