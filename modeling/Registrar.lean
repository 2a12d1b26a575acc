import Registrar.Answer.Aggregation
import Registrar.Answer.Basic
import Registrar.Answer.Group
import Registrar.Answer.Row
import Registrar.Answer.Session
import Registrar.Answer.Sorting
import Registrar.Binary64.Arithmetic
import Registrar.Binary64.Basic
import Registrar.Binary64.Scaling
import Registrar.Binary64.Shortest
import Registrar.Boot.Command
import Registrar.Boot.Config
import Registrar.Boot.Files
import Registrar.Boot.Path
import Registrar.Boot.Start
import Registrar.Catalog.Cell
import Registrar.Catalog.Key
import Registrar.Catalog.Kind
import Registrar.Catalog.Record
import Registrar.Decimal.Basic
import Registrar.Decimal.Digits
import Registrar.Decimal.Text
import Registrar.Decimal.Total
import Registrar.Json.Basic
import Registrar.Json.Encoding
import Registrar.Json.Fields
import Registrar.Json.Numeral
import Registrar.Json.Printer
import Registrar.Json.Reader.Basic
import Registrar.Json.Reader.Number
import Registrar.Json.Reader.Quoted
import Registrar.Json.Written
import Registrar.Keyed
import Registrar.Log.Entry
import Registrar.Main
import Registrar.Proofs.Answer.Aggregation
import Registrar.Proofs.Answer.Average
import Registrar.Proofs.Answer.Basic
import Registrar.Proofs.Answer.Columns
import Registrar.Proofs.Answer.Comparison
import Registrar.Proofs.Answer.Equality
import Registrar.Proofs.Answer.Evaluable
import Registrar.Proofs.Answer.Group
import Registrar.Proofs.Answer.Grouped
import Registrar.Proofs.Answer.Partition
import Registrar.Proofs.Answer.Plain
import Registrar.Proofs.Answer.Precedence
import Registrar.Proofs.Answer.Reordering
import Registrar.Proofs.Answer.Row
import Registrar.Proofs.Answer.Session
import Registrar.Proofs.Answer.Sorting
import Registrar.Proofs.Binary64.Range
import Registrar.Proofs.Binary64.Rounding
import Registrar.Proofs.Binary64.Scaling
import Registrar.Proofs.Binary64.Shortest
import Registrar.Proofs.Binary64.Value
import Registrar.Proofs.Boot.Origins
import Registrar.Proofs.Boot.Start
import Registrar.Proofs.Catalog.Agreement
import Registrar.Proofs.Catalog.Cell
import Registrar.Proofs.Catalog.Reading
import Registrar.Proofs.Catalog.Record
import Registrar.Proofs.Decimal.Text
import Registrar.Proofs.Decimal.Value
import Registrar.Proofs.Failure
import Registrar.Proofs.FirstOccurrences
import Registrar.Proofs.Json.Number
import Registrar.Proofs.Json.Numeral
import Registrar.Proofs.Json.Printable
import Registrar.Proofs.Json.ReadBack
import Registrar.Proofs.Json.Reading
import Registrar.Proofs.Json.WellFormed
import Registrar.Proofs.Keyed
import Registrar.Proofs.Log.Line
import Registrar.Proofs.Query.Acceptance
import Registrar.Proofs.Query.Binding
import Registrar.Proofs.Query.Faults
import Registrar.Proofs.Query.Filter
import Registrar.Proofs.Query.Grammar
import Registrar.Proofs.Query.Grouping
import Registrar.Proofs.Query.Matching
import Registrar.Proofs.Query.Order
import Registrar.Proofs.Query.Pattern
import Registrar.Proofs.Query.Reading
import Registrar.Proofs.Query.Rejection
import Registrar.Proofs.Query.Rendering
import Registrar.Proofs.Query.Shape
import Registrar.Proofs.Registry.Accounting
import Registrar.Proofs.Registry.Dataset
import Registrar.Proofs.Registry.Interleaving
import Registrar.Proofs.Registry.Invariant
import Registrar.Proofs.Registry.Lifecycle
import Registrar.Proofs.Registry.Locality
import Registrar.Proofs.Registry.Presence
import Registrar.Proofs.Registry.Replies
import Registrar.Proofs.Registry.RoundTrip
import Registrar.Proofs.Registry.Run
import Registrar.Proofs.Service.Agreement
import Registrar.Proofs.Service.Envelope
import Registrar.Proofs.Service.Refinement
import Registrar.Proofs.Service.Texts
import Registrar.Proofs.StableSort
import Registrar.Proofs.Success
import Registrar.Proofs.Text.Bytes
import Registrar.Query.Basic
import Registrar.Query.Binding
import Registrar.Query.Filter
import Registrar.Query.Pattern
import Registrar.Query.Reader
import Registrar.Query.Rejection
import Registrar.Query.Shape
import Registrar.Query.Where
import Registrar.Registry.Basic
import Registrar.Registry.Counters
import Registrar.Registry.Dataset
import Registrar.Service.Basic
import Registrar.Service.Config
import Registrar.Service.Fault
import Registrar.Service.Origins
import Registrar.Service.Route
import Registrar.Text.Blank
import Registrar.Text.Hex
import Registrar.Text.Percent
