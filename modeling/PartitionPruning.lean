import PartitionPruning.Calendar.Date
import PartitionPruning.Calendar.Pattern
import PartitionPruning.Calendar.Timestamp
import PartitionPruning.Command.Arguments
import PartitionPruning.Command.Execute
import PartitionPruning.Command.Run
import PartitionPruning.DataType.Basic
import PartitionPruning.DataType.Name
import PartitionPruning.DataType.Schema
import PartitionPruning.DataType.Serialized
import PartitionPruning.Delta.Predicate
import PartitionPruning.Delta.Prune
import PartitionPruning.Digest.Sha256
import PartitionPruning.Expr.Basic
import PartitionPruning.Expr.Build
import PartitionPruning.Expr.Column
import PartitionPruning.Expr.Evaluate
import PartitionPruning.Expr.Kind
import PartitionPruning.Fault
import PartitionPruning.Fingerprint
import PartitionPruning.Hive.DirectoryName
import PartitionPruning.Hive.Filter
import PartitionPruning.Hive.Prune
import PartitionPruning.Listing.File
import PartitionPruning.Listing.Local
import PartitionPruning.Listing.Segments
import PartitionPruning.Main
import PartitionPruning.Numeric.Decimal
import PartitionPruning.Numeric.DecimalText
import PartitionPruning.Numeric.Double
import PartitionPruning.Numeric.DoubleText
import PartitionPruning.Numeric.Rounding
import PartitionPruning.Numeric.Shortest
import PartitionPruning.Proofs.Calendar.Pattern
import PartitionPruning.Proofs.DataType.Inference
import PartitionPruning.Proofs.DataType.Name
import PartitionPruning.Proofs.DataType.Schema
import PartitionPruning.Proofs.DataType.Serialized
import PartitionPruning.Proofs.Delta.Agreement
import PartitionPruning.Proofs.Expr.Build
import PartitionPruning.Proofs.Expr.Collected
import PartitionPruning.Proofs.Expr.Conjunction
import PartitionPruning.Proofs.Expr.Evaluation
import PartitionPruning.Proofs.Expr.Extension
import PartitionPruning.Proofs.Expr.Layout
import PartitionPruning.Proofs.Expr.Leaves
import PartitionPruning.Proofs.Expr.Logic
import PartitionPruning.Proofs.Expr.Scale
import PartitionPruning.Proofs.Expr.Tag
import PartitionPruning.Proofs.Expr.Truth
import PartitionPruning.Proofs.Failure
import PartitionPruning.Proofs.Fingerprint.Idempotent
import PartitionPruning.Proofs.Fingerprint.Kernel
import PartitionPruning.Proofs.Fingerprint.Keys
import PartitionPruning.Proofs.Fingerprint.Literals
import PartitionPruning.Proofs.Fingerprint.SameQuery
import PartitionPruning.Proofs.Hive.DirectoryName
import PartitionPruning.Proofs.Hive.Filter
import PartitionPruning.Proofs.Hive.Noninterference
import PartitionPruning.Proofs.Hive.Prune
import PartitionPruning.Proofs.Listing.Path
import PartitionPruning.Proofs.Listing.Segments
import PartitionPruning.Proofs.Mirror
import PartitionPruning.Proofs.Numeric.Decimal
import PartitionPruning.Proofs.Numeric.DecimalText
import PartitionPruning.Proofs.Selects
import PartitionPruning.Proofs.Splits.Limit
import PartitionPruning.Proofs.Splits.Order
import PartitionPruning.Proofs.Splits.Oversized
import PartitionPruning.Proofs.Splits.Pack
import PartitionPruning.Proofs.Splits.Packing
import PartitionPruning.Proofs.Splits.Plan
import PartitionPruning.Proofs.Statistics.Bound
import PartitionPruning.Proofs.Statistics.IntegerColumn
import PartitionPruning.Proofs.Statistics.Missing
import PartitionPruning.Proofs.Statistics.References
import PartitionPruning.Proofs.Statistics.Restated
import PartitionPruning.Proofs.Statistics.Soundness
import PartitionPruning.Proofs.Statistics.TextColumn
import PartitionPruning.Proofs.Text.Case
import PartitionPruning.Proofs.Text.Digits
import PartitionPruning.Proofs.Text.Split
import PartitionPruning.Proofs.Tree.Calls
import PartitionPruning.Proofs.Tree.DistinctKeys
import PartitionPruning.Proofs.Tree.Fields
import PartitionPruning.Proofs.Tree.Found
import PartitionPruning.Proofs.Tree.Json.Canonical
import PartitionPruning.Proofs.Tree.Json.Compact
import PartitionPruning.Proofs.Tree.Json.Layout
import PartitionPruning.Proofs.Tree.Json.Lexeme
import PartitionPruning.Proofs.Tree.Json.Reading
import PartitionPruning.Proofs.Tree.Json.RoundTrip
import PartitionPruning.Proofs.Tree.Json.Sorted
import PartitionPruning.Proofs.Tree.Parts
import PartitionPruning.Proofs.Tree.Place
import PartitionPruning.Proofs.Tree.Printable
import PartitionPruning.Proofs.Tree.Replace
import PartitionPruning.Proofs.Tree.Same
import PartitionPruning.Proofs.Tree.Search
import PartitionPruning.Proofs.Tree.Topmost
import PartitionPruning.Proofs.Tree.Written
import PartitionPruning.Proofs.Value.Cast
import PartitionPruning.Proofs.Value.Order
import PartitionPruning.Proofs.Value.Preorder
import PartitionPruning.Proofs.Value.ReadBack
import PartitionPruning.Splits.Pack
import PartitionPruning.Splits.Plan
import PartitionPruning.Statement
import PartitionPruning.Statistics.Bound
import PartitionPruning.Statistics.Mapping
import PartitionPruning.Statistics.Query
import PartitionPruning.Text.Blank
import PartitionPruning.Text.Digits
import PartitionPruning.Text.Shown
import PartitionPruning.Text.Split
import PartitionPruning.Tree.Fields
import PartitionPruning.Tree.Json.Lexeme
import PartitionPruning.Tree.Json.Printer
import PartitionPruning.Tree.Json.Reader
import PartitionPruning.Tree.Json.Record
import PartitionPruning.Tree.Node
import PartitionPruning.Tree.Number
import PartitionPruning.Tree.Outline
import PartitionPruning.Tree.Replace
import PartitionPruning.Tree.Search
import PartitionPruning.Value.Basic
import PartitionPruning.Value.Constant
import PartitionPruning.Value.Order
import PartitionPruning.Value.Parse
import PartitionPruning.Proofs.Value.Recast
import PartitionPruning.Proofs.Hive.Query
import PartitionPruning.Proofs.Statistics.Query
import PartitionPruning.Proofs.Delta.Abort
import PartitionPruning.Proofs.Listing.Walk
import PartitionPruning.Proofs.Listing.Local
