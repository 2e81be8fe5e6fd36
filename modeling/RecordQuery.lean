import RecordQuery.Main
import RecordQuery.Proofs.Literal.Typing
import RecordQuery.Proofs.Query.Acceptance
import RecordQuery.Proofs.Query.Elements
import RecordQuery.Proofs.Query.Errors
import RecordQuery.Proofs.Query.Quotation
import RecordQuery.Proofs.Query.Rendering
import RecordQuery.Proofs.Evaluator.Absence
import RecordQuery.Proofs.Evaluator.Conjunction
import RecordQuery.Proofs.Evaluator.Misfit
import RecordQuery.Proofs.Evaluator.Negation
import RecordQuery.Proofs.Evaluator.Pushdown
import RecordQuery.Proofs.Projection.Exclusion
import RecordQuery.Proofs.Grouping
import RecordQuery.Proofs.Text.Numeral
import RecordQuery.Proofs.Time.Calendar
import RecordQuery.Proofs.Time.Duration
import RecordQuery.Proofs.Conversion
import RecordQuery.Proofs.Files.Extension
import RecordQuery.Proofs.Execution.Failing
import RecordQuery.Proofs.Files.Spelling
import RecordQuery.Proofs.Files.Making
import RecordQuery.Proofs.Files.Writing
import RecordQuery.Proofs.Execution.Creating
import RecordQuery.Proofs.Execution.Sequence
import RecordQuery.Proofs.Schema
import RecordQuery.Proofs.Like
import RecordQuery.Proofs.Execution.Counting
import RecordQuery.Proofs.Literal.Composition
import RecordQuery.Proofs.Record
import RecordQuery.Proofs.Suggestion
import RecordQuery.Proofs.Evaluator.Derivation
import RecordQuery.Proofs.Time.Length
import RecordQuery.Proofs.Time.Sum
import RecordQuery.Proofs.Time.Reading
import RecordQuery.Proofs.Time.Difference
import RecordQuery.Proofs.Decimal.Exact
import RecordQuery.Proofs.Decimal.OfInt
import RecordQuery.Proofs.Projection.Selection
import RecordQuery.Proofs.NumericOrder
import RecordQuery.Proofs.Projection.Composition
import RecordQuery.Proofs.Evaluator.Caseless
import RecordQuery.Proofs.OperandCounts
