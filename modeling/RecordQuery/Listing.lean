import RecordQuery.Constraints
import RecordQuery.Style

/-!
Queries and constraints as tables for readers, and as structured values. A table
has a row for each filter: its operator, its property and its operands.
-/

namespace RecordQuery

namespace Listing

/-- The text with blanks behind it up to a width. -/
def padded (width : Nat) (text : String) : String :=
  text ++ .ofList (List.replicate (width - text.length) ' ')

/-- The text cut off at a width, with three dots if anything is missing. -/
def shortened (width : Nat) (text : String) : String :=
  if width < text.length then .ofList (text.toList.take (width - 3)) ++ "..." else text

def operatorWidth : Nat := 12

def propertyWidth : Nat := 20

def line (operator property values : String) : String :=
  operator ++ " " ++ padded propertyWidth property ++ " " ++ values

/-- What a row shows. -/
structure Row where
  operator : Operator
  property : PropertyRef
  values : List String

namespace Row

def render (colored : Bool) (row : Row) : String :=
  line (Style.cyan.paint colored (padded operatorWidth row.operator.name))
    (shortened propertyWidth row.property.text) (", ".intercalate row.values) ++ "\n"

end Row

def header (colored : Bool) : String :=
  Style.dim.paint colored (line (padded operatorWidth "Operator") "Property" "Values") ++ "\n"

/-- The table of some rows, or a remark if there are none. -/
def table (colored : Bool) (remark : String) (rows : List Row) : String :=
  if rows.isEmpty then remark ++ "\n"
  else .join (header colored :: rows.map (·.render colored))

end Listing

namespace Query

def rows (query : Query) : List Listing.Row :=
  query.map fun filter => ⟨filter.operator, filter.property, filter.operands.map Literal.render⟩

/-- The filters of a query as a table. -/
def table (colored : Bool) (query : Query) : String :=
  Listing.table colored "No filters." query.rows

/-- The filters of a query with the text that it was read from. -/
def report (text : String) (query : Query) : Json :=
  .object [("query", .string text), ("normalized", .string query.render),
    ("filters", .array (query.map fun filter =>
      .object [("pattern", .string filter.operator.name),
        ("property", .string filter.property.text),
        ("values", .array (filter.operands.map fun operand => .string operand.render)),
        ("clause", .string filter.render)]))]

end Query

namespace Constraints

def rows (constraints : Constraints) : List Listing.Row :=
  constraints.buckets.flatMap fun (operator, bucket) =>
    bucket.map fun constraint =>
      ⟨operator, constraint.property, constraint.values.map Scalar.render⟩

def table (colored : Bool) (constraints : Constraints) : String :=
  Listing.table colored "No constraints." constraints.rows

end Constraints

end RecordQuery
