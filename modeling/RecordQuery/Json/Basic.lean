import RecordQuery.Decimal.Text

/-!
Structured values. The fields of an object are kept in the order in which they
are written. Whole numbers are kept exactly, all other numbers as binary
floating-point numbers.
-/

namespace RecordQuery

/-- A structured value. -/
inductive Json where
  | null
  | boolean (value : Bool)
  | integer (value : Int)
  | decimal (value : Float)
  | string (value : String)
  | array (items : List Json)
  | object (fields : List (String × Json))

namespace Json

/-- The text if there is one, else null. -/
def ofOption? (text : Option String) : Json :=
  match text with
  | some t => .string t
  | none => .null

end Json

end RecordQuery
