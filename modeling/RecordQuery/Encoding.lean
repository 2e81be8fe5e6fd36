import RecordQuery.Json.Writer
import RecordQuery.Query

/-!
Literals, filters and queries as structured values.
-/

namespace RecordQuery

def ArithmeticOperator.name : ArithmeticOperator → String
  | .add => "Add"
  | .sub => "Sub"
  | .mul => "Mul"
  | .div => "Div"

def Literal.toJson : Literal → Json
  | .plain value => .object [("kind", .string "plain"), ("value", .string value)]
  | .call name argument =>
    .object [("kind", .string "function_call"), ("name", .string name),
      ("argument", Json.ofOption? argument)]
  | .arithmetic left op right =>
    .object [("kind", .string "arithmetic"), ("left", left.toJson), ("op", .string op.name),
      ("right", right.toJson)]

def Filter.toJson (filter : Filter) : Json :=
  .object [("pattern", .string filter.operator.name), ("property", .string filter.property.text),
    ("values", .array (filter.operands.map Literal.toJson))]

def Query.toJson (query : Query) : Json :=
  .array (query.map Filter.toJson)

end RecordQuery
