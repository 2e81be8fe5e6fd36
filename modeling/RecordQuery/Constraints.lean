import RecordQuery.Encoding
import RecordQuery.Resolution
import RecordQuery.Schema

/-!
Constraints: the filters of a query by operator, with their literals resolved,
for a store that applies them itself. Spatial filters are checked and left out.
-/

namespace RecordQuery

/-- A property and the resolved operands of one filter on it. -/
structure Constraint where
  property : PropertyRef
  values : List Scalar

/-- The constraints of each operator, operators in the order of their first filter. -/
structure Constraints where
  buckets : List (Operator × List Constraint)

namespace Constraints

variable {α : Type}

/-- The buckets with one more constraint at the end of its operator's. -/
def push (operator : Operator) (constraint : Constraint) :
    List (Operator × List Constraint) → List (Operator × List Constraint)
  | [] => [(operator, [constraint])]
  | (op, bucket) :: rest =>
    if op = operator then (op, bucket ++ [constraint]) :: rest
    else (op, bucket) :: push operator constraint rest

/-- The operands of a filter as scalars of the type. Text patterns stay text. -/
def operands (filter : Filter) (target : ValueType) : Except QueryError (List Scalar) :=
  if filter.operator.isPattern then
    .ok ((filter.operands.filterMap Literal.plain?).map .text)
  else Literal.resolveEach filter.operands target

/-- What is recorded of a filter. -/
def constraintOf (accessor : Accessor α) (filter : Filter) : Except QueryError Constraint := do
  let subject ← accessor.subject filter.property
  let values ← operands filter subject.type
  return ⟨filter.property, values⟩

/-- The buckets after the filters that are left. -/
def groupFrom (accessor : Accessor α) :
    List Filter → List (Operator × List Constraint) →
    Except QueryError (List (Operator × List Constraint))
  | [], buckets => .ok buckets
  | filter :: rest, buckets =>
    if filter.operator.isSpatial then do
      accessor.checkGeometry filter.property
      groupFrom accessor rest buckets
    else do
      let constraint ← constraintOf accessor filter
      groupFrom accessor rest (push filter.operator constraint buckets)

/-- The constraints of a query on properties that are reached in some way, or the first
error in its filters. -/
def groupBy (accessor : Accessor α) (query : Query) : Except QueryError Constraints := do
  return ⟨← groupFrom accessor query []⟩

/-- The constraints of a query on the properties of a schema. -/
def group (schema : Schema α) (query : Query) : Except QueryError Constraints :=
  groupBy schema.accessor query

def isEmpty (constraints : Constraints) : Bool :=
  constraints.buckets.all fun (_, bucket) => bucket.isEmpty

def get (constraints : Constraints) (operator : Operator) : List Constraint :=
  match constraints.buckets.find? fun (op, _) => op == operator with
  | some (_, bucket) => bucket
  | none => []

/-- The operands of each filter with this operator and property. -/
def operandsOf (constraints : Constraints) (operator : Operator) (property : String) :
    List (List Scalar) :=
  ((constraints.get operator).filter (·.property.text == property)).map (·.values)

/-- The operand of each filter with this operator and property. -/
def singles (constraints : Constraints) (operator : Operator) (property : String) : List Scalar :=
  (constraints.operandsOf operator property).filterMap List.head?

/-- The two operands of each filter with this operator and property. -/
def pairs (constraints : Constraints) (operator : Operator) (property : String) :
    List (Scalar × Scalar) :=
  (constraints.operandsOf operator property).filterMap fun
    | [lower, upper] => some (lower, upper)
    | _ => none

/-- The text pattern of each filter with this operator and property. -/
def texts (constraints : Constraints) (operator : Operator) (property : String) : List String :=
  (constraints.singles operator property).filterMap fun
    | .text value => some value
    | _ => none

/-- Whether there is a filter with this operator and property. -/
def has (constraints : Constraints) (operator : Operator) (property : String) : Bool :=
  !(constraints.operandsOf operator property).isEmpty

def toJson (constraints : Constraints) : Json :=
  .object (constraints.buckets.map fun (operator, bucket) =>
    (operator.name, .array (bucket.map fun constraint =>
      .object [("property", .string constraint.property.text),
        ("values", .array (constraint.values.map Scalar.toJson))])))

end Constraints

end RecordQuery
