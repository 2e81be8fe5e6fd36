import RecordQuery.Predicate
import RecordQuery.Quantifier
import RecordQuery.Query
import RecordQuery.Resolution
import RecordQuery.Schema

/-!
Evaluation of queries on records. A query is compiled against a schema once: its
properties are looked up and its literals resolved. Then records are tested.

A record is kept if every filter passes. `IS NULL` and its negation are about the
value of the property as a whole; any other filter passes if some leaf of the
value does, after the function around the property has been applied to it.
Spatial filters are checked at compilation and left to the store.
-/

namespace RecordQuery

/-- A filter with its property and literals resolved, ready for records of type `α`. -/
structure Condition (α : Type) where
  property : Property α
  function : Option Function
  predicate : Predicate

namespace Condition

variable {α : Type}

/-- Whether a leaf passes. One to which the function does not apply fails. -/
def passesLeaf (condition : Condition α) (leaf : Scalar) : Bool :=
  match condition.function with
  | none => condition.predicate.test leaf
  | some function =>
    match function.applyTo? leaf with
    | some result => condition.predicate.test result
    | none => false

mutual

/-- Whether some leaf of the value passes. Optional layers are taken off one by one,
an undefined value fails, and a list passes if any of its elements does. -/
def passesSome (condition : Condition α) : Value → Bool
  | .scalar leaf => condition.passesLeaf leaf
  | .undefined => false
  | .defined value => condition.passesSome value
  | .list items => Quantifier.any.test (fun passed => passed) (condition.passesEach items)

def passesEach (condition : Condition α) : List Value → List Bool
  | [] => []
  | item :: rest => condition.passesSome item :: condition.passesEach rest

end

def passesValue (condition : Condition α) (value : Value) : Bool :=
  match condition.predicate with
  | .null negated => value.isNull != negated
  | _ => condition.passesSome value

def passes (condition : Condition α) (item : α) : Bool :=
  (condition.property.value? item).any condition.passesValue

end Condition

namespace Filter

/-- The predicate of a filter, with literals resolved to the type. -/
def predicate (filter : Filter) (target : ValueType) : Except QueryError Predicate :=
  let ordered (accepts : Ordering → Bool) (literal : Literal) := do
    return Predicate.ordered accepts (← literal.resolve target)
  match filter.operator, filter.operands with
  | .equal, [a] => do return .equal false (← a.resolve target)
  | .notEqual, [a] => do return .equal true (← a.resolve target)
  | .less, [a] => ordered (· == .lt) a
  | .greater, [a] => ordered (· == .gt) a
  | .atMost, [a] => ordered (· != .gt) a
  | .atLeast, [a] => ordered (· != .lt) a
  | .between, [a, b] => do return .between false (← a.resolve target) (← b.resolve target)
  | .notBetween, [a, b] => do return .between true (← a.resolve target) (← b.resolve target)
  | .like, [a] => .ok (.like false false (a.plain?.getD ""))
  | .notLike, [a] => .ok (.like true false (a.plain?.getD ""))
  | .ilike, [a] => .ok (.like false true (a.plain?.getD ""))
  | .notIlike, [a] => .ok (.like true true (a.plain?.getD ""))
  | .inList, a :: rest => do return .inList false (← Literal.resolveEach (a :: rest) target)
  | .notInList, a :: rest => do return .inList true (← Literal.resolveEach (a :: rest) target)
  | .isNull, [] => .ok (.null false)
  | .isNotNull, [] => .ok (.null true)
  | operator, operands =>
    .error (.invalidArity operator.name operator.arity.text operands.length)

end Filter

/-- The conditions of a query that are tested on records. -/
structure Evaluator (α : Type) where
  conditions : List (Condition α)

namespace Evaluator

variable {α : Type}

/-- The condition of a filter on records with the schema. A resolvable property has no
value to test. -/
def compileFilter (schema : Schema α) (filter : Filter) :
    Except QueryError (Condition α) := do
  let subject ← schema.subject filter.property
  if subject.property.isResolvable then throw (.resolvableProperty subject.property.name)
  else
    let predicate ← filter.predicate subject.type
    return ⟨subject.property, subject.function, predicate⟩

/-- The conditions of the filters other than the spatial ones, or the first error. -/
def compileAll (schema : Schema α) : List Filter → Except QueryError (List (Condition α))
  | [] => .ok []
  | filter :: rest =>
    if filter.operator.isSpatial then do
      schema.checkGeometry filter.property
      compileAll schema rest
    else do
      let condition ← compileFilter schema filter
      let others ← compileAll schema rest
      return condition :: others

/-- Compiles a query for records with the schema. -/
def compile (schema : Schema α) (query : Query) : Except QueryError (Evaluator α) := do
  return ⟨← compileAll schema query⟩

def size (evaluator : Evaluator α) : Nat :=
  evaluator.conditions.length

def isEmpty (evaluator : Evaluator α) : Bool :=
  evaluator.conditions.isEmpty

def keeps (evaluator : Evaluator α) (item : α) : Bool :=
  evaluator.conditions.all (·.passes item)

def apply (evaluator : Evaluator α) (items : List α) : List α :=
  items.filter evaluator.keeps

def keep? (evaluator : Evaluator α) (item : α) : Option α :=
  if evaluator.keeps item then some item else none

/-- The groups with a record that passes, each with all of its records, in order. -/
def applyGroups {κ : Type} (evaluator : Evaluator α) (groups : List (κ × List α)) :
    List (κ × List α) :=
  groups.filter fun (_, items) => items.any evaluator.keeps

end Evaluator

end RecordQuery
