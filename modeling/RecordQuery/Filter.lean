import RecordQuery.Literal
import RecordQuery.Operator
import RecordQuery.PropertyRef

/-!
Filters: a property, an operator and as many literals as the operator takes.
`Filter.render` writes a filter as a clause of the query language.
-/

namespace RecordQuery

/-- One condition on a property. -/
structure Filter where
  operator : Operator
  property : PropertyRef
  operands : List Literal
  /-- The operator takes as many literals as there are. -/
  fits : operator.arity.accepts operands.length = true
  deriving DecidableEq

namespace Filter

/-- The filter of these parts, unless the number of literals does not fit. -/
def make (operator : Operator) (property : PropertyRef) (operands : List Literal) :
    Except QueryError Filter :=
  if h : operator.arity.accepts operands.length = true then
    .ok ⟨operator, property, operands, h⟩
  else
    .error (.invalidArity operator.name operator.arity.text operands.length)

/-- The clause of a filter with these parts. Operands are taken by their place, and there is no
clause if one that the operator is written with is missing. -/
def clauseOf? (operator : Operator) (property : PropertyRef) (operands : List Literal) :
    Option (List Char) :=
  let property := property.chars
  let keyword := operator.keyword.toList
  match operator.arity with
  | .none => some (property ++ ' ' :: keyword)
  | .pair => do
    let lower ← operands[0]?
    let upper ← operands[1]?
    return property ++
      ' ' :: (keyword ++ ' ' :: (lower.renderChars ++ " AND ".toList ++ upper.renderChars))
  | .many =>
    some (property ++ ' ' :: (keyword ++ " (".toList ++
      Text.join [','] (operands.map Literal.renderChars) ++ [')']))
  | .single => do
    let operand ← operands[0]?
    if operator.isSpatial then
      return keyword ++ '(' :: (property ++ ',' :: (operand.renderChars ++ [')']))
    else if operator.isPattern then
      return property ++ ' ' :: (keyword ++ ' ' :: Text.quote (operand.plain?.getD "").toList)
    else return property ++ keyword ++ operand.renderChars

/-- No operand is missing that the clause of a filter needs. -/
theorem isSome_clauseOf? (filter : Filter) :
    (clauseOf? filter.operator filter.property filter.operands).isSome = true := by
  have hoperands := filter.operator.arity.operands_of_accepts filter.operands filter.fits
  unfold clauseOf?
  cases harity : filter.operator.arity with
  | none => rfl
  | many => rfl
  | pair =>
      rw [harity] at hoperands
      obtain ⟨lower, upper, hpair⟩ := hoperands
      rw [hpair]
      rfl
  | single =>
      rw [harity] at hoperands
      obtain ⟨operand, hsingle⟩ := hoperands
      rw [hsingle]
      cases filter.operator.isSpatial <;> cases filter.operator.isPattern <;> rfl

def renderChars (filter : Filter) : List Char :=
  (clauseOf? filter.operator filter.property filter.operands).get filter.isSome_clauseOf?

theorem clauseOf?_eq (filter : Filter) :
    clauseOf? filter.operator filter.property filter.operands = some filter.renderChars :=
  (Option.some_get _).symm

/-- The filter as a clause of a query. -/
def render (filter : Filter) : String :=
  .ofList filter.renderChars

end Filter

end RecordQuery
