import RecordQuery.Application
import RecordQuery.Arithmetic
import RecordQuery.Conversion

/-!
Resolution of literals: from a literal and the type of the property it is
compared with to a scalar. The argument of a call is converted to the type that
the function takes. Operands of arithmetic are resolved one by one; where the
target is an instant or a duration, an operand written as a duration stays one,
and where it is a duration, so does an instant.
-/

namespace RecordQuery.Literal

/-- The type to which an operand of arithmetic is resolved. -/
def operandTarget (target : ValueType) : Literal → ValueType
  | .plain value =>
    if (target = .instant ∨ target = .duration) ∧ (Duration.read? value.toList).isSome then .duration
    else if target = .duration ∧ (Instant.read? value.toList).isSome then .instant
    else target
  | _ => target

/-- The scalar that the literal stands for where the target type is asked for. -/
def resolve : Literal → ValueType → Except QueryError Scalar
  | .plain value, target => convert value target
  | .call name argument, target => do
    let function ← Function.ofName name
    match argument with
    | none => throw (.unsupportedFunction function.name (Literal.call name none).render)
    | some argument =>
      let value ← convert argument (function.inputType target)
      function.apply (.scalar value) argument
  | .arithmetic left op right, target => do
    let a ← left.resolve (operandTarget target left)
    let b ← right.resolve (operandTarget target right)
    op.combine (.scalar a) (.scalar b)

/-- The scalars of all literals for one target type. -/
def resolveEach (literals : List Literal) (target : ValueType) : Except QueryError (List Scalar) :=
  literals.mapM fun literal => literal.resolve target

end RecordQuery.Literal
