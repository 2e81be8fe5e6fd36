import RecordQuery.Function
import RecordQuery.Value

/-!
Application of the functions of the query language to values.
-/

namespace RecordQuery

/-- The number without its fraction. The sign stays, also that of a zero. Below one
in magnitude nothing else is left, and from 2^52 on there is no fraction; in between
the low bits of the significand are cleared. -/
def Decimal.truncate (x : Float) : Float :=
  let bits := x.toBits
  let exponent := (bits >>> 52) &&& 0x7FF
  if exponent < 1023 then Float.ofBits (bits &&& 0x8000000000000000)
  else if 1075 ≤ exponent then x
  else Float.ofBits ((bits >>> (1075 - exponent)) <<< (1075 - exponent))

namespace Function

/-- The result on a scalar, if the function applies to it. -/
def applyTo? : Function → Scalar → Option Scalar
  | .round, .integer value => some (.integer value)
  | .round, .decimal value => some (.decimal (Decimal.truncate value))
  | .startOf, .interval value => some (.instant value.start)
  | .endOf, .interval value => some (.instant value.finish)
  | _, _ => none

/-- The result on a value. `property` names the argument in the error. -/
def apply (function : Function) (value : Value) (property : String) : Except QueryError Scalar :=
  let result? :=
    match value with
    | .scalar scalar => function.applyTo? scalar
    | _ => none
  match result? with
  | some result => .ok result
  | none => .error (.unsupportedFunction function.name property)

/-- A function applies to a scalar if it accepts the type of it. -/
theorem isSome_applyTo? (function : Function) (scalar : Scalar) :
    (function.applyTo? scalar).isSome = function.accepts scalar.type := by
  cases function <;> cases scalar <;> rfl

theorem type_of_applyTo? {function : Function} {scalar result : Scalar}
    (h : function.applyTo? scalar = some result) :
    result.type = function.outputType?.getD scalar.type := by
  cases function <;> cases scalar <;> cases h <;> rfl

theorem apply_scalar_eq_ok_iff (function : Function) (scalar result : Scalar) (property : String) :
    function.apply (.scalar scalar) property = .ok result ↔
      function.applyTo? scalar = some result := by
  cases h : function.applyTo? scalar <;> simp [apply, h]

end Function

end RecordQuery
