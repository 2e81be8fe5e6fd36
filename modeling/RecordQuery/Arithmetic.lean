import RecordQuery.Literal
import RecordQuery.Value

/-!
Arithmetic on values. Whole numbers are combined exactly and the result must be
in range; if one operand is a decimal, both are. Durations are added to and
subtracted from instants and each other, and the difference of two instants is
a duration in seconds.
-/

namespace RecordQuery

namespace ArithmeticOperator

/-- The exact result on whole numbers. Division is cut off toward zero and needs
a divisor other than zero. -/
def onIntegers? : ArithmeticOperator → Int → Int → Option Int
  | .add, a, b => some (a + b)
  | .sub, a, b => some (a - b)
  | .mul, a, b => some (a * b)
  | .div, a, b => if b = 0 then none else some (a.tdiv b)

def onDecimals : ArithmeticOperator → Float → Float → Float
  | .add, a, b => a + b
  | .sub, a, b => a - b
  | .mul, a, b => a * b
  | .div, a, b => a / b

/-- The result on decimals, which must be finite. -/
def finite? (op : ArithmeticOperator) (a b : Float) : Option Scalar :=
  let result := op.onDecimals a b
  if result.isFinite then some (.decimal result) else none

/-- The result on two scalars, if the operator applies to them. -/
def combine? (op : ArithmeticOperator) : Scalar → Scalar → Option Scalar
  | .integer a, .integer b => do
    let exact ← op.onIntegers? a.toInt b.toInt
    let word ← Word.ofInt? exact
    return .integer word
  | .integer a, .decimal b => op.finite? (Decimal.ofInt a.toInt) b
  | .decimal a, .integer b => op.finite? a (Decimal.ofInt b.toInt)
  | .decimal a, .decimal b => op.finite? a b
  | .instant t, .duration d =>
    match op with
    | .add => (d.after? t).map .instant
    | .sub => (d.before? t).map .instant
    | _ => none
  | .duration d, .instant t =>
    match op with
    | .add => (d.after? t).map .instant
    | _ => none
  | .duration a, .duration b =>
    match op with
    | .add => some (.duration (a.plus b))
    | .sub => some (.duration (a.plus b.negate))
    | _ => none
  | .instant a, .instant b =>
    match op with
    | .sub => some (.duration ⟨0, 0, Word.clamp (a.secondsSince b)⟩)
    | _ => none
  | _, _ => none

/-- The result on two values. Only scalars have one. -/
def combine (op : ArithmeticOperator) (left right : Value) : Except QueryError Scalar :=
  let result? :=
    match left, right with
    | .scalar a, .scalar b => op.combine? a b
    | _, _ => none
  match result? with
  | some result => .ok result
  | none => .error (.unsupportedArithmetic left.render op.sign right.render)

theorem combine_scalars_eq_ok_iff (op : ArithmeticOperator) (a b result : Scalar) :
    op.combine (.scalar a) (.scalar b) = .ok result ↔ op.combine? a b = some result := by
  cases h : op.combine? a b <;> simp [combine, h]

end ArithmeticOperator

end RecordQuery
