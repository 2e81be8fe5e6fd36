import RecordQuery.Decimal.Reading
import RecordQuery.Error
import RecordQuery.Scalar

/-!
Conversion of texts to scalars of a type, in the syntax of queries.
-/

namespace RecordQuery

/-- The scalar of the type that a text stands for. -/
def Scalar.read? (text : String) : ValueType → Option Scalar
  | .text => some (.text text)
  | .integer => (Decimal.readInteger? text.toList).map .integer
  | .decimal => ((Decimal.read? text.toList).filter Float.isFinite).map .decimal
  | .boolean =>
    if text = "true" then some (.boolean true)
    else if text = "false" then some (.boolean false)
    else none
  | .instant => (Instant.read? text.toList).map .instant
  | .duration => (Duration.read? text.toList).map .duration
  | .interval => (Interval.read? text.toList).map .interval
  | .geometry => some (.geometry text)

/-- Converts a text to a type, or tells that it cannot be converted. -/
def convert (text : String) (target : ValueType) : Except QueryError Scalar :=
  match Scalar.read? text target with
  | some value => .ok value
  | none => .error (.conversion text target)

/-- What a text converts to has the type asked for. -/
theorem Scalar.type_of_read? {text : String} {target : ValueType} {value : Scalar}
    (h : Scalar.read? text target = some value) : value.type = target := by
  cases target with
  | text | geometry =>
    simp only [Scalar.read?, Option.some.injEq] at h
    subst h
    rfl
  | boolean =>
    simp only [Scalar.read?] at h
    split at h
    · cases h
      rfl
    · split at h
      · cases h
        rfl
      · cases h
  | _ =>
    obtain ⟨x, _, rfl⟩ := Option.map_eq_some_iff.mp h
    rfl

theorem convert_eq_ok_iff (text : String) (target : ValueType) (value : Scalar) :
    convert text target = .ok value ↔ Scalar.read? text target = some value := by
  cases h : Scalar.read? text target <;> simp [convert, h]

end RecordQuery
