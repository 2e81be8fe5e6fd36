import RecordQuery.Conversion
import RecordQuery.Proofs.Text.Pieces
import RecordQuery.Proofs.Time.Duration
import RecordQuery.Proofs.Time.Instant

/-!
Conversion undoes display. The text of a scalar other than a decimal number, if it keeps
all of it, converts to the type of the scalar and gives the scalar again.
-/

namespace RecordQuery

/-- Both ends of the interval are kept whole by their texts. They need not be in order. -/
def Interval.IsPlain (interval : Interval) : Prop :=
  interval.start.IsPlain ∧ interval.finish.IsPlain

/-- An interval between plain instants is read back from its text. -/
theorem Interval.read?_renderChars (interval : Interval) (h : interval.IsPlain) :
    read? interval.renderChars = some interval := by
  have hslash : '/' ∉ interval.start.renderChars := fun hmem =>
    absurd (Instant.mem_renderChars hmem) (by decide)
  rw [read?, renderChars, Text.splitFirst?_append '/' _ _ hslash]
  simp only [Instant.read?_renderChars _ h.1, Instant.read?_renderChars _ h.2]

namespace Scalar

/-- The scalar is no decimal number, and its text keeps all of it: a duration has no
negative part, and instants have no fraction of the second and a year of four digits. -/
def IsPlain : Scalar → Prop
  | .text _ | .integer _ | .boolean _ | .geometry _ => True
  | .decimal _ => False
  | .instant value => value.IsPlain
  | .duration value => value.IsForward
  | .interval value => value.IsPlain

theorem read?_render (value : Scalar) (h : value.IsPlain) :
    read? value.render value.type = some value := by
  cases value with
  | text value | geometry value => rfl
  | integer value => simp [read?, render, type, Decimal.readInteger?_intDigits]
  | decimal value => exact h.elim
  | boolean value => cases value <;> rfl
  | instant value => simp [read?, render, type, Instant.read?_renderChars value h]
  | duration value => simp [read?, render, type, Duration.read?_renderChars value h]
  | interval value => simp [read?, render, type, Interval.read?_renderChars value h]

end Scalar

/-- The text of a plain scalar converts to the scalar. -/
theorem convert_render (value : Scalar) (h : value.IsPlain) :
    convert value.render value.type = .ok value :=
  (convert_eq_ok_iff _ _ _).mpr (Scalar.read?_render value h)

/-- An interval that ends, on the leap day of the year 0, before it starts. -/
theorem convert_render_of_backward :
    convert "9999-12-31T23:59:59Z/0000-02-29T23:59:59Z" .interval =
      .ok (.interval ⟨⟨253402300799, 0⟩, ⟨-62162035201, 0⟩⟩) := by
  have htext : (Scalar.interval ⟨⟨253402300799, 0⟩, ⟨-62162035201, 0⟩⟩).render =
      "9999-12-31T23:59:59Z/0000-02-29T23:59:59Z" := by
    decide +kernel
  rw [← htext]
  exact convert_render (.interval ⟨⟨253402300799, 0⟩, ⟨-62162035201, 0⟩⟩)
    ⟨⟨rfl, by decide, by decide⟩, ⟨rfl, by decide, by decide⟩⟩

end RecordQuery
