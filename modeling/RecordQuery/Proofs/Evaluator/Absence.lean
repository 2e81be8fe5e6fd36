import RecordQuery.Proofs.Evaluator.Meaning

/-!
Null checks against the other filters. `IS NULL` passes the records that have no
value for the property, or a list that is empty however its lists are nested. An
absent value has no leaf. Every other operator wants a leaf or, if it is the
negated check, a value that is not absent, so that none of them passes a record
that `IS NULL` passes. A function around the property makes no difference: it is
applied to leaves only.
-/

namespace RecordQuery

namespace Operator

/-- Nothing but the null check is said of an absent value. -/
theorem not_holds_of_isAbsent (operator : Operator) (hoperator : operator ≠ .isNull)
    (function : Option Function) (operands : List Scalar) (value : Value)
    (habsent : value.IsAbsent) : ¬operator.Holds function operands value := by
  cases operator with
  | isNull => exact absurd rfl hoperator
  | isNotNull => exact fun hholds => hholds habsent
  | _ =>
      -- Each of the others is about some leaf.
      rintro ⟨leaf, hleaf, _⟩
      rw [value.leaves_of_isAbsent habsent] at hleaf
      cases hleaf

end Operator

namespace Evaluator

variable {α : Type}

/-- A null check passes a record if and only if its value for the property is undefined
or is a list without elements, and then no filter with another operator on the property
passes the record, with a function around the property or without one. -/
theorem null_excludes_others (schema : Schema α) (absence : Filter) (null : Condition α)
    (habsence : absence.operator = .isNull)
    (hnull : compileFilter schema absence = .ok null) (item : α) :
    ∃ property value, schema.find? absence.property.property.text = some property ∧
      property.value? item = some value ∧
      (null.passes item = true ↔ value.IsAbsent) ∧
      (null.passes item = true → ∀ (other : Filter) (condition : Condition α),
        other.operator ≠ .isNull → other.property.property = absence.property.property →
        compileFilter schema other = .ok condition → condition.passes item = false) := by
  obtain ⟨resolved, hresolved, hnullMeans⟩ :=
    passes_iff_of_compileFilter schema absence null hnull
  obtain ⟨value, hvalue, hpasses⟩ := hnullMeans item
  rw [habsence] at hpasses
  have hfind := find?_of_resolution schema absence resolved hresolved
  refine ⟨resolved.1.property, value, hfind, hvalue, hpasses, ?_⟩
  intro hnullPasses other condition hother hsame hcondition
  obtain ⟨resolved', hresolved', hmeans⟩ :=
    passes_iff_of_compileFilter schema other condition hcondition
  obtain ⟨value', hvalue', hpasses'⟩ := hmeans item
  have hproperty : resolved'.1.property = resolved.1.property := by
    have hfind' := find?_of_resolution schema other resolved' hresolved'
    rw [hsame, hfind] at hfind'
    exact (Option.some.inj hfind').symm
  rw [hproperty, hvalue] at hvalue'
  obtain rfl := Option.some.inj hvalue'
  rw [← Bool.not_eq_true, hpasses']
  exact other.operator.not_holds_of_isAbsent hother _ _ value (hpasses.mp hnullPasses)

/-- A list of empty lists passes the null check and not a negated equality. -/
theorem null_excludes_others_of_empty :
    let item : Value := .list [.list [], .defined (.list [.list []])]
    ∃ null condition : Condition Value,
      compileFilter (.ofValues "sizes" .integer) ⟨.isNull, ⟨"sizes"⟩, [], rfl⟩ = .ok null ∧
      compileFilter (.ofValues "sizes" .integer)
        ⟨.notEqual, ⟨"round(sizes)"⟩, [.plain "5"], rfl⟩ = .ok condition ∧
      null.passes item = true ∧ condition.passes item = false := by
  intro item
  refine ⟨_, _, rfl, rfl, rfl, ?_⟩
  obtain ⟨_, _, _, _, _, hothers⟩ :=
    null_excludes_others (.ofValues "sizes" .integer) ⟨.isNull, ⟨"sizes"⟩, [], rfl⟩ _ rfl rfl item
  exact hothers rfl ⟨.notEqual, ⟨"round(sizes)"⟩, [.plain "5"], rfl⟩ _ nofun rfl rfl

end Evaluator

end RecordQuery
