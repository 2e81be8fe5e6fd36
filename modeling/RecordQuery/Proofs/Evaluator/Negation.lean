import RecordQuery.Proofs.Evaluator.Meaning

/-!
Operators and their negations. A negated operator accepts just the scalars that the
operator does not, but both are asked of every leaf of a value, and one leaf that
is accepted is enough. So a value with a leaf passes at least one of the two, a
value with several may pass both, and a value with just one leaf passes just one of
them. Leaves to which the function around the property does not apply do not count.
-/

namespace RecordQuery

/-- The leaves of the value to which the function applies, all of them without one. -/
def Value.usable (value : Value) (function : Option Function) : List Scalar :=
  value.leaves.filter fun leaf => function.all (·.accepts leaf.type)

theorem Value.mem_usable_iff (value : Value) (function : Option Function) (leaf : Scalar) :
    leaf ∈ value.usable function ↔ leaf ∈ value.leaves ∧
      ∃ result, function.elim (some leaf) (·.applyTo? leaf) = some result := by
  rw [usable, List.mem_filter]
  refine and_congr_right fun _ => ?_
  cases function with
  | none => simp
  | some function =>
      rw [Option.elim_some, ← Option.isSome_iff_exists, function.isSome_applyTo?]
      simp

namespace Operator

/-- The operator with `NOT`, or with `<>` for equality. -/
def negation? : Operator → Option Operator
  | .equal => some .notEqual
  | .between => some .notBetween
  | .like => some .notLike
  | .ilike => some .notIlike
  | .inList => some .notInList
  | _ => none

/-- Whether the operator is asked of the leaves of a value, one by one. -/
def isAboutLeaves : Operator → Bool
  | .isNull | .isNotNull | .intersects => false
  | _ => true

variable {operator negated : Operator}

/-- A negation is an operator of the same kind. -/
theorem same_kind_of_negation? (h : operator.negation? = some negated) :
    (operator.isAboutLeaves = true ∧ negated.isAboutLeaves = true) ∧
      negated.isPattern = operator.isPattern := by
  cases operator <;> cases h <;> exact ⟨⟨rfl, rfl⟩, rfl⟩

theorem not_spatial_of_isAboutLeaves (h : operator.isAboutLeaves = true) :
    operator.isSpatial = false := by
  cases operator <;> first | rfl | cases h

/-- With operands that fit, the negation accepts what the operator does not. -/
theorem accepts_negation_iff (h : operator.negation? = some negated) (operands : List Scalar)
    (hfits : operator.arity.accepts operands.length = true)
    (htexts : operator.isPattern = true → ∀ x ∈ operands, ∃ pattern, x = .text pattern)
    (leaf : Scalar) : negated.Accepts operands leaf ↔ ¬operator.Accepts operands leaf := by
  have hform := operator.arity.operands_of_accepts operands hfits
  cases operator with
  | equal =>
      obtain ⟨a, rfl⟩ := hform
      cases h
      rfl
  | between =>
      obtain ⟨a, b, rfl⟩ := hform
      cases h
      rfl
  | like | ilike =>
      obtain ⟨a, rfl⟩ := hform
      obtain ⟨pattern, rfl⟩ := htexts rfl a (by simp)
      cases h
      rfl
  | inList =>
      cases h
      rfl
  | _ => cases h

/-- An operator on leaves holds if it accepts what a usable leaf gives. -/
theorem holds_iff_usable (h : operator.isAboutLeaves = true) (function : Option Function)
    (operands : List Scalar) (value : Value) :
    operator.Holds function operands value ↔ ∃ leaf ∈ value.usable function, ∃ result,
      function.elim (some leaf) (·.applyTo? leaf) = some result ∧
        operator.Accepts operands result := by
  have hholds : operator.Holds function operands value ↔ ∃ leaf ∈ value.leaves, ∃ result,
      function.elim (some leaf) (·.applyTo? leaf) = some result ∧
        operator.Accepts operands result := by
    cases operator <;> first | rfl | cases h
  rw [hholds]
  constructor
  · rintro ⟨leaf, hleaf, result, hresult, haccepts⟩
    have husable := (value.mem_usable_iff function leaf).mpr ⟨hleaf, result, hresult⟩
    exact ⟨leaf, husable, result, hresult, haccepts⟩
  · rintro ⟨leaf, husable, hrest⟩
    exact ⟨leaf, ((value.mem_usable_iff function leaf).mp husable).1, hrest⟩

variable (h : operator.negation? = some negated) (operands : List Scalar)
  (hnegates : ∀ leaf, negated.Accepts operands leaf ↔ ¬operator.Accepts operands leaf)

include h hnegates

/-- A usable leaf is accepted by the operator or by its negation. -/
theorem holds_or_negation_iff (function : Option Function) (value : Value) :
    (operator.Holds function operands value ∨ negated.Holds function operands value) ↔
      value.usable function ≠ [] := by
  obtain ⟨⟨habout, habout'⟩, _⟩ := same_kind_of_negation? h
  rw [holds_iff_usable habout, holds_iff_usable habout']
  constructor
  · rintro (⟨leaf, husable, _⟩ | ⟨leaf, husable, _⟩) <;> exact List.ne_nil_of_mem husable
  · intro hne
    obtain ⟨leaf, husable⟩ := List.exists_mem_of_ne_nil _ hne
    obtain ⟨_, result, hresult⟩ := (value.mem_usable_iff function leaf).mp husable
    by_cases haccepts : operator.Accepts operands result
    · exact .inl ⟨leaf, husable, result, hresult, haccepts⟩
    · exact .inr ⟨leaf, husable, result, hresult, (hnegates result).mpr haccepts⟩

/-- If there is one usable leaf, it is not accepted by both. -/
theorem holds_negation_iff_of_usable (function : Option Function) (value : Value)
    (leaf : Scalar) (husable : value.usable function = [leaf]) :
    negated.Holds function operands value ↔ ¬operator.Holds function operands value := by
  obtain ⟨⟨habout, habout'⟩, _⟩ := same_kind_of_negation? h
  obtain ⟨_, result, hresult⟩ := (value.mem_usable_iff function leaf).mp (by simp [husable])
  have hone (asked : Operator) (hasked : asked.isAboutLeaves = true) :
      asked.Holds function operands value ↔ asked.Accepts operands result := by
    simp [holds_iff_usable hasked, husable, hresult]
  rw [hone operator habout, hone negated habout', hnegates]

end Operator

namespace Evaluator

variable {α : Type}

/-- Filters of the same kind on one reference, with the same literals, are resolved
alike. -/
theorem resolution_eq_of_same (schema : Schema α) (a b : Filter)
    (hproperty : b.property = a.property) (hoperands : b.operands = a.operands)
    (hpattern : b.operator.isPattern = a.operator.isPattern) :
    resolution schema b = resolution schema a := by
  simp only [resolution, Filter.resolved, hproperty, hoperands, hpattern]

/-- A filter and its negation are compiled under the same circumstances. A record then
passes at least one of them if and only if its value for the property has a leaf to
which the function around the property applies, and if there is one such leaf, the
record passes just one of them. -/
theorem negation_covers (schema : Schema α) (positive negative : Filter)
    (hnegation : positive.operator.negation? = some negative.operator)
    (hproperty : negative.property = positive.property)
    (hoperands : negative.operands = positive.operands) :
    (∀ e, compileFilter schema negative = .error e ↔ compileFilter schema positive = .error e) ∧
      ∀ condition opposite, compileFilter schema positive = .ok condition →
        compileFilter schema negative = .ok opposite → ∀ item,
        ∃ subject value, schema.subject positive.property = .ok subject ∧
          subject.property.value? item = some value ∧
          ((condition.passes item = true ∨ opposite.passes item = true) ↔
            value.usable subject.function ≠ []) ∧
          ((value.usable subject.function).length = 1 →
            opposite.passes item = !condition.passes item) := by
  obtain ⟨⟨habout, habout'⟩, hpattern⟩ := Operator.same_kind_of_negation? hnegation
  have hsame := resolution_eq_of_same schema positive negative hproperty hoperands hpattern
  constructor
  · intro e
    rw [← (concur_compileFilter schema negative
        (Operator.not_spatial_of_isAboutLeaves habout')).error_iff e,
      ← (concur_compileFilter schema positive
        (Operator.not_spatial_of_isAboutLeaves habout)).error_iff e, hsame]
  · intro condition opposite hcondition hopposite item
    obtain ⟨resolved, hresolved, hmeans⟩ :=
      passes_iff_of_compileFilter schema positive condition hcondition
    obtain ⟨resolved', hresolved', hmeans'⟩ :=
      passes_iff_of_compileFilter schema negative opposite hopposite
    obtain rfl : resolved' = resolved := by
      rw [hsame, hresolved] at hresolved'
      exact (Except.ok.inj hresolved').symm
    obtain ⟨value, hvalue, hpasses⟩ := hmeans item
    obtain ⟨value', hvalue', hpasses'⟩ := hmeans' item
    obtain rfl : value' = value := Option.some.inj (hvalue'.symm.trans hvalue)
    obtain ⟨hsubject, _, hoperands'⟩ := (resolution_eq_ok_iff schema positive _).mp hresolved
    obtain ⟨hfits, htexts⟩ := positive.fits_of_resolved _ _ hoperands'
    have hnegates := Operator.accepts_negation_iff hnegation _ hfits htexts
    refine ⟨_, value', hsubject, hvalue, ?_, fun hlength => ?_⟩
    · rw [hpasses, hpasses']
      exact Operator.holds_or_negation_iff hnegation _ hnegates _ value'
    · obtain ⟨leaf, husable⟩ := List.length_eq_one_iff.mp hlength
      have hnot := Operator.holds_negation_iff_of_usable hnegation _ hnegates _ value'
        leaf husable
      rw [← hpasses, ← hpasses', Bool.not_eq_true] at hnot
      rw [Bool.eq_iff_iff, hnot, Bool.not_eq_true']

/-- Of this list the function applies to the number only. -/
theorem negation_covers_of_mixed :
    let item : Value :=
      .list [.undefined, .scalar (.text "wide"), .list [.defined (.scalar (.integer 7))]]
    ∃ condition opposite : Condition Value,
      compileFilter (.ofValues "sizes" .integer)
        ⟨.inList, ⟨"round(sizes)"⟩, [.plain "5", .plain "6"], rfl⟩ = .ok condition ∧
      compileFilter (.ofValues "sizes" .integer)
        ⟨.notInList, ⟨"round(sizes)"⟩, [.plain "5", .plain "6"], rfl⟩ = .ok opposite ∧
      (condition.passes item = true ∨ opposite.passes item = true) ∧
      opposite.passes item = !condition.passes item := by
  intro item
  refine ⟨_, _, rfl, rfl, ?_⟩
  obtain ⟨_, hpasses⟩ := negation_covers (.ofValues "sizes" .integer)
    ⟨.inList, ⟨"round(sizes)"⟩, [.plain "5", .plain "6"], rfl⟩
    ⟨.notInList, ⟨"round(sizes)"⟩, [.plain "5", .plain "6"], rfl⟩ rfl rfl rfl
  obtain ⟨subject, value, hsubject, hvalue, hcovers, hone⟩ := hpasses _ _ rfl rfl item
  obtain rfl := Except.ok.inj hsubject
  obtain rfl := Option.some.inj hvalue
  exact ⟨hcovers.mpr (List.cons_ne_nil _ _), hone rfl⟩

end Evaluator

end RecordQuery
