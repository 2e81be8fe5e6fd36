import RecordQuery.Proofs.Evaluator.Meaning
import RecordQuery.Proofs.Literal.Typing
import RecordQuery.Record

/-!
Values of records that do not fit the declared type. Such a value is kept as text,
and what fits a type other than text is not. No literal for a property of another type
is resolved to a text, so the value is unordered against every one of them, and no
function applies to it.

To be unordered is not to be equal. Of all comparisons the negated equality, and no
other, passes every record with such a value, unless a function stands around the
property.
-/

namespace RecordQuery

namespace Declaration

/-- The record has one element at the path of the property, and the element does not
stand for a scalar of the declared type. -/
def IsMisfit (declaration : Declaration) (record : Json) : Prop :=
  ∃ json, record.at? declaration.segments = some json ∧ json.isElement = true ∧
    Scalar.ofJson? json declaration.type = none

/-- The records with a misfit are those that are read as text, where another type is
declared. -/
theorem isMisfit_iff_read (declaration : Declaration) (htype : declaration.type ≠ .text)
    (record : Json) :
    declaration.IsMisfit record ↔ ∃ text, declaration.read record = .scalar (.text text) := by
  unfold read
  constructor
  · rintro ⟨json, hjson, helement, hnone⟩
    refine ⟨json.plainText, ?_⟩
    simp only [hjson, Value.ofJson_of_isElement _ helement, Json.toScalar, hnone,
      Option.getD_none]
  · rintro ⟨text, hread⟩
    split at hread
    case h_2 => cases hread
    case h_1 json hjson =>
      cases helement : json.isElement with
      | false =>
          cases json with
          | null | array _ =>
              rw [Value.ofJson] at hread
              cases hread
          | _ => cases helement
      | true =>
          refine ⟨json, hjson, helement, ?_⟩
          rw [Value.ofJson_of_isElement _ helement, Json.toScalar] at hread
          cases hscalar : Scalar.ofJson? json declaration.type with
          | none => rfl
          | some scalar =>
              rw [hscalar, Option.getD_some] at hread
              obtain rfl := Value.scalar.inj hread
              exact absurd (Scalar.type_of_ofJson? hscalar).symm htype

/-- The value of a declared property is what is read from the record. -/
theorem value?_asProperty (declaration : Declaration)
    (h : declaration.asProperty.isResolvable = false) (record : Json) :
    declaration.asProperty.value? record = some (declaration.read record) := by
  cases hresolvable : declaration.resolvable with
  | true => simp [asProperty, Property.isResolvable, hresolvable] at h
  | false => simp [asProperty, Property.value?, hresolvable]

end Declaration

/-- No function of the language takes a text. -/
theorem Function.applyTo?_text (function : Function) (text : String) :
    function.applyTo? (.text text) = none := by
  cases function <;> rfl

/-- A literal is resolved to a text only where a text is asked for. -/
theorem Literal.type_of_resolve_ne_text (literal : Literal) (target : ValueType)
    (htarget : target ≠ .text) (value : Scalar) (h : literal.resolve target = .ok value) :
    value.type ≠ .text := by
  intro htext
  have htemporal := literal.isTemporal_of_type_ne target value h fun hsame =>
    htarget (hsame.symm.trans htext)
  rw [htext] at htemporal
  cases htemporal

theorem Scalar.compare_text_eq_none (text : String) {value : Scalar}
    (h : value.type ≠ .text) : (Scalar.text text).compare value = none := by
  cases value with
  | text _ => exact absurd rfl h
  | _ => rfl

namespace Operator

variable (operator : Operator) (hcomparison : operator.isComparison = true)

include hcomparison

/-- Of a text that is unordered against the operand, no comparison but the negated
equality says anything, and not even this one with a function. -/
theorem holds_text_iff_of_unordered (function : Option Function) (text : String)
    (operand : Scalar) (hunordered : (Scalar.text text).compare operand = none) :
    operator.Holds function [operand] (.scalar (.text text)) ↔
      operator = .notEqual ∧ function = none := by
  have hleaf : operator.Holds function [operand] (.scalar (.text text)) ↔
      ∃ result, function.elim (some (.text text)) (·.applyTo? (.text text)) = some result ∧
        operator.Accepts [operand] result := by
    cases operator <;> first
      | exact absurd hcomparison (by decide)
      | simp [Holds, Value.leaves]
  rw [hleaf]
  cases function with
  | some function => simp [Function.applyTo?_text]
  | none =>
      simp only [Option.elim_none, Option.some.injEq, exists_eq_left', and_true]
      cases operator <;> first
        | exact absurd hcomparison (by decide)
        | simp [Accepts, hunordered]

end Operator

/-- What a reference means has no function if and only if the reference is no call, and
literals are asked for as texts only where the property is a text. -/
theorem Schema.function_of_subject {α : Type} (schema : Schema α) (ref : PropertyRef)
    (subject : Subject α) (h : schema.subject ref = .ok subject) :
    (subject.function = none ↔ ref.call? = none) ∧
      (subject.type = .text → subject.property.type = .text) := by
  unfold Schema.subject Accessor.subject at h
  split at h
  case h_1 hcall =>
    obtain ⟨property, _, hsubject⟩ := (bind_eq_ok_iff _ _ _).mp h
    obtain rfl := Except.ok.inj hsubject
    exact ⟨⟨fun _ => hcall, fun _ => rfl⟩, id⟩
  case h_2 hcall =>
    obtain ⟨function, _, hrest⟩ := (bind_eq_ok_iff _ _ _).mp h
    obtain ⟨property, _, hsubject⟩ := (bind_eq_ok_iff _ _ _).mp hrest
    split at hsubject
    · obtain rfl := Except.ok.inj hsubject
      refine ⟨⟨nofun, fun hnone => ?_⟩, fun htext => ?_⟩
      · rw [hcall] at hnone
        cases hnone
      · cases function with
        | round => exact htext
        | startOf | endOf => cases htext
    · cases hsubject

/-- The operands of a comparison are one literal, resolved. -/
theorem Filter.exists_resolve_of_resolved (filter : Filter)
    (hcomparison : filter.operator.isComparison = true) (target : ValueType)
    (operands : List Scalar) (h : filter.resolved target = .ok operands) :
    ∃ (literal : Literal) (value : Scalar), literal.resolve target = .ok value ∧
      operands = [value] := by
  obtain ⟨harity, hpattern, _⟩ := filter.operator.single_of_isComparison hcomparison
  obtain ⟨literal, hliteral⟩ : ∃ literal, filter.operands = [literal] := by
    have hform := filter.operator.arity.operands_of_accepts filter.operands filter.fits
    rwa [harity] at hform
  rw [resolved, hpattern, hliteral] at h
  obtain ⟨value, hvalue, hrest⟩ := (bind_eq_ok_iff _ _ _).mp h
  obtain rfl := Except.ok.inj hrest
  exact ⟨literal, value, hvalue, rfl⟩

namespace Evaluator

/-- A clause that is not spatial is compiled to one condition, which decides what is
kept. -/
theorem exists_condition_of_compile {α : Type} (schema : Schema α) (filter : Filter)
    (hspatial : filter.operator.isSpatial = false) (evaluator : Evaluator α)
    (h : compile schema [filter] = .ok evaluator) :
    ∃ condition, compileFilter schema filter = .ok condition ∧
      ∀ item, evaluator.keeps item = condition.passes item := by
  rw [compile_single schema filter hspatial] at h
  obtain ⟨condition, hcondition, hevaluator⟩ := (bind_eq_ok_iff _ _ _).mp h
  obtain rfl := Except.ok.inj hevaluator
  exact ⟨condition, hcondition, fun item => Bool.and_true _⟩

/-- A record whose value does not fit the declared type, which is not text, is kept by a
comparison on the property if and only if the comparison is the negated equality and no
function stands around the property. -/
theorem comparison_keeps_misfit_iff (schema : Schema Json) (declaration : Declaration)
    (htype : declaration.type ≠ .text) (filter : Filter)
    (hcomparison : filter.operator.isComparison = true)
    (hproperty : schema.find? filter.property.property.text = some declaration.asProperty)
    (evaluator : Evaluator Json) (hcompile : compile schema [filter] = .ok evaluator)
    (record : Json) (hmisfit : declaration.IsMisfit record) :
    evaluator.keeps record = true ↔
      filter.operator = .notEqual ∧ filter.property.call? = none := by
  obtain ⟨_, _, hspatial⟩ := filter.operator.single_of_isComparison hcomparison
  obtain ⟨condition, hcondition, hkeeps⟩ :=
    exists_condition_of_compile schema filter hspatial evaluator hcompile
  obtain ⟨⟨subject, operands⟩, hresolution, hpasses⟩ :=
    passes_iff_of_compileFilter schema filter condition hcondition
  obtain ⟨hsubject, hresolvable, hoperands⟩ := (resolution_eq_ok_iff _ _ _).mp hresolution
  dsimp only at hsubject hresolvable hoperands hpasses
  obtain ⟨hfunction, htext⟩ := schema.function_of_subject filter.property subject hsubject
  have hdeclared : subject.property = declaration.asProperty :=
    Option.some.inj ((find?_of_resolution schema filter _ hresolution).symm.trans hproperty)
  rw [hdeclared] at hresolvable htext hpasses
  -- The record is read as one text, and the literal is resolved to something else.
  obtain ⟨text, hread⟩ := (declaration.isMisfit_iff_read htype record).mp hmisfit
  obtain ⟨value, hvalue, hholds⟩ := hpasses record
  rw [declaration.value?_asProperty hresolvable, hread] at hvalue
  obtain rfl := Option.some.inj hvalue
  obtain ⟨literal, operand, hoperand, rfl⟩ :=
    filter.exists_resolve_of_resolved hcomparison _ _ hoperands
  have hoperandType := literal.type_of_resolve_ne_text subject.type (fun h => htype (htext h))
    operand hoperand
  rw [hkeeps, hholds, filter.operator.holds_text_iff_of_unordered hcomparison _ _ _
    (Scalar.compare_text_eq_none text hoperandType), hfunction]

/-- A word where a number is declared, compared with three. -/
theorem comparison_keeps_misfit_iff_of_word :
    let declaration : Declaration := ⟨" size.count ", .integer, false⟩
    let schema : Schema Json := .ofDeclarations [declaration]
    let record : Json := .object [("size", .object [("count", .string "many")])]
    declaration.IsMisfit record ∧
      ∃ a b c, compile schema [⟨.less, ⟨"size.count"⟩, [.plain "3"], rfl⟩] = .ok a ∧
        compile schema [⟨.notEqual, ⟨"size.count"⟩, [.plain "3"], rfl⟩] = .ok b ∧
        compile schema [⟨.notEqual, ⟨"round(size.count)"⟩, [.plain "3"], rfl⟩] = .ok c ∧
        a.keeps record = false ∧ b.keeps record = true ∧ c.keeps record = false := by
  have hmisfit : Declaration.IsMisfit ⟨" size.count ", .integer, false⟩
      (.object [("size", .object [("count", .string "many")])]) := ⟨_, rfl, rfl, rfl⟩
  have hkeeps := fun filter hcomparison hproperty evaluator hcompile =>
    comparison_keeps_misfit_iff (.ofDeclarations [⟨" size.count ", .integer, false⟩]) _ (by decide)
      filter hcomparison hproperty evaluator hcompile _ hmisfit
  refine ⟨hmisfit, _, _, _, rfl, rfl, rfl, ?_, ?_, ?_⟩
  · rw [← Bool.not_eq_true, hkeeps ⟨.less, ⟨"size.count"⟩, [.plain "3"], rfl⟩ rfl rfl _ rfl]
    exact nofun
  · rw [hkeeps ⟨.notEqual, ⟨"size.count"⟩, [.plain "3"], rfl⟩ rfl rfl _ rfl]
    exact ⟨rfl, rfl⟩
  · rw [← Bool.not_eq_true,
      hkeeps ⟨.notEqual, ⟨"round(size.count)"⟩, [.plain "3"], rfl⟩ rfl rfl _ rfl]
    decide

/-- A record with a word where a number is declared is kept by a comparison with a
number. -/
theorem misfit_passes_comparison :
    let declaration : Declaration := ⟨"count", .integer, false⟩
    let record : Json := .object [("count", .string "many")]
    declaration.IsMisfit record ∧
      (Query.parse "count<>3" >>= fun query =>
        compile (.ofDeclarations [declaration]) query).toOption.map (·.keeps record) =
          some true :=
  ⟨⟨_, rfl, rfl, rfl⟩, by decide +kernel⟩

end Evaluator

end RecordQuery
