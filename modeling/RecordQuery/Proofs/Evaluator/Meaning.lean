import RecordQuery.Evaluator
import RecordQuery.Proofs.Outcome
import RecordQuery.Proofs.Quantifier
import RecordQuery.Proofs.Value

/-!
What filters mean. An operator with resolved operands says something of one
scalar, or, if it is a null check, of a value as a whole. A filter other than a
null check holds of a value if the operator says it of some leaf, with the
function around the property applied to it first.

A filter is compiled to a condition that passes just the records of which the
filter holds, with operands that do not depend on the record.
-/

namespace RecordQuery

namespace Scalar

/-- The scalar lies between two bounds or is equal to one of them. -/
def IsWithin (leaf lower upper : Scalar) : Prop :=
  (leaf.compare lower = some .gt ∨ leaf.compare lower = some .eq) ∧
    (leaf.compare upper = some .lt ∨ leaf.compare upper = some .eq)

/-- The text of the scalar is of the form of a text pattern. -/
def IsLike (leaf : Scalar) (caseless : Bool) (pattern : String) : Prop :=
  Like.accepts caseless pattern.toList leaf.render.toList = true

/-- The scalar is equal to one of these. -/
def IsAmong (leaf : Scalar) (candidates : List Scalar) : Prop :=
  ∃ candidate ∈ candidates, leaf.compare candidate = some .eq

theorem equals_iff (a b : Scalar) : a.equals b = true ↔ a.compare b = some .eq := by
  simp [equals]

theorem isBetween_iff (leaf lower upper : Scalar) :
    leaf.isBetween lower upper = true ↔ leaf.IsWithin lower upper := by
  unfold isBetween IsWithin
  rw [Bool.and_eq_true]
  refine and_congr ?_ ?_
  · cases leaf.compare lower with
    | none => simp
    | some order => cases order <;> simp
  · cases leaf.compare upper with
    | none => simp
    | some order => cases order <;> simp

theorem any_equals_iff (leaf : Scalar) (candidates : List Scalar) :
    candidates.any leaf.equals = true ↔ leaf.IsAmong candidates := by
  simp [IsAmong, List.any_eq_true, equals_iff]

end Scalar

namespace Operator

/-- What an operator says of a scalar, with these operands. The null checks are not
about scalars. -/
def Accepts : Operator → List Scalar → Scalar → Prop
  | .equal, [a], leaf => leaf.compare a = some .eq
  | .notEqual, [a], leaf => leaf.compare a ≠ some .eq
  | .less, [a], leaf => leaf.compare a = some .lt
  | .greater, [a], leaf => leaf.compare a = some .gt
  | .atMost, [a], leaf => leaf.compare a = some .lt ∨ leaf.compare a = some .eq
  | .atLeast, [a], leaf => leaf.compare a = some .gt ∨ leaf.compare a = some .eq
  | .between, [a, b], leaf => leaf.IsWithin a b
  | .notBetween, [a, b], leaf => ¬leaf.IsWithin a b
  | .like, [.text pattern], leaf => leaf.IsLike false pattern
  | .notLike, [.text pattern], leaf => ¬leaf.IsLike false pattern
  | .ilike, [.text pattern], leaf => leaf.IsLike true pattern
  | .notIlike, [.text pattern], leaf => ¬leaf.IsLike true pattern
  | .inList, candidates, leaf => leaf.IsAmong candidates
  | .notInList, candidates, leaf => ¬leaf.IsAmong candidates
  | _, _, _ => False

/-- What a filter with this operator says of the value of its property: for a null
check that the value is absent or is not, and otherwise that the operator accepts what
the function around the property gives on some leaf. -/
def Holds (operator : Operator) (function : Option Function) (operands : List Scalar)
    (value : Value) : Prop :=
  match operator with
  | .isNull => value.IsAbsent
  | .isNotNull => ¬value.IsAbsent
  | _ => ∃ leaf ∈ value.leaves, ∃ result,
      function.elim (some leaf) (·.applyTo? leaf) = some result ∧ operator.Accepts operands result

end Operator

/-- The predicate tests what the operator says with the operands. -/
inductive Predicate.Means : Predicate → Operator → List Scalar → Prop
  | null : Means (.null false) .isNull []
  | notNull : Means (.null true) .isNotNull []
  | ofLeaf {predicate : Predicate} {operator : Operator} {operands : List Scalar}
      (habout : ∀ negated, predicate ≠ .null negated)
      (hnull : operator ≠ .isNull) (hnotNull : operator ≠ .isNotNull)
      (htest : ∀ leaf, predicate.test leaf = true ↔ operator.Accepts operands leaf) :
      Means predicate operator operands

namespace Filter

/-- The operands of the filter as scalars of the type. A text pattern is kept as
it is. -/
def resolved (filter : Filter) (target : ValueType) : Except QueryError (List Scalar) :=
  if filter.operator.isPattern then
    .ok (filter.operands.map fun literal => .text (literal.plain?.getD ""))
  else Literal.resolveEach filter.operands target

/-- There are as many operands as the operator takes, and texts for a text pattern. -/
theorem fits_of_resolved (filter : Filter) (target : ValueType) (operands : List Scalar)
    (h : filter.resolved target = .ok operands) :
    filter.operator.arity.accepts operands.length = true ∧
      (filter.operator.isPattern = true → ∀ x ∈ operands, ∃ pattern, x = .text pattern) := by
  have hfits := filter.fits
  unfold resolved at h
  split at h
  · obtain rfl := Except.ok.inj h
    refine ⟨by simpa using hfits, fun _ x hx => ?_⟩
    obtain ⟨literal, _, rfl⟩ := List.mem_map.mp hx
    exact ⟨_, rfl⟩
  · next hpattern =>
    have hlength := congrArg List.length ((mapM_eq_ok_iff _ _ _).mp h)
    simp only [List.length_map] at hlength
    exact ⟨hlength ▸ hfits, fun htrue => absurd htrue hpattern⟩

section Concur

variable {R : List Scalar → Predicate → Prop}

theorem concur_single (a : Literal) (target : ValueType) (make : Scalar → Predicate)
    (h : ∀ x, R [x] (make x)) :
    Concur R (Literal.resolveEach [a] target) (do return make (← a.resolve target)) := by
  simp only [Literal.resolveEach, List.mapM_cons, List.mapM_nil]
  exact .bind_same fun x _ => .ok (h x)

theorem concur_pair (a b : Literal) (target : ValueType) (make : Scalar → Scalar → Predicate)
    (h : ∀ x y, R [x, y] (make x y)) :
    Concur R (Literal.resolveEach [a, b] target)
      (do return make (← a.resolve target) (← b.resolve target)) := by
  simp only [Literal.resolveEach, List.mapM_cons, List.mapM_nil, bind_assoc, pure_bind]
  exact .bind_same fun x _ => .bind_same fun y _ => .ok (h x y)

theorem concur_many (literals : List Literal) (target : ValueType)
    (make : List Scalar → Predicate) (h : ∀ values, R values (make values)) :
    Concur R (Literal.resolveEach literals target)
      (do return make (← Literal.resolveEach literals target)) := by
  cases Literal.resolveEach literals target with
  | error e => exact .error e
  | ok values => exact .ok (h values)

end Concur

/-- A filter has a predicate if its operands are resolved, and fails with the same error
otherwise. The predicate tests what the operator says with the operands. -/
theorem concur_resolved_predicate (filter : Filter)
    (hspatial : filter.operator.isSpatial = false) (target : ValueType) :
    Concur (fun operands predicate => predicate.Means filter.operator operands)
      (filter.resolved target) (filter.predicate target) := by
  obtain ⟨operator, property, operands, hfits⟩ := filter
  have hform := operator.arity.operands_of_accepts operands hfits
  cases operator with
  | intersects => cases hspatial
  | isNull =>
      obtain rfl := hform
      exact .ok .null
  | isNotNull =>
      obtain rfl := hform
      exact .ok .notNull
  | equal | notEqual =>
      obtain ⟨a, rfl⟩ := hform
      refine concur_single a target _ fun x => .ofLeaf nofun nofun nofun fun leaf => ?_
      simp [Predicate.test, Operator.Accepts, Scalar.equals]
  | less | greater | atMost | atLeast =>
      obtain ⟨a, rfl⟩ := hform
      refine concur_single a target _ fun x => .ofLeaf nofun nofun nofun fun leaf => ?_
      simp only [Predicate.test, Operator.Accepts]
      cases leaf.compare x with
      | none => simp
      | some order => cases order <;> simp
  | between | notBetween =>
      obtain ⟨a, b, rfl⟩ := hform
      refine concur_pair a b target _ fun x y => .ofLeaf nofun nofun nofun fun leaf => ?_
      simp [Predicate.test, Operator.Accepts, ← Scalar.isBetween_iff]
  | like | notLike | ilike | notIlike =>
      obtain ⟨a, rfl⟩ := hform
      refine .ok (.ofLeaf nofun nofun nofun fun leaf => ?_)
      simp [Predicate.test, Operator.Accepts, Scalar.IsLike]
  | inList | notInList =>
      obtain ⟨a, rest, rfl⟩ := List.exists_cons_of_ne_nil hform
      refine concur_many _ target _ fun values => .ofLeaf nofun nofun nofun fun leaf => ?_
      simp [Predicate.test, Operator.Accepts, ← Scalar.any_equals_iff]

end Filter

namespace Condition

variable {α : Type}

mutual

/-- The walk through a value finds a leaf that passes if there is one. -/
theorem passesSome_eq_any (condition : Condition α) (value : Value) :
    condition.passesSome value = value.leaves.any condition.passesLeaf := by
  cases value with
  | scalar leaf => simp [passesSome, Value.leaves]
  | undefined => simp [passesSome, Value.leaves]
  | defined value => simp [passesSome, Value.leaves, passesSome_eq_any condition value]
  | list items =>
      rw [passesSome, Quantifier.test_any, Value.leaves, any_passesEach condition items]

theorem any_passesEach (condition : Condition α) (items : List Value) :
    (condition.passesEach items).any (fun passed => passed) =
      (Value.leavesOfAll items).any condition.passesLeaf := by
  cases items with
  | nil => rfl
  | cons item rest =>
      simp [passesEach, Value.leavesOfAll, passesSome_eq_any condition item,
        any_passesEach condition rest]

end

theorem passesLeaf_iff (condition : Condition α) (leaf : Scalar) :
    condition.passesLeaf leaf = true ↔
      ∃ result, condition.function.elim (some leaf) (·.applyTo? leaf) = some result ∧
        condition.predicate.test result = true := by
  unfold passesLeaf
  cases condition.function with
  | none => simp
  | some function =>
      simp only [Option.elim_some]
      cases function.applyTo? leaf <;> simp

/-- A condition passes a value if its operator holds of it. -/
theorem passesValue_iff (condition : Condition α) (operator : Operator) (operands : List Scalar)
    (h : condition.predicate.Means operator operands) (value : Value) :
    condition.passesValue value = true ↔ operator.Holds condition.function operands value := by
  obtain ⟨property, function, predicate⟩ := condition
  cases h with
  | null => simp [passesValue, Operator.Holds, ← Value.isNull_iff]
  | notNull => simp [passesValue, Operator.Holds, ← Value.isNull_iff]
  | ofLeaf habout hnull hnotNull htest =>
      have hsome : (⟨property, function, predicate⟩ : Condition α).passesValue value =
          (⟨property, function, predicate⟩ : Condition α).passesSome value := by
        cases predicate with
        | null negated => exact absurd rfl (habout negated)
        | _ => rfl
      rw [hsome, passesSome_eq_any, List.any_eq_true]
      simp only [passesLeaf_iff, htest]
      cases operator with
      | isNull => exact absurd rfl hnull
      | isNotNull => exact absurd rfl hnotNull
      | _ => rfl

end Condition

theorem Property.exists_value {α : Type} (property : Property α)
    (h : property.isResolvable = false) (item : α) :
    ∃ value, property.value? item = some value := by
  unfold isResolvable at h
  unfold value?
  cases hsource : property.source with
  | concrete read => exact ⟨read item, rfl⟩
  | resolvable => simp [hsource] at h

theorem Schema.require_eq_ok_iff {α : Type} (schema : Schema α) (ref : PropertyRef)
    (property : Property α) :
    schema.require ref = .ok property ↔ schema.find? ref.text = some property := by
  unfold require
  cases schema.find? ref.text <;> simp

/-- A reference that is no call names its property by all of its text. -/
theorem PropertyRef.property_of_call?_eq_none (ref : PropertyRef) (h : ref.call? = none) :
    ref.property = ref := by
  have hparts : callParts? ref.chars = none := by simpa [call?] using h
  unfold property path
  rw [hparts]
  simp [chars]

/-- What a reference means is about the property that its path names. -/
theorem Schema.find?_of_subject {α : Type} (schema : Schema α) (ref : PropertyRef)
    (subject : Subject α) (h : schema.subject ref = .ok subject) :
    schema.find? ref.property.text = some subject.property := by
  unfold Schema.subject Accessor.subject at h
  cases hcall : ref.call? with
  | none =>
      simp only [hcall, bind_eq_ok_iff] at h
      obtain ⟨property, hproperty, hsubject⟩ := h
      obtain rfl := Except.ok.inj hsubject
      rw [ref.property_of_call?_eq_none hcall]
      exact (schema.require_eq_ok_iff _ _).mp hproperty
  | some call =>
      simp only [hcall, bind_eq_ok_iff] at h
      obtain ⟨function, _, property, hproperty, hsubject⟩ := h
      split at hsubject
      · obtain rfl := Except.ok.inj hsubject
        exact (schema.require_eq_ok_iff _ _).mp hproperty
      · cases hsubject

/-- A schema for records that are values: one property, with the record as its value. -/
def Schema.ofValues (name : String) (type : ValueType) : Schema Value :=
  ofProperties [⟨name, type, .concrete id⟩]

/-- The condition is about the property and the function of a subject, and passes the
values of which the operator holds with the operands. -/
structure Condition.Means {α : Type} (condition : Condition α) (operator : Operator)
    (resolution : Schema.Subject α × List Scalar) : Prop where
  property : condition.property = resolution.1.property
  function : condition.function = resolution.1.function
  passes : ∀ value, condition.passesValue value = true ↔
    operator.Holds resolution.1.function resolution.2 value

namespace Evaluator

variable {α : Type}

/-- What a filter is resolved to for records with the schema: the meaning of its
reference, which must not be to a resolvable property, and its operands. -/
def resolution (schema : Schema α) (filter : Filter) :
    Except QueryError (Schema.Subject α × List Scalar) := do
  let subject ← schema.subject filter.property
  if subject.property.isResolvable then throw (.resolvableProperty subject.property.name)
  else
    let operands ← filter.resolved subject.type
    return (subject, operands)

theorem resolution_eq_ok_iff (schema : Schema α) (filter : Filter)
    (resolved : Schema.Subject α × List Scalar) :
    resolution schema filter = .ok resolved ↔
      schema.subject filter.property = .ok resolved.1 ∧
        resolved.1.property.isResolvable = false ∧
        filter.resolved resolved.1.type = .ok resolved.2 := by
  obtain ⟨subject, operands⟩ := resolved
  unfold resolution
  rw [bind_eq_ok_iff]
  constructor
  · rintro ⟨subject', hsubject, h⟩
    cases hresolvable : subject'.property.isResolvable with
    | true =>
        rw [hresolvable, if_pos rfl] at h
        exact absurd h (throw_ne_ok _ _)
    | false =>
        simp only [hresolvable, Bool.false_eq_true, if_false, bind_eq_ok_iff] at h
        obtain ⟨operands', hoperands, hpair⟩ := h
        obtain ⟨rfl, rfl⟩ := Prod.mk.inj (Except.ok.inj hpair)
        exact ⟨hsubject, hresolvable, hoperands⟩
  · rintro ⟨hsubject, hresolvable, hoperands⟩
    refine ⟨subject, hsubject, ?_⟩
    simp only [hresolvable, Bool.false_eq_true, if_false, bind_eq_ok_iff]
    exact ⟨operands, hoperands, rfl⟩

/-- A filter is compiled if it is resolved, and fails with the same error otherwise. Its
condition means what the operator says with the operands. -/
theorem concur_compileFilter (schema : Schema α) (filter : Filter)
    (hspatial : filter.operator.isSpatial = false) :
    Concur (fun resolved condition => condition.Means filter.operator resolved)
      (resolution schema filter) (compileFilter schema filter) := by
  unfold resolution compileFilter
  refine .bind_same fun subject _ => ?_
  cases subject.property.isResolvable with
  | true => exact .error _
  | false =>
      refine (filter.concur_resolved_predicate hspatial subject.type).bind ?_
      intro operands predicate hmeans
      refine .ok ⟨rfl, rfl, fun value => ?_⟩
      exact Condition.passesValue_iff ⟨subject.property, subject.function, predicate⟩ _ _ hmeans value

/-- The spatial operator has no predicate, so that no condition comes from it. -/
theorem not_spatial_of_compileFilter (schema : Schema α) (filter : Filter)
    (condition : Condition α) (h : compileFilter schema filter = .ok condition) :
    filter.operator.isSpatial = false := by
  obtain ⟨operator, property, operands, hfits⟩ := filter
  cases operator with
  | intersects =>
      obtain ⟨subject, _, hrest⟩ := (bind_eq_ok_iff _ _ _).mp h
      split at hrest <;> cases hrest
  | _ => rfl

/-- A filter that is compiled has been resolved, and its condition means what it says. -/
theorem means_of_compileFilter (schema : Schema α) (filter : Filter) (condition : Condition α)
    (h : compileFilter schema filter = .ok condition) :
    ∃ resolved, resolution schema filter = .ok resolved ∧
      condition.Means filter.operator resolved := by
  have hconcur := concur_compileFilter schema filter
    (not_spatial_of_compileFilter schema filter condition h)
  cases hresolved : resolution schema filter with
  | error e =>
      rw [hresolved] at hconcur
      rw [(hconcur.error_iff e).mp rfl] at h
      cases h
  | ok resolved => exact ⟨resolved, rfl, hconcur.related_of_ok hresolved h⟩

/-- The property is the one that the schema has under the path of the reference. -/
theorem find?_of_resolution (schema : Schema α) (filter : Filter)
    (resolved : Schema.Subject α × List Scalar) (h : resolution schema filter = .ok resolved) :
    schema.find? filter.property.property.text = some resolved.1.property :=
  schema.find?_of_subject filter.property resolved.1
    ((resolution_eq_ok_iff schema filter resolved).mp h).1

/-- Every record has a value for the property, and the condition passes the record if the
operator holds of that value. -/
theorem exists_value_of_resolution (schema : Schema α) (filter : Filter)
    (resolved : Schema.Subject α × List Scalar) (h : resolution schema filter = .ok resolved)
    (condition : Condition α) (hmeans : condition.Means filter.operator resolved) (item : α) :
    ∃ value, resolved.1.property.value? item = some value ∧
      (condition.passes item = true ↔
        filter.operator.Holds resolved.1.function resolved.2 value) := by
  obtain ⟨_, hresolvable, _⟩ := (resolution_eq_ok_iff schema filter resolved).mp h
  obtain ⟨value, hvalue⟩ := resolved.1.property.exists_value hresolvable item
  refine ⟨value, hvalue, ?_⟩
  rw [Condition.passes, hmeans.property, hvalue, Option.any_some]
  exact hmeans.passes value

/-- A condition comes from a filter that is resolved. Every record has a value for its
property, and the condition passes the record if the operator holds of that value. -/
theorem passes_iff_of_compileFilter (schema : Schema α) (filter : Filter)
    (condition : Condition α) (h : compileFilter schema filter = .ok condition) :
    ∃ resolved, resolution schema filter = .ok resolved ∧
      ∀ item, ∃ value, resolved.1.property.value? item = some value ∧
        (condition.passes item = true ↔
          filter.operator.Holds resolved.1.function resolved.2 value) := by
  obtain ⟨resolved, hresolved, hmeans⟩ := means_of_compileFilter schema filter condition h
  exact ⟨resolved, hresolved,
    exists_value_of_resolution schema filter resolved hresolved condition hmeans⟩

/-- A query of one filter on a property has one condition. -/
theorem compile_single (schema : Schema α) (filter : Filter)
    (hspatial : filter.operator.isSpatial = false) :
    compile schema [filter] = do
      let condition ← compileFilter schema filter
      return ⟨[condition]⟩ := by
  rw [compile, compileAll, if_neg (by simp [hspatial])]
  cases compileFilter schema filter <;> rfl

end Evaluator

end RecordQuery
