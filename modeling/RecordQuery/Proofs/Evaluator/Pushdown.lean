import Mathlib.Data.List.Basic
import RecordQuery.Constraints
import RecordQuery.Proofs.Evaluator.Meaning
import RecordQuery.Proofs.Query.Rendering

/-!
Constraints against conditions. A store that gets the constraints of a query keeps
the records of which all of them hold; an evaluator keeps the records that pass all
of its conditions. Both go through the filters in order, and each filter that is not
spatial adds a constraint on one side and a condition on the other, with the same
property, function and operands, or stops both with the same error.

There are two differences between the sides. An evaluator cannot read resolvable
properties, so that these are excluded here. And constraints leave out the operands
of a text pattern that are not plain texts; in a query that was parsed there are
none.
-/

namespace RecordQuery

/-- The record has a value for the property of the constraint, of which the operator
holds with the values of the constraint. -/
def Constraint.HoldsOf {α : Type} (constraint : Constraint) (schema : Schema α)
    (operator : Operator) (item : α) : Prop :=
  ∃ subject value, schema.subject constraint.property = .ok subject ∧
    subject.property.value? item = some value ∧
    operator.Holds subject.function constraint.values value

/-- A text pattern is a plain text, as the parser makes it. -/
def Filter.HasPlainPattern (filter : Filter) : Prop :=
  filter.operator.isPattern = true → ∀ literal ∈ filter.operands, literal.plain?.isSome = true

namespace Query

/-- The filters of a query that is parsed have plain patterns. -/
theorem hasPlainPattern_of_parse (query : String) (filters : Query)
    (h : parse query = .ok filters) (filter : Filter) (hfilter : filter ∈ filters) :
    filter.HasPlainPattern := by
  intro hpattern literal hliteral
  obtain ⟨clauses, _, hread, _⟩ := exists_clauses_of_parse query.toList filters h
  obtain ⟨clause, _, hclause⟩ := exists_read_of_mem _ _ _ hread filter hfilter
  obtain ⟨hoperator, _, hoperands⟩ := (Clause.read_eq_ok_iff clause filter).mp hclause
  rw [mapM_eq_ok_iff] at hoperands
  obtain ⟨operand, _, hoperand⟩ := exists_read_of_mem _ _ _ hoperands literal hliteral
  rw [Clause.readOperand, ← hoperator, if_pos hpattern] at hoperand
  obtain rfl := Except.ok.inj hoperand
  rfl

end Query

namespace Constraints

/-- The constraint is in the bucket of the operator. -/
def Records (buckets : List (Operator × List Constraint)) (operator : Operator)
    (constraint : Constraint) : Prop :=
  ∃ bucket, (operator, bucket) ∈ buckets ∧ constraint ∈ bucket

theorem records_cons_iff (op : Operator) (bucket : List Constraint)
    (rest : List (Operator × List Constraint)) (operator : Operator) (constraint : Constraint) :
    Records ((op, bucket) :: rest) operator constraint ↔
      (operator = op ∧ constraint ∈ bucket) ∨ Records rest operator constraint := by
  simp only [Records, List.mem_cons, Prod.mk.injEq, or_and_right, exists_or]
  refine or_congr_left ⟨?_, ?_⟩
  · rintro ⟨_, ⟨hop, rfl⟩, hmem⟩
    exact ⟨hop, hmem⟩
  · rintro ⟨hop, hmem⟩
    exact ⟨bucket, ⟨hop, rfl⟩, hmem⟩

/-- A constraint that is pushed is recorded, and nothing else changes. -/
theorem records_push_iff (added : Operator) (constraint : Constraint)
    (buckets : List (Operator × List Constraint)) (operator : Operator) (other : Constraint) :
    Records (push added constraint buckets) operator other ↔
      Records buckets operator other ∨ (operator = added ∧ other = constraint) := by
  induction buckets with
  | nil =>
      rw [push, records_cons_iff, List.mem_singleton]
      exact or_comm
  | cons first rest ih =>
      obtain ⟨op, bucket⟩ := first
      unfold push
      split
      · next hop =>
        subst hop
        rw [records_cons_iff, records_cons_iff, List.mem_append, List.mem_singleton,
          and_or_left, or_right_comm]
      · rw [records_cons_iff, records_cons_iff, ih, or_assoc]

variable {α : Type}

/-- All recorded constraints hold of the record. -/
def AllHold (schema : Schema α) (buckets : List (Operator × List Constraint)) (item : α) : Prop :=
  ∀ operator constraint, Records buckets operator constraint →
    constraint.HoldsOf schema operator item

theorem allHold_push_iff (schema : Schema α) (operator : Operator) (constraint : Constraint)
    (buckets : List (Operator × List Constraint)) (item : α) :
    AllHold schema (push operator constraint buckets) item ↔
      AllHold schema buckets item ∧ constraint.HoldsOf schema operator item := by
  simp only [AllHold, records_push_iff]
  constructor
  · intro hall
    exact ⟨fun op other hother => hall op other (.inl hother),
      hall operator constraint (.inr ⟨rfl, rfl⟩)⟩
  · rintro ⟨hall, hholds⟩ op other (hother | ⟨rfl, rfl⟩)
    · exact hall op other hother
    · exact hholds

/-- The values of a constraint are the operands that a condition is about. -/
theorem operands_eq_resolved (filter : Filter) (hplain : filter.HasPlainPattern)
    (target : ValueType) : operands filter target = filter.resolved target := by
  unfold operands Filter.resolved
  split
  · next hpattern =>
    rw [List.map_filterMap, ← List.filterMap_eq_map]
    refine congrArg _ (List.filterMap_congr fun literal hliteral => ?_)
    obtain ⟨text, htext⟩ := Option.isSome_iff_exists.mp (hplain hpattern literal hliteral)
    simp [htext]
  · rfl

/-- What is recorded of a filter on a property that is not resolvable are the operands
to which it is resolved. -/
theorem constraintOf_eq_map_resolution (schema : Schema α) (filter : Filter)
    (hplain : filter.HasPlainPattern)
    (hconcrete : ∀ property, schema.find? filter.property.property.text = some property →
      property.isResolvable = false) :
    constraintOf schema.accessor filter =
      (fun resolved => ⟨filter.property, resolved.2⟩) <$> Evaluator.resolution schema filter := by
  unfold constraintOf Evaluator.resolution
  change (schema.subject filter.property >>= fun subject => _) = _
  cases hsubject : schema.subject filter.property with
  | error e => rfl
  | ok subject =>
      have hfalse := hconcrete subject.property (schema.find?_of_subject _ subject hsubject)
      rw [ok_bind, ok_bind, hfalse, operands_eq_resolved filter hplain]
      cases filter.resolved subject.type <;> rfl

/-- One filter adds a constraint and a condition that passes the records of which the
constraint holds, or stops both sides with one error. -/
theorem concur_constraintOf (schema : Schema α) (filter : Filter)
    (hspatial : filter.operator.isSpatial = false) (hplain : filter.HasPlainPattern)
    (hconcrete : ∀ property, schema.find? filter.property.property.text = some property →
      property.isResolvable = false) :
    Concur (fun constraint condition => ∀ item, condition.passes item = true ↔
        constraint.HoldsOf schema filter.operator item)
      (constraintOf schema.accessor filter) (Evaluator.compileFilter schema filter) := by
  rw [constraintOf_eq_map_resolution schema filter hplain hconcrete]
  refine (Evaluator.concur_compileFilter schema filter hspatial).map_left ?_
  intro resolved condition hresolved hmeans item
  obtain ⟨hsubject, _, _⟩ := (Evaluator.resolution_eq_ok_iff schema filter resolved).mp hresolved
  obtain ⟨value, hvalue, hpasses⟩ :=
    Evaluator.exists_value_of_resolution schema filter resolved hresolved condition hmeans item
  rw [hpasses]
  constructor
  · intro hholds
    exact ⟨resolved.1, value, hsubject, hvalue, hholds⟩
  · rintro ⟨subject, value', hsubject', hvalue', hholds⟩
    obtain rfl := Except.ok.inj (hsubject.symm.trans hsubject')
    obtain rfl := Option.some.inj (hvalue.symm.trans hvalue')
    exact hholds

/-- Over the filters that are left, both sides go on alike: after them all constraints
hold of a record if those before them do and the record passes the conditions. -/
theorem concur_groupFrom (schema : Schema α) (filters : List Filter)
    (hplain : ∀ filter ∈ filters, filter.HasPlainPattern)
    (hconcrete : ∀ filter ∈ filters, filter.operator.isSpatial = false → ∀ property,
      schema.find? filter.property.property.text = some property → property.isResolvable = false)
    (buckets : List (Operator × List Constraint)) :
    Concur (fun final conditions => ∀ item, AllHold schema final item ↔
        AllHold schema buckets item ∧ ∀ condition ∈ conditions, condition.passes item = true)
      (groupFrom schema.accessor filters buckets) (Evaluator.compileAll schema filters) := by
  induction filters generalizing buckets with
  | nil => exact .ok fun item => by simp
  | cons filter rest ih =>
      have ih := ih (fun other hother => hplain other (.tail _ hother))
        (fun other hother => hconcrete other (.tail _ hother))
      cases hspatial : filter.operator.isSpatial with
      | true =>
          rw [groupFrom, Evaluator.compileAll, if_pos hspatial, if_pos hspatial]
          exact .bind_same fun _ _ => ih buckets
      | false =>
          have hfilter := concur_constraintOf schema filter hspatial (hplain filter (.head _))
            (hconcrete filter (.head _) hspatial)
          rw [groupFrom, Evaluator.compileAll, if_neg (by simp [hspatial]),
            if_neg (by simp [hspatial])]
          refine hfilter.bind fun constraint condition hiff => ?_
          rw [← bind_pure (groupFrom schema.accessor rest _)]
          refine (ih (push filter.operator constraint buckets)).bind fun final others hfinal => ?_
          refine .ok fun item => ?_
          rw [hfinal, allHold_push_iff, ← hiff, List.forall_mem_cons, and_assoc]

/-- A query is grouped into constraints if it is compiled to an evaluator, and fails
with the same error otherwise. The evaluator keeps a record if and only if every
constraint that was recorded holds of it. -/
theorem group_agrees_with_compile (schema : Schema α) (text : String) (query : Query)
    (hparse : Query.parse text = .ok query)
    (hconcrete : ∀ filter ∈ query, filter.operator.isSpatial = false → ∀ property,
      schema.find? filter.property.property.text = some property →
      property.isResolvable = false) :
    (∀ e, group schema query = .error e ↔ Evaluator.compile schema query = .error e) ∧
      ∀ constraints evaluator, group schema query = .ok constraints →
        Evaluator.compile schema query = .ok evaluator → ∀ item,
        (evaluator.keeps item = true ↔ ∀ operator constraint,
          Records constraints.buckets operator constraint →
            constraint.HoldsOf schema operator item) := by
  have hplain := Query.hasPlainPattern_of_parse text query hparse
  have hconcur : Concur
      (fun (constraints : Constraints) (evaluator : Evaluator α) => ∀ item,
        evaluator.keeps item = true ↔ AllHold schema constraints.buckets item)
      (group schema query) (Evaluator.compile schema query) := by
    refine (concur_groupFrom schema query hplain hconcrete []).bind ?_
    intro buckets conditions hall
    refine .ok fun item => ?_
    rw [hall, Evaluator.keeps, List.all_eq_true]
    simp [AllHold, Records]
  exact ⟨hconcur.error_iff, fun constraints evaluator => hconcur.related_of_ok⟩

/-- A record that passes a comparison with a function, a list and a null check. -/
theorem group_agrees_with_compile_of_list :
    let schema := Schema.ofValues "sizes" .integer
    let item : Value := .list [.undefined, .defined (.scalar (.integer 4))]
    ∃ query constraints evaluator,
      Query.parse "round(sizes)>=3 AND sizes IN (1,4) AND sizes IS NOT NULL" = .ok query ∧
      group schema query = .ok constraints ∧ Evaluator.compile schema query = .ok evaluator ∧
      evaluator.keeps item = true ∧ ∀ operator constraint,
        Records constraints.buckets operator constraint →
          constraint.HoldsOf schema operator item := by
  intro schema item
  have hparse : Query.parse "round(sizes)>=3 AND sizes IN (1,4) AND sizes IS NOT NULL" =
      .ok [⟨.atLeast, ⟨"round(sizes)"⟩, [.plain "3"], rfl⟩,
        ⟨.inList, ⟨"sizes"⟩, [.plain "1", .plain "4"], rfl⟩,
        ⟨.isNotNull, ⟨"sizes"⟩, [], rfl⟩] := eq_ok_of_toOption (by decide +kernel)
  obtain ⟨_, hagrees⟩ := group_agrees_with_compile (.ofValues "sizes" .integer) _ _ hparse (by
    intro filter hfilter _ property hproperty
    simp only [List.mem_cons, List.not_mem_nil, or_false] at hfilter
    rcases hfilter with rfl | rfl | rfl <;> obtain rfl := Option.some.inj hproperty <;> rfl)
  exact ⟨_, _, _, hparse, rfl, rfl, rfl, (hagrees _ _ rfl rfl item).mp rfl⟩

end Constraints

end RecordQuery
