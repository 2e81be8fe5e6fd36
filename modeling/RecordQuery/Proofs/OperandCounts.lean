import Mathlib.Data.List.Nodup
import RecordQuery.Proofs.Grouping

/-!
The number of operands is checked once, when a filter is made. From then on operands are
taken by their place, when a filter is written, when it is compiled, and when its operands
are read off the buckets of a store. Nowhere is one missing: the clause of a filter can be
written, and the number of operands is no longer among the errors of what is done with it.

A bucket is only ever asked for the shape of operands that its operator has. This goes
through grouping as an invariant of the buckets: each operator has one bucket, and what is
recorded in it has as many values as the operator takes.
-/

namespace RecordQuery

/-- The error is about the number of operands. -/
def QueryError.IsArity : QueryError → Prop
  | .invalidArity _ _ _ => True
  | _ => False

/-- The computation does not fail because of the number of operands. -/
abbrev Counted {α : Type} (x : Except QueryError α) : Prop :=
  FailsOnly (fun e => ¬e.IsArity) x

/-! ### The errors of literals and properties -/

theorem counted_convert (text : String) (target : ValueType) : Counted (convert text target) := by
  unfold convert
  split
  · exact .ok _
  · exact .error id

theorem Function.counted_ofName (name : String) : Counted (ofName name) := by
  unfold ofName
  split
  · exact .ok _
  · exact .error id

theorem Function.counted_apply (function : Function) (value : Value) (property : String) :
    Counted (function.apply value property) := by
  unfold apply
  dsimp only
  split
  · exact .ok _
  · exact .error id

theorem ArithmeticOperator.counted_combine (op : ArithmeticOperator) (left right : Value) :
    Counted (op.combine left right) := by
  unfold combine
  dsimp only
  split
  · exact .ok _
  · exact .error id

namespace Literal

theorem counted_resolve (literal : Literal) (target : ValueType) :
    Counted (literal.resolve target) := by
  induction literal generalizing target with
  | plain value => exact counted_convert value target
  | call name argument =>
      refine (Function.counted_ofName name).bind fun function => ?_
      cases argument with
      | none => exact .error id
      | some argument =>
          exact (counted_convert argument _).bind fun value => function.counted_apply _ argument
  | arithmetic left op right ihleft ihright =>
      exact (ihleft _).bind fun a => (ihright _).bind fun b => op.counted_combine _ _

theorem counted_resolveEach (literals : List Literal) (target : ValueType) :
    Counted (resolveEach literals target) :=
  .mapM literals fun literal _ => literal.counted_resolve target

end Literal

section Properties

variable {α : Type}

theorem Schema.counted_require (schema : Schema α) (ref : PropertyRef) :
    Counted (schema.require ref) := by
  unfold require
  split
  · exact .ok _
  · exact .error id

theorem Accessor.counted_subject (accessor : Accessor α)
    (hrequire : ∀ ref, Counted (accessor.require ref)) (ref : PropertyRef) :
    Counted (accessor.subject ref) := by
  unfold subject
  split
  · exact (hrequire ref).bind fun _ => .ok _
  · refine (Function.counted_ofName _).bind fun function => (hrequire _).bind fun property => ?_
    split
    · exact .ok _
    · exact .error id

theorem Accessor.counted_checkGeometry (accessor : Accessor α) (ref : PropertyRef) :
    Counted (accessor.checkGeometry ref) := by
  unfold checkGeometry
  split
  · exact .ok _
  · exact .error id

end Properties

/-! ### Compiling -/

namespace Evaluator

variable {α : Type}

theorem counted_resolution (schema : Schema α) (filter : Filter) :
    Counted (resolution schema filter) := by
  refine (schema.accessor.counted_subject schema.counted_require _).bind fun subject => ?_
  split
  · exact .error id
  · refine FailsOnly.bind ?_ fun _ => .ok _
    unfold Filter.resolved
    split
    · exact .ok _
    · exact Literal.counted_resolveEach _ _

/-- A filter that is resolved has as many operands as there are places for them in the
predicate of its operator. -/
theorem counted_compileFilter (schema : Schema α) (filter : Filter)
    (hspatial : filter.operator.isSpatial = false) : Counted (compileFilter schema filter) :=
  fun e he => counted_resolution schema filter e
    (((concur_compileFilter schema filter hspatial).error_iff e).mpr he)

theorem counted_compileAll (schema : Schema α) (filters : List Filter) :
    Counted (compileAll schema filters) := by
  induction filters with
  | nil => exact .ok _
  | cons filter rest ih =>
      rw [compileAll]
      cases hspatial : filter.operator.isSpatial with
      | true => exact (schema.accessor.counted_checkGeometry _).bind fun _ => ih
      | false =>
          exact (counted_compileFilter schema filter hspatial).bind fun _ =>
            ih.bind fun _ => .ok _

theorem counted_compile (schema : Schema α) (query : Query) : Counted (compile schema query) :=
  (counted_compileAll schema query).bind fun _ => .ok _

end Evaluator

/-! ### Grouping -/

namespace Constraints

variable {α : Type}

theorem counted_constraintOf (accessor : Accessor α)
    (hrequire : ∀ ref, Counted (accessor.require ref)) (filter : Filter) :
    Counted (constraintOf accessor filter) := by
  refine (accessor.counted_subject hrequire _).bind fun subject =>
    FailsOnly.bind ?_ fun _ => .ok _
  unfold operands
  split
  · exact .ok _
  · exact Literal.counted_resolveEach _ _

theorem counted_groupFrom (accessor : Accessor α)
    (hrequire : ∀ ref, Counted (accessor.require ref)) (filters : List Filter)
    (buckets : List (Operator × List Constraint)) :
    Counted (groupFrom accessor filters buckets) := by
  induction filters generalizing buckets with
  | nil => exact .ok _
  | cons filter rest ih =>
      rw [groupFrom]
      split
      · exact (accessor.counted_checkGeometry _).bind fun _ => ih _
      · exact (counted_constraintOf accessor hrequire filter).bind fun _ => ih _

theorem counted_groupBy (accessor : Accessor α)
    (hrequire : ∀ ref, Counted (accessor.require ref)) (query : Query) :
    Counted (groupBy accessor query) :=
  (counted_groupFrom accessor hrequire query []).bind fun _ => .ok _

/-- Each operator has one bucket, and what is in it has as many values as the operator
takes. A text pattern that is no plain text is recorded without a value. -/
structure Proper (buckets : List (Operator × List Constraint)) : Prop where
  nodup : (buckets.map (·.1)).Nodup
  fits : ∀ entry ∈ buckets, entry.1.isPattern = false →
    ∀ constraint ∈ entry.2, entry.1.arity.accepts constraint.values.length = true

theorem proper_nil : Proper [] :=
  ⟨.nil, nofun⟩

/-- What is in the buckets after a constraint is pushed is the constraint or was in one of
the same operator before. -/
theorem mem_of_push (added : Operator) (constraint : Constraint)
    (buckets : List (Operator × List Constraint)) (entry : Operator × List Constraint)
    (hentry : entry ∈ push added constraint buckets) (found : Constraint)
    (hfound : found ∈ entry.2) :
    (entry.1 = added ∧ found = constraint) ∨
      ∃ bucket, (entry.1, bucket) ∈ buckets ∧ found ∈ bucket := by
  induction buckets with
  | nil =>
      obtain rfl := List.mem_singleton.mp hentry
      exact .inl ⟨rfl, List.mem_singleton.mp hfound⟩
  | cons first rest ih =>
      obtain ⟨op, bucket⟩ := first
      rw [push] at hentry
      by_cases hop : op = added
      · rw [if_pos hop] at hentry
        rcases List.mem_cons.mp hentry with rfl | hrest
        · rcases List.mem_append.mp hfound with hold | hnew
          · exact .inr ⟨bucket, List.mem_cons_self, hold⟩
          · exact .inl ⟨hop, List.mem_singleton.mp hnew⟩
        · exact .inr ⟨entry.2, List.mem_cons_of_mem _ hrest, hfound⟩
      · rw [if_neg hop] at hentry
        rcases List.mem_cons.mp hentry with rfl | hrest
        · exact .inr ⟨bucket, List.mem_cons_self, hfound⟩
        · rcases ih hrest with hnew | ⟨bucket, hmem, hfound⟩
          · exact .inl hnew
          · exact .inr ⟨bucket, List.mem_cons_of_mem _ hmem, hfound⟩

theorem proper_push {added : Operator} {constraint : Constraint}
    {buckets : List (Operator × List Constraint)} (h : Proper buckets)
    (hfits : added.isPattern = false → added.arity.accepts constraint.values.length = true) :
    Proper (push added constraint buckets) where
  nodup := by
    rw [operators_push]
    split
    · exact h.nodup
    · next hnew =>
      rw [← List.concat_eq_append]
      exact h.nodup.concat hnew
  fits := by
    intro entry hentry hpattern found hfound
    rcases mem_of_push added constraint buckets entry hentry found hfound with
      ⟨rfl, rfl⟩ | ⟨bucket, hmem, hfound⟩
    · exact hfits hpattern
    · exact h.fits _ hmem hpattern found hfound

/-- Resolved literals are as many as there are literals. -/
theorem fits_of_constraintOf (accessor : Accessor α) (filter : Filter) (constraint : Constraint)
    (h : constraintOf accessor filter = .ok constraint)
    (hpattern : filter.operator.isPattern = false) :
    filter.operator.arity.accepts constraint.values.length = true := by
  have hplain : filter.HasPlainPattern := fun htrue =>
    absurd (hpattern.symm.trans htrue) Bool.false_ne_true
  exact fits_of_convertsTo accessor filter _
    (convertsTo_of_constraintOf accessor filter constraint h hplain)

theorem proper_of_groupFrom (accessor : Accessor α) (filters : List Filter)
    (buckets final : List (Operator × List Constraint)) (hproper : Proper buckets)
    (h : groupFrom accessor filters buckets = .ok final) : Proper final := by
  induction filters generalizing buckets with
  | nil => exact Except.ok.inj h ▸ hproper
  | cons filter rest ih =>
      rw [groupFrom] at h
      split at h
      · obtain ⟨_, _, hrest⟩ := (bind_eq_ok_iff _ _ _).mp h
        exact ih buckets hproper hrest
      · obtain ⟨constraint, hconstraint, hrest⟩ := (bind_eq_ok_iff _ _ _).mp h
        exact ih _ (proper_push hproper (fits_of_constraintOf accessor filter constraint hconstraint))
          hrest

/-! ### Answers -/

theorem get_eq_of_mem {buckets : List (Operator × List Constraint)}
    (hnodup : (buckets.map (·.1)).Nodup) {operator : Operator} {bucket : List Constraint}
    (h : (operator, bucket) ∈ buckets) : get ⟨buckets⟩ operator = bucket := by
  induction buckets with
  | nil => cases h
  | cons first rest ih =>
      obtain ⟨op, others⟩ := first
      obtain ⟨hop, hrest⟩ := List.nodup_cons.mp hnodup
      rw [get_cons]
      rcases List.mem_cons.mp h with hfirst | hmem
      · obtain ⟨rfl, rfl⟩ := Prod.mk.inj hfirst
        rw [if_pos rfl]
      · have hne : op ≠ operator := fun heq => hop (List.mem_map.mpr ⟨_, hmem, heq.symm⟩)
        rw [if_neg hne, ih hrest hmem]

/-- Nothing is left out of an answer that reads all operands of the right number. -/
theorem map_answers {buckets : List (Operator × List Constraint)} (hproper : Proper buckets)
    {operator : Operator} {bucket : List Constraint} (hmem : (operator, bucket) ∈ buckets)
    (hpattern : operator.isPattern = false) (property : String) {γ : Type}
    (read : List Scalar → Option γ) (write : γ → List Scalar)
    (hread : ∀ values, operator.arity.accepts values.length = true →
      (read values).map write = some values) :
    (((⟨buckets⟩ : Constraints).operandsOf operator property).filterMap read).map write =
      (bucket.filter (·.property.text == property)).map (·.values) := by
  have hvalues : ∀ values ∈ (bucket.filter (·.property.text == property)).map (·.values),
      (read values).map write = some values := by
    intro values hvalues
    obtain ⟨constraint, hconstraint, rfl⟩ := List.mem_map.mp hvalues
    exact hread _ (hproper.fits _ hmem hpattern constraint (List.mem_filter.mp hconstraint).1)
  rw [operandsOf, get_eq_of_mem hproper.nodup hmem, List.map_filterMap,
    List.filterMap_congr hvalues, List.filterMap_some]

/-- What is recorded of ranges and of comparisons is in the answers for their operator and
property, all of it and in order. -/
structure Complete (constraints : Constraints) : Prop where
  pair : ∀ operator bucket, (operator, bucket) ∈ constraints.buckets → operator.arity = .pair →
    ∀ property, (constraints.pairs operator property).map (fun bounds => [bounds.1, bounds.2]) =
      (bucket.filter (·.property.text == property)).map (·.values)
  single : ∀ operator bucket, (operator, bucket) ∈ constraints.buckets →
    operator.isComparison = true →
    ∀ property, (constraints.singles operator property).map (fun value => [value]) =
      (bucket.filter (·.property.text == property)).map (·.values)

theorem complete_of_proper {buckets : List (Operator × List Constraint)}
    (hproper : Proper buckets) : Complete ⟨buckets⟩ where
  pair := by
    intro operator bucket hmem harity property
    obtain ⟨_, hpattern⟩ := Clause.kind_of_arity_ne operator (by simp [harity])
    refine map_answers hproper hmem hpattern property _ _ fun values hfits => ?_
    have hpair := Arity.operands_of_accepts _ values hfits
    rw [harity] at hpair
    obtain ⟨lower, upper, rfl⟩ := hpair
    rfl
  single := by
    intro operator bucket hmem hcomparison property
    obtain ⟨harity, hpattern, _⟩ := operator.single_of_isComparison hcomparison
    refine map_answers hproper hmem hpattern property _ _ fun values hfits => ?_
    have hsingle := Arity.operands_of_accepts _ values hfits
    rw [harity] at hsingle
    obtain ⟨value, rfl⟩ := hsingle
    rfl

theorem complete_of_groupBy (accessor : Accessor α) (query : Query) (constraints : Constraints)
    (h : groupBy accessor query = .ok constraints) : constraints.Complete := by
  obtain ⟨buckets, hbuckets, hconstraints⟩ := (bind_eq_ok_iff _ _ _).mp h
  obtain rfl := Except.ok.inj hconstraints
  exact complete_of_proper (proper_of_groupFrom accessor query [] buckets proper_nil hbuckets)

end Constraints

/-! ### Filters that are made -/

/-- A filter that is made has the parts that it is made of. -/
theorem Filter.parts_of_make {operator : Operator} {property : PropertyRef}
    {operands : List Literal} {filter : Filter}
    (h : make operator property operands = .ok filter) :
    filter.operator = operator ∧ filter.property = property ∧ filter.operands = operands := by
  unfold make at h
  split at h
  · obtain rfl := Except.ok.inj h
    exact ⟨rfl, rfl, rfl⟩
  · cases h

theorem Filter.clauseOf?_of_make {operator : Operator} {property : PropertyRef}
    {operands : List Literal} {filter : Filter}
    (h : make operator property operands = .ok filter) :
    clauseOf? operator property operands = some filter.renderChars := by
  obtain ⟨rfl, rfl, rfl⟩ := parts_of_make h
  exact filter.clauseOf?_eq

namespace Query

variable {α : Type}

/-- The query of filters with these parts, unless the number of literals in one does not
fit. -/
def ofParts (parts : List (Operator × PropertyRef × List Literal)) : Except QueryError Query :=
  parts.mapM fun part => Filter.make part.1 part.2.1 part.2.2

/-- When filters have been made of some parts, each has its clause, with no operand missing.
Compiling and grouping them does not fail because of the number of operands, on a schema or
in any way to reach properties that does not. And a store that asks for ranges and for
comparisons gets all that is grouped. -/
theorem operand_counts_suffice (parts : List (Operator × PropertyRef × List Literal))
    (query : Query) (h : ofParts parts = .ok query) :
    List.Forall₂ (fun part filter =>
        Filter.clauseOf? part.1 part.2.1 part.2.2 = some filter.renderChars) parts query ∧
      (∀ schema : Schema α,
        Counted (Evaluator.compile schema query) ∧ Counted (Constraints.group schema query)) ∧
      ∀ accessor : Accessor α,
        ((∀ ref, Counted (accessor.require ref)) → Counted (Constraints.groupBy accessor query)) ∧
          ∀ constraints, Constraints.groupBy accessor query = .ok constraints →
            constraints.Complete := by
  refine ⟨?_, fun schema => ⟨?_, ?_⟩, fun accessor => ⟨fun hrequire => ?_, ?_⟩⟩
  · rw [ofParts, mapM_eq_ok_iff, ← List.forall₂_eq_eq_eq, List.forall₂_map_left_iff,
      List.forall₂_map_right_iff] at h
    exact h.imp fun _ _ => Filter.clauseOf?_of_make
  · exact Evaluator.counted_compile schema query
  · exact Constraints.counted_groupBy schema.accessor schema.counted_require query
  · exact Constraints.counted_groupBy accessor hrequire query
  · exact Constraints.complete_of_groupBy accessor query

/-- Filters with each number of operands that an operator takes. -/
theorem operand_counts_suffice_of_mixed :
    let schema : Schema Value :=
      .ofProperties [⟨"size", .integer, .concrete id⟩, ⟨"place", .geometry, .concrete id⟩]
    let parts : List (Operator × PropertyRef × List Literal) :=
      [(.between, ⟨"size"⟩, [.plain "1", .arithmetic (.plain "3") .mul (.plain "3")]),
        (.isNull, ⟨"place"⟩, []), (.inList, ⟨"size"⟩, [.plain "2", .plain "4", .plain "6"]),
        (.less, ⟨"size"⟩, [.plain "5"])]
    ∃ query constraints, ofParts parts = .ok query ∧
      query.map (·.render) =
        ["size BETWEEN 1 AND 3*3", "place IS NULL", "size IN (2,4,6)", "size<5"] ∧
      Constraints.group schema query = .ok constraints ∧
      constraints.pairs .between "size" = [(.integer 1, .integer 9)] ∧
      constraints.singles .less "size" = [.integer 5] ∧ constraints.Complete := by
  intro schema parts
  refine ⟨_, _, rfl, by decide +kernel, rfl, rfl, rfl, ?_⟩
  exact ((operand_counts_suffice parts _ rfl).2.2 schema.accessor).2 _ rfl

end Query

end RecordQuery
