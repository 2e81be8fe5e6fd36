import Mathlib.Data.List.Forall2
import Mathlib.Data.List.Induction
import RecordQuery.Proofs.Evaluator.Pushdown

/-!
Grouping keeps what a query says. Every filter that is not spatial is recorded in the
bucket of its operator, behind the filters of that operator before it, with its own
property and with its operands converted one by one. A bucket is made for the first
filter of an operator, so no bucket is empty and buckets come in the order of these
filters.

What a store asks for is read off the buckets by operator and property. As each
filter has as many operands as its operator takes, nothing is left out there: the
answers for an operator and a property are the values of just the filters with that
operator on that property, in order. The one exception are text patterns that are no
plain text, which no parsed query has.

All of this holds for any way to reach properties, not only for schemas.
-/

namespace RecordQuery

namespace Query

/-- The filters that are recorded when the query is grouped: all but the spatial ones. -/
def recorded (query : Query) : List Filter :=
  query.filter fun filter => !filter.operator.isSpatial

/-- The recorded filters with an operator. -/
def withOperator (query : Query) (operator : Operator) : List Filter :=
  query.recorded.filter fun filter => filter.operator == operator

/-- The recorded filters with an operator on the property of this text. -/
def onProperty (query : Query) (operator : Operator) (property : String) : List Filter :=
  (query.withOperator operator).filter fun filter => filter.property.text == property

end Query

/-- The values are the operands of the filter, one by one: texts for a text pattern, and
else the scalars to which they resolve for the type of the property. -/
def Filter.ConvertsTo {α : Type} (filter : Filter) (accessor : Accessor α)
    (values : List Scalar) : Prop :=
  ∃ subject, accessor.subject filter.property = .ok subject ∧
    List.Forall₂ (fun literal value =>
      if filter.operator.isPattern then ∃ text, literal = .plain text ∧ value = .text text
      else literal.resolve subject.type = .ok value) filter.operands values

instance (filter : Filter) : Decidable filter.HasPlainPattern :=
  inferInstanceAs (Decidable (_ → ∀ literal ∈ filter.operands, literal.plain?.isSome = true))

namespace Constraints

variable {α : Type}

/-- The constraints say what the recorded filters of the query say, no more and no less. -/
structure Restates (constraints : Constraints) (accessor : Accessor α) (query : Query) :
    Prop where
  /-- There is one bucket for each operator, in the order of the first filters. -/
  operators : constraints.buckets.map (·.1) = (query.recorded.map (·.operator)).eraseDups
  filled : ∀ bucket ∈ constraints.buckets, bucket.2 ≠ []
  /-- A bucket has the filters of its operator, in order. -/
  bucket : ∀ operator, List.Forall₂
    (fun filter constraint => constraint.property = filter.property ∧
      (filter.HasPlainPattern → filter.ConvertsTo accessor constraint.values))
    (query.withOperator operator) (constraints.get operator)
  /-- Answers for comparisons. -/
  single : ∀ operator property, operator.isComparison = true →
    List.Forall₂ (fun filter value => filter.ConvertsTo accessor [value])
      (query.onProperty operator property) (constraints.singles operator property)
  /-- Answers for ranges. -/
  pair : ∀ operator property, operator.arity = .pair →
    List.Forall₂ (fun filter bounds => filter.ConvertsTo accessor [bounds.1, bounds.2])
      (query.onProperty operator property) (constraints.pairs operator property)
  /-- Answers for text patterns. -/
  text : ∀ operator property, operator.isPattern = true →
    List.Forall₂ (fun filter pattern => filter.ConvertsTo accessor [.text pattern])
      ((query.onProperty operator property).filter (·.HasPlainPattern))
      (constraints.texts operator property)
  /-- Answers for lists. -/
  many : ∀ operator property, operator.arity = .many →
    List.Forall₂ (fun filter values => filter.ConvertsTo accessor values)
      (query.onProperty operator property) (constraints.operandsOf operator property)
  /-- Answers for null checks. -/
  check : ∀ operator property, operator.arity = .none →
    (constraints.has operator property = true ↔ query.onProperty operator property ≠ [])
  /-- A filter is in the answer for its own operator and property as often as in the
  query, and in no other. -/
  once : ∀ filter operator property, (query.onProperty operator property).count filter =
    if operator = filter.operator ∧ property = filter.property.text then
      query.recorded.count filter
    else 0

/-! ### Buckets -/

theorem get_nil (operator : Operator) : get ⟨[]⟩ operator = [] :=
  rfl

theorem get_cons (op : Operator) (bucket : List Constraint)
    (rest : List (Operator × List Constraint)) (operator : Operator) :
    get ⟨(op, bucket) :: rest⟩ operator =
      if op = operator then bucket else get ⟨rest⟩ operator := by
  unfold get
  by_cases h : op = operator <;> simp [h]

/-- A constraint that is pushed comes last for its operator, and nothing else changes. -/
theorem get_push (added : Operator) (constraint : Constraint)
    (buckets : List (Operator × List Constraint)) (operator : Operator) :
    get ⟨push added constraint buckets⟩ operator =
      get ⟨buckets⟩ operator ++ if added = operator then [constraint] else [] := by
  induction buckets with
  | nil => rw [push, get_cons, get_nil, List.nil_append]
  | cons first rest ih =>
      obtain ⟨op, bucket⟩ := first
      unfold push
      by_cases hop : op = added
      · subst hop
        rw [if_pos rfl, get_cons, get_cons]
        split <;> simp_all
      · rw [if_neg hop, get_cons, get_cons, ih]
        split
        · next h => rw [if_neg fun hadded => hop (h.trans hadded.symm), List.append_nil]
        · rfl

theorem operators_push (added : Operator) (constraint : Constraint)
    (buckets : List (Operator × List Constraint)) :
    (push added constraint buckets).map (·.1) =
      if added ∈ buckets.map (·.1) then buckets.map (·.1)
      else buckets.map (·.1) ++ [added] := by
  induction buckets with
  | nil => rfl
  | cons first rest ih =>
      obtain ⟨op, bucket⟩ := first
      unfold push
      by_cases hop : op = added
      · simp [hop]
      · have hne : added ≠ op := fun h => hop h.symm
        rw [if_neg hop, List.map_cons, ih, List.map_cons]
        simp only [List.mem_cons, hne, false_or]
        split <;> rfl

theorem filled_push (added : Operator) (constraint : Constraint)
    (buckets : List (Operator × List Constraint)) (h : ∀ bucket ∈ buckets, bucket.2 ≠ []) :
    ∀ bucket ∈ push added constraint buckets, bucket.2 ≠ [] := by
  induction buckets with
  | nil => simp [push]
  | cons first rest ih =>
      obtain ⟨hfirst, hrest⟩ := List.forall_mem_cons.mp h
      unfold push
      split
      · exact List.forall_mem_cons.mpr ⟨by simp, hrest⟩
      · exact List.forall_mem_cons.mpr ⟨hfirst, ih hrest⟩

/-- The buckets of some constraints with their operators, one pushed after the other. -/
def bucketed (found : List (Operator × Constraint)) (buckets : List (Operator × List Constraint)) :
    List (Operator × List Constraint) :=
  found.foldl (fun buckets entry => push entry.1 entry.2 buckets) buckets

theorem get_bucketed (found : List (Operator × Constraint))
    (buckets : List (Operator × List Constraint)) (operator : Operator) :
    get ⟨bucketed found buckets⟩ operator =
      get ⟨buckets⟩ operator ++ (found.filter (·.1 == operator)).map (·.2) := by
  induction found generalizing buckets with
  | nil => simp [bucketed]
  | cons entry rest ih =>
      rw [bucketed, List.foldl_cons, ← bucketed, ih, get_push, List.append_assoc]
      by_cases h : entry.1 = operator <;> simp [h]

theorem operators_bucketed (found : List (Operator × Constraint)) :
    (bucketed found []).map (·.1) = (found.map (·.1)).eraseDups := by
  induction found using List.reverseRecOn with
  | nil => rfl
  | append_singleton found entry ih =>
      rw [bucketed, List.foldl_concat, ← bucketed, operators_push, ih, List.map_append,
        List.eraseDups_append]
      by_cases h : entry.1 ∈ found.map (·.1) <;>
        simp [h, List.mem_eraseDups, List.removeAll, List.eraseDups_cons]

theorem filled_bucketed (found : List (Operator × Constraint)) :
    ∀ bucket ∈ bucketed found [], bucket.2 ≠ [] := by
  induction found using List.reverseRecOn with
  | nil => exact nofun
  | append_singleton found entry ih =>
      rw [bucketed, List.foldl_concat, ← bucketed]
      exact filled_push _ _ _ ih

/-! ### From filters to buckets -/

/-- The entry is what is recorded of the filter, with the filter's operator. -/
def IsEntryOf (accessor : Accessor α) (filter : Filter) (entry : Operator × Constraint) : Prop :=
  entry.1 = filter.operator ∧ constraintOf accessor filter = .ok entry.2

/-- Grouping that succeeds pushes one entry for each recorded filter, in order. -/
theorem exists_entries_of_groupFrom (accessor : Accessor α) (filters : List Filter)
    (buckets final : List (Operator × List Constraint))
    (h : groupFrom accessor filters buckets = .ok final) :
    ∃ found, List.Forall₂ (IsEntryOf accessor) (Query.recorded filters) found ∧
      final = bucketed found buckets := by
  induction filters generalizing buckets with
  | nil => exact ⟨[], .nil, (Except.ok.inj h).symm⟩
  | cons filter rest ih =>
      rw [groupFrom] at h
      cases hspatial : filter.operator.isSpatial with
      | true =>
          rw [if_pos hspatial] at h
          obtain ⟨_, _, hrest⟩ := (bind_eq_ok_iff _ _ _).mp h
          obtain ⟨found, hfound, hfinal⟩ := ih buckets hrest
          exact ⟨found, by simpa [Query.recorded, hspatial] using hfound, hfinal⟩
      | false =>
          rw [if_neg (by simp [hspatial])] at h
          obtain ⟨constraint, hconstraint, hrest⟩ := (bind_eq_ok_iff _ _ _).mp h
          obtain ⟨found, hfound, hfinal⟩ := ih _ hrest
          refine ⟨(filter.operator, constraint) :: found, ?_, hfinal⟩
          simpa [Query.recorded, hspatial, IsEntryOf, hconstraint] using hfound

/-- What is recorded of a filter are its own property and its operands. -/
theorem constraintOf_eq_ok_iff (accessor : Accessor α) (filter : Filter) (constraint : Constraint) :
    constraintOf accessor filter = .ok constraint ↔
      constraint.property = filter.property ∧ ∃ subject,
        accessor.subject filter.property = .ok subject ∧
        operands filter subject.type = .ok constraint.values := by
  unfold constraintOf
  simp only [bind_eq_ok_iff]
  constructor
  · rintro ⟨subject, hsubject, values, hvalues, hconstraint⟩
    obtain rfl := Except.ok.inj hconstraint
    exact ⟨rfl, subject, hsubject, hvalues⟩
  · rintro ⟨hproperty, subject, hsubject, hvalues⟩
    exact ⟨subject, hsubject, constraint.values, hvalues, by rw [← hproperty]; rfl⟩

/-- The recorded operands of a filter with a plain pattern are converted one by one. -/
theorem convertsTo_of_constraintOf (accessor : Accessor α) (filter : Filter)
    (constraint : Constraint) (h : constraintOf accessor filter = .ok constraint)
    (hplain : filter.HasPlainPattern) : filter.ConvertsTo accessor constraint.values := by
  obtain ⟨_, subject, hsubject, hvalues⟩ := (constraintOf_eq_ok_iff _ _ _).mp h
  refine ⟨subject, hsubject, ?_⟩
  rw [operands_eq_resolved filter hplain, Filter.resolved] at hvalues
  by_cases hpattern : filter.operator.isPattern = true
  · rw [if_pos hpattern] at hvalues
    rw [← Except.ok.inj hvalues, List.forall₂_map_right_iff]
    refine List.forall₂_same.mpr fun literal hliteral => ?_
    rw [if_pos hpattern]
    have hsome := hplain hpattern literal hliteral
    cases literal with
    | plain text => exact ⟨text, rfl, rfl⟩
    | call name argument => cases hsome
    | arithmetic left op right => cases hsome
  · rw [if_neg hpattern, Literal.resolveEach, mapM_eq_ok_iff, ← List.forall₂_eq_eq_eq,
      List.forall₂_map_left_iff, List.forall₂_map_right_iff] at hvalues
    simpa only [if_neg hpattern] using hvalues

/-- A pattern that is no plain text leaves no operand. -/
theorem values_of_not_hasPlainPattern (accessor : Accessor α) (filter : Filter)
    (constraint : Constraint) (h : constraintOf accessor filter = .ok constraint)
    (hplain : ¬filter.HasPlainPattern) : constraint.values = [] := by
  obtain ⟨_, subject, _, hvalues⟩ := (constraintOf_eq_ok_iff _ _ _).mp h
  simp only [Filter.HasPlainPattern, Classical.not_imp, not_forall] at hplain
  obtain ⟨hpattern, literal, hliteral, hnone⟩ := hplain
  have hsingle := Arity.operands_of_accepts _ _ filter.fits
  rw [filter.operator.single_of_isPattern hpattern] at hsingle
  obtain ⟨only, honly⟩ := hsingle
  rw [honly, List.mem_singleton] at hliteral
  rw [operands, if_pos hpattern, honly] at hvalues
  rw [← Except.ok.inj hvalues]
  simp_all

/-! ### From buckets to answers -/

/-- Converted operands are as many as the operator takes. -/
theorem fits_of_convertsTo (accessor : Accessor α) (filter : Filter) (values : List Scalar)
    (h : filter.ConvertsTo accessor values) :
    filter.operator.arity.accepts values.length = true := by
  obtain ⟨_, _, hvalues⟩ := h
  rw [← hvalues.length_eq]
  exact filter.fits

section Answers

variable {accessor : Accessor α} {query : Query} {constraints : Constraints}

/-- The bucket of an operator has what is recorded of the filters with it. -/
def HasBuckets (accessor : Accessor α) (query : Query) (constraints : Constraints) : Prop :=
  ∀ operator, List.Forall₂ (fun filter constraint => constraintOf accessor filter = .ok constraint)
    (query.withOperator operator) (constraints.get operator)

/-- What is recorded under an operator and a property: converted operands, or none if a
text pattern is no plain text. -/
theorem forall₂_operandsOf (h : HasBuckets accessor query constraints) (operator : Operator)
    (property : String) :
    List.Forall₂
      (fun filter values => filter.operator = operator ∧
        (filter.HasPlainPattern → filter.ConvertsTo accessor values) ∧
        (¬filter.HasPlainPattern → values = []))
      (query.onProperty operator property) (constraints.operandsOf operator property) := by
  have hfiltered : List.Forall₂
      (fun filter constraint => constraintOf accessor filter = .ok constraint)
      (query.onProperty operator property)
      ((constraints.get operator).filter fun constraint => constraint.property.text == property) := by
    refine List.rel_filter (fun filter constraint hrecorded => ?_) (h operator)
    change (filter.property.text == property) = true ↔ (constraint.property.text == property) = true
    rw [((constraintOf_eq_ok_iff _ _ _).mp hrecorded).1]
  rw [operandsOf, List.forall₂_map_right_iff, List.forall₂_and_left]
  constructor
  · intro filter hfilter
    exact eq_of_beq (List.mem_filter.mp (List.mem_filter.mp hfilter).1).2
  · exact hfiltered.imp fun filter constraint hrecorded =>
      ⟨convertsTo_of_constraintOf accessor filter constraint hrecorded,
        values_of_not_hasPlainPattern accessor filter constraint hrecorded⟩

/-- For an operator other than the text patterns, answers that are read off any operands
of the right number are the operands of the filters. -/
theorem forall₂_answers (h : HasBuckets accessor query constraints) (operator : Operator)
    (property : String) (hpattern : operator.isPattern = false) {γ : Type}
    (read : List Scalar → Option γ) (write : γ → List Scalar)
    (hread : ∀ values, operator.arity.accepts values.length = true →
      ∃ answer, read values = some answer ∧ write answer = values) :
    List.Forall₂ (fun filter answer => filter.ConvertsTo accessor (write answer))
      (query.onProperty operator property)
      ((constraints.operandsOf operator property).filterMap read) := by
  have hsome : (query.onProperty operator property).filterMap some =
      query.onProperty operator property := List.filterMap_some
  rw [← hsome]
  refine List.rel_filterMap ?_ (forall₂_operandsOf h operator property)
  rintro filter values ⟨rfl, hplain, _⟩
  have hconverts := hplain fun htrue => by simp [hpattern] at htrue
  obtain ⟨answer, hanswer, rfl⟩ :=
    hread values (fits_of_convertsTo accessor filter values hconverts)
  rw [hanswer]
  exact .some hconverts

theorem forall₂_singles (h : HasBuckets accessor query constraints) (operator : Operator)
    (property : String) (hcomparison : operator.isComparison = true) :
    List.Forall₂ (fun filter value => filter.ConvertsTo accessor [value])
      (query.onProperty operator property) (constraints.singles operator property) := by
  obtain ⟨harity, hpattern, _⟩ := operator.single_of_isComparison hcomparison
  refine forall₂_answers h operator property hpattern List.head? (fun value => [value]) ?_
  intro values hfits
  have hsingle := Arity.operands_of_accepts _ values hfits
  rw [harity] at hsingle
  obtain ⟨value, rfl⟩ := hsingle
  exact ⟨value, rfl, rfl⟩

theorem forall₂_pairs (h : HasBuckets accessor query constraints) (operator : Operator)
    (property : String) (harity : operator.arity = .pair) :
    List.Forall₂ (fun filter bounds => filter.ConvertsTo accessor [bounds.1, bounds.2])
      (query.onProperty operator property) (constraints.pairs operator property) := by
  obtain ⟨_, hpattern⟩ := Clause.kind_of_arity_ne operator (by simp [harity])
  refine forall₂_answers h operator property hpattern _
    (fun bounds : Scalar × Scalar => [bounds.1, bounds.2]) ?_
  intro values hfits
  have hpair := Arity.operands_of_accepts _ values hfits
  rw [harity] at hpair
  obtain ⟨lower, upper, rfl⟩ := hpair
  exact ⟨(lower, upper), rfl, rfl⟩

theorem forall₂_lists (h : HasBuckets accessor query constraints) (operator : Operator)
    (property : String) (harity : operator.arity = .many) :
    List.Forall₂ (fun filter values => filter.ConvertsTo accessor values)
      (query.onProperty operator property) (constraints.operandsOf operator property) := by
  obtain ⟨_, hpattern⟩ := Clause.kind_of_arity_ne operator (by simp [harity])
  simpa using forall₂_answers h operator property hpattern some id
    fun values _ => ⟨values, rfl, rfl⟩

/-- The text of the value of a text pattern. -/
theorem exists_text_of_convertsTo (filter : Filter) (values : List Scalar)
    (hpattern : filter.operator.isPattern = true) (h : filter.ConvertsTo accessor values) :
    ∃ pattern, values = [.text pattern] := by
  obtain ⟨_, _, hvalues⟩ := h
  have hsingle := Arity.operands_of_accepts _ _ filter.fits
  rw [filter.operator.single_of_isPattern hpattern] at hsingle
  obtain ⟨only, honly⟩ := hsingle
  rw [honly] at hvalues
  obtain ⟨value, rest, hvalue, hrest, rfl⟩ := List.forall₂_cons_left_iff.mp hvalues
  rw [if_pos hpattern] at hvalue
  obtain ⟨pattern, _, rfl⟩ := hvalue
  exact ⟨pattern, by rw [List.forall₂_nil_left_iff.mp hrest]⟩

theorem forall₂_texts (h : HasBuckets accessor query constraints) (operator : Operator)
    (property : String) (hpattern : operator.isPattern = true) :
    List.Forall₂ (fun filter pattern => filter.ConvertsTo accessor [.text pattern])
      ((query.onProperty operator property).filter (·.HasPlainPattern))
      (constraints.texts operator property) := by
  rw [texts, singles, List.filterMap_filterMap, ← List.filterMap_eq_filter]
  refine List.rel_filterMap ?_ (forall₂_operandsOf h operator property)
  rintro filter values ⟨rfl, hplain, hnone⟩
  by_cases hfilter : filter.HasPlainPattern
  · obtain ⟨pattern, rfl⟩ := exists_text_of_convertsTo filter values hpattern (hplain hfilter)
    simpa [Option.guard, hfilter] using hplain hfilter
  · rw [hnone hfilter]
    simp [Option.guard, hfilter]

end Answers

/-- A filter is among those with an operator on a property if these are its own. -/
theorem count_onProperty (query : Query) (filter : Filter) (operator : Operator)
    (property : String) : (query.onProperty operator property).count filter =
      if operator = filter.operator ∧ property = filter.property.text then
        query.recorded.count filter
      else 0 := by
  unfold Query.onProperty Query.withOperator
  split
  · next h =>
    rw [List.count_filter (by simp [h.2]), List.count_filter (by simp [h.1])]
  · next h =>
    rw [List.count_eq_zero]
    intro hmem
    obtain ⟨hmem, hproperty⟩ := List.mem_filter.mp hmem
    exact h ⟨(eq_of_beq (List.mem_filter.mp hmem).2).symm, (eq_of_beq hproperty).symm⟩

/-- A query that is grouped is restated by its constraints: by their buckets and by all
answers that are read off them. -/
theorem restates_of_groupBy (accessor : Accessor α) (query : Query) (constraints : Constraints)
    (h : groupBy accessor query = .ok constraints) : constraints.Restates accessor query := by
  obtain ⟨buckets, hbuckets, hconstraints⟩ := (bind_eq_ok_iff _ _ _).mp h
  obtain rfl := Except.ok.inj hconstraints
  obtain ⟨found, hfound, rfl⟩ := exists_entries_of_groupFrom accessor query [] buckets hbuckets
  have hhas : HasBuckets accessor query ⟨bucketed found []⟩ := by
    intro operator
    rw [get_bucketed, get_nil, List.nil_append, List.forall₂_map_right_iff]
    refine (List.rel_filter ?_ hfound).imp fun _ _ hentry => hentry.2
    intro filter entry hentry
    change (filter.operator == operator) = true ↔ (entry.1 == operator) = true
    rw [hentry.1]
  exact
    { operators := by
        have hoperators : query.recorded.map (·.operator) = found.map (·.1) := by
          rw [← List.forall₂_eq_eq_eq, List.forall₂_map_left_iff, List.forall₂_map_right_iff]
          exact hfound.imp fun _ _ hentry => hentry.1.symm
        rw [operators_bucketed, hoperators]
      filled := filled_bucketed found
      bucket := fun operator => (hhas operator).imp fun filter constraint hrecorded =>
        ⟨((constraintOf_eq_ok_iff _ _ _).mp hrecorded).1,
          convertsTo_of_constraintOf accessor filter constraint hrecorded⟩
      single := forall₂_singles hhas
      pair := forall₂_pairs hhas
      text := forall₂_texts hhas
      many := forall₂_lists hhas
      check := fun operator property _ => by
        have hlength := (forall₂_operandsOf hhas operator property).length_eq
        rw [has, Bool.not_eq_true', List.isEmpty_eq_false_iff, ← List.length_pos_iff,
          ← List.length_pos_iff, hlength]
      once := count_onProperty query }

/-- Filters of all kinds on two properties, not in the order in which a parser gives
them. -/
theorem restates_of_groupBy_of_mixed :
    let schema : Schema Value :=
      .ofProperties [⟨"size", .integer, .concrete id⟩, ⟨"place", .geometry, .concrete id⟩]
    let query : Query :=
      [⟨.equal, ⟨"size"⟩, [.plain "2"], rfl⟩, ⟨.like, ⟨"place"⟩, [.plain "P%"], rfl⟩,
        ⟨.between, ⟨"round(size)"⟩, [.plain "1", .plain "9"], rfl⟩,
        ⟨.intersects, ⟨"place"⟩, [.plain "POLYGON((0 0,1 1,0 0))"], rfl⟩,
        ⟨.equal, ⟨"size"⟩, [.arithmetic (.plain "3") .add (.plain "4")], rfl⟩,
        ⟨.isNull, ⟨"place"⟩, [], rfl⟩]
    ∃ constraints, groupBy schema.accessor query = .ok constraints ∧
      constraints.singles .equal "size" = [.integer 2, .integer 7] ∧
      constraints.Restates schema.accessor query :=
  ⟨_, rfl, rfl, restates_of_groupBy _ _ _ rfl⟩

end Constraints

end RecordQuery
