import RecordQuery.Proofs.Evaluator.Negation

/-!
Operators in terms of others. A list of values is asked for one by one, a bound that may
be reached is the bound or something beyond it, and a range has two bounds. These laws
hold for a scalar. A filter asks for some leaf of a value, so that a law with "or" carries
over to all values, while one with "and" does not: two leaves may satisfy one part each.

The verdict on a record is the error of the filter if it is not compiled, so that the
laws are equations that also say which literals must resolve.
-/

namespace RecordQuery

section Scalars

variable (scalars : List Scalar)

/-- An order that is accepted beside that of equal scalars is asked for beside equality. -/
theorem any_ordered_or_equal (accepts strict : Ordering → Bool)
    (h : ∀ order, accepts order = (strict order || order == .eq)) (bound : Scalar) :
    scalars.any (Predicate.ordered accepts bound).test =
      (scalars.any (Predicate.ordered strict bound).test ||
        scalars.any (Predicate.equal false bound).test) := by
  have hscalar (scalar : Scalar) : (Predicate.ordered accepts bound).test scalar =
      ((Predicate.ordered strict bound).test scalar ||
        (Predicate.equal false bound).test scalar) := by
    simp only [Predicate.test, Scalar.equals, Bool.bne_false]
    cases scalar.compare bound with
    | none => rfl
    | some order => exact h order
  induction scalars with
  | nil => rfl
  | cons scalar scalars ih =>
      simp only [List.any_cons, ih, hscalar, Bool.or_assoc, Bool.or_left_comm]

/-- A list of candidates is asked for one by one. -/
theorem any_inList (candidates : List Scalar) :
    scalars.any (Predicate.inList false candidates).test =
      candidates.any fun candidate => scalars.any (Predicate.equal false candidate).test := by
  rw [Bool.eq_iff_iff]
  simp only [Predicate.test, Bool.bne_false, List.any_eq_true]
  constructor
  · rintro ⟨scalar, hscalar, candidate, hcandidate, hequals⟩
    exact ⟨candidate, hcandidate, scalar, hscalar, hequals⟩
  · rintro ⟨candidate, hcandidate, scalar, hscalar, hequals⟩
    exact ⟨scalar, hscalar, candidate, hcandidate, hequals⟩

/-- A range lies on one side of each of its bounds. -/
theorem test_between (scalar lower upper : Scalar) :
    (Predicate.between false lower upper).test scalar =
      ((Predicate.ordered (· != .lt) lower).test scalar &&
        (Predicate.ordered (· != .gt) upper).test scalar) := by
  simp only [Predicate.test, Scalar.isBetween, Bool.bne_false]

/-- Between equal bounds there is nothing but what is equal to them. -/
theorem test_between_self (scalar bound : Scalar) :
    (Predicate.between false bound bound).test scalar =
      (Predicate.equal false bound).test scalar := by
  simp only [Predicate.test, Scalar.isBetween, Scalar.equals, Bool.bne_false]
  cases scalar.compare bound with
  | none => rfl
  | some order => cases order <;> rfl

theorem any_bounds_of_between (lower upper : Scalar)
    (h : scalars.any (Predicate.between false lower upper).test = true) :
    scalars.any (Predicate.ordered (· != .lt) lower).test = true ∧
      scalars.any (Predicate.ordered (· != .gt) upper).test = true := by
  obtain ⟨scalar, hscalar, hbetween⟩ := List.any_eq_true.mp h
  rw [test_between, Bool.and_eq_true] at hbetween
  exact ⟨List.any_eq_true.mpr ⟨scalar, hscalar, hbetween.1⟩,
    List.any_eq_true.mpr ⟨scalar, hscalar, hbetween.2⟩⟩

/-- One scalar is in a range if it is on the right side of both bounds. -/
theorem any_between_of_length_le_one (h : scalars.length ≤ 1) (lower upper : Scalar) :
    scalars.any (Predicate.between false lower upper).test =
      (scalars.any (Predicate.ordered (· != .lt) lower).test &&
        scalars.any (Predicate.ordered (· != .gt) upper).test) := by
  match scalars, h with
  | [], _ => rfl
  | [scalar], _ => simp only [List.any_cons, List.any_nil, Bool.or_false, test_between]

end Scalars

namespace Schema.Subject

variable {α : Type}

/-- The scalars that a filter on the subject tests: what the function gives on the leaves
of the property's value. -/
def scalars (subject : Schema.Subject α) (item : α) : List Scalar :=
  ((subject.property.value? item).elim [] Value.leaves).filterMap fun leaf =>
    subject.function.elim (some leaf) (·.applyTo? leaf)

theorem length_scalars_le (subject : Schema.Subject α) (item : α) (value : Value)
    (h : subject.property.value? item = some value) :
    (subject.scalars item).length ≤ value.leaves.length := by
  rw [scalars, h]
  exact List.length_filterMap_le _ _

end Schema.Subject

/-- The predicate of a filter on leaves is about leaves. -/
theorem Filter.predicate_ne_null (filter : Filter)
    (habout : filter.operator.isAboutLeaves = true) (target : ValueType) (predicate : Predicate)
    (h : filter.predicate target = .ok predicate) (negated : Bool) :
    predicate ≠ .null negated := by
  have hconcur := filter.concur_resolved_predicate
    (Operator.not_spatial_of_isAboutLeaves habout) target
  rw [h] at hconcur
  generalize filter.operator = operator at habout hconcur
  generalize filter.resolved target = resolved at hconcur
  cases hconcur with
  | ok hmeans =>
      cases hmeans with
      | null | notNull => cases habout
      | ofLeaf hnot => exact hnot negated

theorem Condition.passes_eq_any {α : Type} (condition : Condition α)
    (h : ∀ negated, condition.predicate ≠ .null negated) (subject : Schema.Subject α)
    (hproperty : condition.property = subject.property)
    (hfunction : condition.function = subject.function) (item : α) :
    condition.passes item = (subject.scalars item).any condition.predicate.test := by
  have hvalue (value : Value) : condition.passesValue value =
      value.leaves.any condition.passesLeaf := by
    rw [← passesSome_eq_any]
    unfold passesValue
    split
    · next negated hnull => exact absurd hnull (h negated)
    · rfl
  have hleaf (leaf : Scalar) : condition.passesLeaf leaf =
      (subject.function.elim (some leaf) (·.applyTo? leaf)).any condition.predicate.test := by
    rw [Bool.eq_iff_iff, passesLeaf_iff, hfunction]
    cases subject.function.elim (some leaf) (·.applyTo? leaf) <;> simp
  rw [passes, hproperty, Schema.Subject.scalars]
  cases subject.property.value? item with
  | none => rfl
  | some value =>
      rw [Option.any_some, hvalue, Option.elim_some, List.any_filterMap]
      exact congrArg _ (funext hleaf)

namespace Evaluator

variable {α : Type}

/-- The subject of filters on a reference, which must not be to a resolvable property. -/
def concreteSubject (schema : Schema α) (ref : PropertyRef) :
    Except QueryError (Schema.Subject α) := do
  let subject ← schema.subject ref
  if subject.property.isResolvable then throw (.resolvableProperty subject.property.name)
  else return subject

theorem subject_of_concreteSubject (schema : Schema α) (ref : PropertyRef)
    (subject : Schema.Subject α) (h : concreteSubject schema ref = .ok subject) :
    schema.subject ref = .ok subject := by
  obtain ⟨found, hfound, hrest⟩ := (bind_eq_ok_iff _ _ _).mp h
  split at hrest
  · cases hrest
  · obtain rfl := Except.ok.inj hrest
    exact hfound

/-- Whether the record passes a query of just the filter, or the error at compilation. -/
def verdict (schema : Schema α) (filter : Filter) (item : α) : Except QueryError Bool := do
  let evaluator ← compile schema [filter]
  return evaluator.keeps item

/-- A filter on leaves has a predicate for its subject, and asks for a scalar that
passes it. -/
theorem verdict_eq (schema : Schema α) (filter : Filter)
    (habout : filter.operator.isAboutLeaves = true) (item : α) :
    verdict schema filter item = do
      let subject ← concreteSubject schema filter.property
      let predicate ← filter.predicate subject.type
      return (subject.scalars item).any predicate.test := by
  have hcompile : verdict schema filter item = do
      let condition ← compileFilter schema filter
      return condition.passes item := by
    rw [verdict, compile_single schema filter (Operator.not_spatial_of_isAboutLeaves habout)]
    cases compileFilter schema filter with
    | error e => rfl
    | ok condition => exact congrArg Except.ok (Bool.and_true _)
  rw [hcompile, compileFilter, concreteSubject]
  cases schema.subject filter.property with
  | error e => rfl
  | ok subject =>
      rw [ok_bind, ok_bind]
      split
      · rfl
      · rw [pure_bind]
        cases hpredicate : filter.predicate subject.type with
        | error e => rfl
        | ok predicate =>
            have hnot := filter.predicate_ne_null habout _ _ hpredicate
            exact congrArg Except.ok (Condition.passes_eq_any _ hnot subject rfl rfl item)

section Laws

variable (schema : Schema α) (ref : PropertyRef) (item : α)

/-- An operator that accepts an order beside that of equal scalars passes if the operator
for the order or equality does. -/
theorem verdict_or_equal (v : Literal) {weak strict : Operator}
    {hweak : weak.arity.accepts [v].length = true}
    {hstrict : strict.arity.accepts [v].length = true}
    (hkind : weak.isAboutLeaves = true ∧ strict.isAboutLeaves = true)
    (accepts beyond : Ordering → Bool)
    (haccepts : ∀ order, accepts order = (beyond order || order == .eq))
    (hweakForm : ∀ target, Filter.predicate ⟨weak, ref, [v], hweak⟩ target =
      do return .ordered accepts (← v.resolve target))
    (hstrictForm : ∀ target, Filter.predicate ⟨strict, ref, [v], hstrict⟩ target =
      do return .ordered beyond (← v.resolve target)) :
    verdict schema ⟨weak, ref, [v], hweak⟩ item = do
      let passed ← verdict schema ⟨strict, ref, [v], hstrict⟩ item
      let same ← verdict schema ⟨.equal, ref, [v], rfl⟩ item
      return passed || same := by
  have hequalForm (target : ValueType) : Filter.predicate ⟨.equal, ref, [v], rfl⟩ target =
      do return .equal false (← v.resolve target) := rfl
  rw [verdict_eq _ _ hkind.1, verdict_eq _ _ hkind.2, verdict_eq _ _ rfl]
  cases concreteSubject schema ref with
  | error e => rfl
  | ok subject =>
      simp only [ok_bind, hweakForm, hstrictForm, hequalForm]
      cases v.resolve subject.type with
      | error e => rfl
      | ok bound =>
          exact congrArg Except.ok (any_ordered_or_equal _ accepts beyond haccepts bound)

/-- A list of literals is asked for one by one. -/
theorem verdict_inList (literals : List Literal)
    (h : Operator.inList.arity.accepts literals.length = true) :
    verdict schema ⟨.inList, ref, literals, h⟩ item = do
      let passed ← literals.mapM fun v => verdict schema ⟨.equal, ref, [v], rfl⟩ item
      return passed.any id := by
  obtain ⟨first, rest, rfl⟩ :=
    List.exists_cons_of_ne_nil (Arity.many.operands_of_accepts literals h)
  rw [verdict_eq _ _ rfl]
  simp only [verdict_eq schema ⟨.equal, ref, [_], rfl⟩ rfl item]
  cases concreteSubject schema ref with
  | error e => rfl
  | ok subject =>
      simp only [ok_bind, Filter.predicate, bind_assoc, pure_bind]
      rw [mapM_bind_pure, Literal.resolveEach]
      cases (first :: rest).mapM fun v => v.resolve subject.type with
      | error e => rfl
      | ok candidates =>
          refine congrArg Except.ok ((any_inList _ candidates).trans ?_)
          rw [List.any_map]
          rfl

/-- Between equal bounds there is what is equal to them. -/
theorem verdict_between_self (v : Literal) :
    verdict schema ⟨.between, ref, [v, v], rfl⟩ item =
      verdict schema ⟨.equal, ref, [v], rfl⟩ item := by
  rw [verdict_eq _ _ rfl, verdict_eq _ _ rfl]
  cases concreteSubject schema ref with
  | error e => rfl
  | ok subject =>
      simp only [ok_bind, Filter.predicate]
      cases v.resolve subject.type with
      | error e => rfl
      | ok bound =>
          refine congrArg Except.ok ?_
          exact congrArg _ (funext fun scalar => test_between_self scalar bound)

/-- What is in a range is on the right side of both bounds. -/
theorem concur_between (lower upper : Literal) :
    Concur (fun within both => within = true → both = true)
      (verdict schema ⟨.between, ref, [lower, upper], rfl⟩ item)
      (do
        let above ← verdict schema ⟨.atLeast, ref, [lower], rfl⟩ item
        let below ← verdict schema ⟨.atMost, ref, [upper], rfl⟩ item
        return above && below) := by
  rw [verdict_eq _ _ rfl, verdict_eq _ _ rfl, verdict_eq _ _ rfl]
  cases concreteSubject schema ref with
  | error e => exact .error e
  | ok subject =>
      simp only [ok_bind, Filter.predicate]
      cases lower.resolve subject.type with
      | error e => exact .error e
      | ok a =>
          cases upper.resolve subject.type with
          | error e => exact .error e
          | ok b =>
              refine .ok fun hwithin => ?_
              rw [Bool.and_eq_true]
              exact any_bounds_of_between _ a b hwithin

/-- One scalar is in a range if it is on the right side of both bounds. -/
theorem verdict_between_of_scalars (lower upper : Literal)
    (hone : ∀ subject, concreteSubject schema ref = .ok subject →
      (subject.scalars item).length ≤ 1) :
    verdict schema ⟨.between, ref, [lower, upper], rfl⟩ item = do
      let above ← verdict schema ⟨.atLeast, ref, [lower], rfl⟩ item
      let below ← verdict schema ⟨.atMost, ref, [upper], rfl⟩ item
      return above && below := by
  rw [verdict_eq _ _ rfl, verdict_eq _ _ rfl, verdict_eq _ _ rfl]
  cases hsubject : concreteSubject schema ref with
  | error e => rfl
  | ok subject =>
      simp only [ok_bind, Filter.predicate]
      cases lower.resolve subject.type with
      | error e => rfl
      | ok a =>
          cases upper.resolve subject.type with
          | error e => rfl
          | ok b =>
              exact congrArg Except.ok
                (any_between_of_length_le_one _ (hone subject hsubject) a b)

/-- Operators in terms of others, for every record, also with a function around the
property. A list passes if equality with one of its literals does, and a bound that may
be reached if equality or the strict comparison does. What is in a range passes both
bounds; a value with one leaf is in the range if it passes both. A range from a literal
to itself is equality. In every case one side fails, with an error, just if the other
does. -/
theorem operators_derive :
    (∀ literals h, verdict schema ⟨.inList, ref, literals, h⟩ item = do
        let passed ← literals.mapM fun v => verdict schema ⟨.equal, ref, [v], rfl⟩ item
        return passed.any id) ∧
      (∀ v, verdict schema ⟨.atMost, ref, [v], rfl⟩ item = do
        let less ← verdict schema ⟨.less, ref, [v], rfl⟩ item
        let same ← verdict schema ⟨.equal, ref, [v], rfl⟩ item
        return less || same) ∧
      (∀ v, verdict schema ⟨.atLeast, ref, [v], rfl⟩ item = do
        let greater ← verdict schema ⟨.greater, ref, [v], rfl⟩ item
        let same ← verdict schema ⟨.equal, ref, [v], rfl⟩ item
        return greater || same) ∧
      (∀ lower upper,
        let within := verdict schema ⟨.between, ref, [lower, upper], rfl⟩ item
        let both := do
          let above ← verdict schema ⟨.atLeast, ref, [lower], rfl⟩ item
          let below ← verdict schema ⟨.atMost, ref, [upper], rfl⟩ item
          return above && below
        Concur (fun inside passed => inside = true → passed = true) within both ∧
          ∀ subject value, schema.subject ref = .ok subject →
            subject.property.value? item = some value → value.leaves.length = 1 →
              within = both) ∧
      (∀ v, verdict schema ⟨.between, ref, [v, v], rfl⟩ item =
        verdict schema ⟨.equal, ref, [v], rfl⟩ item) := by
  refine ⟨verdict_inList schema ref item, fun v => ?_, fun v => ?_, fun lower upper => ⟨?_, ?_⟩,
    verdict_between_self schema ref item⟩
  · exact verdict_or_equal schema ref item v ⟨rfl, rfl⟩ (· != .gt) (· == .lt) (by decide)
      (fun _ => rfl) fun _ => rfl
  · exact verdict_or_equal schema ref item v ⟨rfl, rfl⟩ (· != .lt) (· == .gt) (by decide)
      (fun _ => rfl) fun _ => rfl
  · exact concur_between schema ref item lower upper
  · intro subject value hsubject hvalue hone
    refine verdict_between_of_scalars schema ref item lower upper fun found hfound => ?_
    obtain rfl := Except.ok.inj
      ((subject_of_concreteSubject schema ref found hfound).symm.trans hsubject)
    exact hone ▸ found.length_scalars_le item value hvalue

end Laws

/-- A number among others that are undefined, between five and nine when rounded. -/
theorem operators_derive_of_nested :
    let schema : Schema Value := .ofValues "sizes" .integer
    let item : Value := .list [.undefined, .list [.defined (.scalar (.integer 7))]]
    verdict schema ⟨.between, ⟨"round(sizes)"⟩, [.plain "5", .plain "9"], rfl⟩ item = .ok true ∧
      verdict schema ⟨.between, ⟨"round(sizes)"⟩, [.plain "5", .plain "9"], rfl⟩ item = do
        let above ← verdict schema ⟨.atLeast, ⟨"round(sizes)"⟩, [.plain "5"], rfl⟩ item
        let below ← verdict schema ⟨.atMost, ⟨"round(sizes)"⟩, [.plain "9"], rfl⟩ item
        return above && below := by
  intro schema item
  obtain ⟨_, _, _, hbetween, _⟩ := operators_derive schema ⟨"round(sizes)"⟩ item
  exact ⟨rfl, (hbetween (.plain "5") (.plain "9")).2 _ _ rfl rfl rfl⟩

/-- Two leaves on both sides of a range pass its bounds, and none of them is in it. -/
example :
    let schema : Schema Value := .ofValues "sizes" .integer
    let item : Value := .list [.scalar (.integer 1), .scalar (.integer 9)]
    verdict schema ⟨.between, ⟨"sizes"⟩, [.plain "3", .plain "5"], rfl⟩ item = .ok false ∧
      verdict schema ⟨.atLeast, ⟨"sizes"⟩, [.plain "3"], rfl⟩ item = .ok true ∧
      verdict schema ⟨.atMost, ⟨"sizes"⟩, [.plain "5"], rfl⟩ item = .ok true :=
  ⟨rfl, rfl, rfl⟩

end Evaluator

end RecordQuery
