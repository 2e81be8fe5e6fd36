import RecordQuery.Evaluator
import RecordQuery.Proofs.Outcome

/-!
Queries as conjunctions. Every filter of a query is compiled by itself. It adds one
condition, or none if it is spatial, and the first error is the error of the query.
So two queries one behind the other are compiled if each of them is, and what the
whole keeps is what the second one keeps of the records that the first one kept.

The order of the filters has a say only in which error is reported.
-/

namespace RecordQuery.Evaluator

variable {α : Type}

/-- The query can be compiled for records with the schema. -/
def Compiles (schema : Schema α) (query : Query) : Prop :=
  ∃ evaluator, compile schema query = .ok evaluator

/-- Whether the filter is spatial and passes the check of its property, so that nothing
of it is left to be tested on records. -/
def isLeftToStore (schema : Schema α) (filter : Filter) : Bool :=
  filter.operator.isSpatial && (schema.checkGeometry filter.property).toBool

/-! Conditions of several filters. -/

/-- Filters one behind the other give their conditions one behind the other, or the
first error in them. -/
theorem compileAll_append (schema : Schema α) (first second : List Filter) :
    compileAll schema (first ++ second) = do
      let conditions ← compileAll schema first
      let others ← compileAll schema second
      return conditions ++ others := by
  induction first with
  | nil => simp [compileAll, ok_bind]
  | cons filter rest ih =>
      rw [List.cons_append, compileAll, compileAll, ih]
      cases filter.operator.isSpatial with
      | true => simp only [if_true, bind_assoc]
      | false =>
          simp only [Bool.false_eq_true, if_false, bind_assoc, pure_bind, List.cons_append]

theorem compileAll_append_eq_ok_iff (schema : Schema α) (first second : List Filter)
    (conditions : List (Condition α)) :
    compileAll schema (first ++ second) = .ok conditions ↔
      ∃ a b, compileAll schema first = .ok a ∧ compileAll schema second = .ok b ∧
        conditions = a ++ b := by
  rw [compileAll_append, bind_eq_ok_iff]
  refine exists_congr fun a => ?_
  rw [bind_eq_ok_iff, ← exists_and_left]
  refine exists_congr fun b => and_congr_right fun _ => and_congr_right fun _ => ?_
  exact ⟨fun h => (Except.ok.inj h).symm, fun h => congrArg Except.ok h.symm⟩

/-- Filters in another order give the same conditions in another order. -/
theorem exists_compileAll_of_perm (schema : Schema α) {filters permuted : List Filter}
    (hperm : filters.Perm permuted) (conditions : List (Condition α))
    (h : compileAll schema filters = .ok conditions) :
    ∃ others, compileAll schema permuted = .ok others ∧ conditions.Perm others := by
  induction hperm generalizing conditions with
  | nil => exact ⟨conditions, h, .refl _⟩
  | cons filter _ ih =>
      obtain ⟨a, b, ha, hb, rfl⟩ := (compileAll_append_eq_ok_iff schema [filter] _ _).mp h
      obtain ⟨b', hb', hperm⟩ := ih b hb
      exact ⟨a ++ b', (compileAll_append_eq_ok_iff schema [filter] _ _).mpr ⟨a, b', ha, hb', rfl⟩,
        hperm.append_left a⟩
  | swap x y rest =>
      obtain ⟨b, c, hb, hc, rfl⟩ := (compileAll_append_eq_ok_iff schema [y] (x :: rest) _).mp h
      obtain ⟨a, d, ha, hd, rfl⟩ := (compileAll_append_eq_ok_iff schema [x] rest _).mp hc
      have hrest := (compileAll_append_eq_ok_iff schema [y] rest _).mpr ⟨b, d, hb, hd, rfl⟩
      refine ⟨a ++ (b ++ d),
        (compileAll_append_eq_ok_iff schema [x] (y :: rest) _).mpr ⟨a, b ++ d, ha, hrest, rfl⟩, ?_⟩
      rw [← List.append_assoc, ← List.append_assoc]
      exact List.perm_append_comm.append_right d
  | trans _ _ ih ih' =>
      obtain ⟨middle, hmiddle, hfirst⟩ := ih conditions h
      obtain ⟨others, hothers, hsecond⟩ := ih' middle hmiddle
      exact ⟨others, hothers, hfirst.trans hsecond⟩

/-- Filters that are left to the store give neither conditions nor errors. -/
theorem compileAll_filter_isLeftToStore (schema : Schema α) (filters : List Filter) :
    compileAll schema (filters.filter fun filter => !isLeftToStore schema filter) =
      compileAll schema filters := by
  induction filters with
  | nil => rfl
  | cons filter rest ih =>
      cases hleft : isLeftToStore schema filter with
      | true =>
          obtain ⟨hspatial, hgeometry⟩ := (Bool.and_eq_true _ _).mp hleft
          cases hcheck : schema.checkGeometry filter.property with
          | error e => simp [hcheck, Except.toBool] at hgeometry
          | ok _ => simp [hleft, ih, compileAll, hspatial, hcheck, ok_bind]
      | false =>
          rw [List.filter_cons_of_pos (by simp [hleft]), compileAll, compileAll, ih]

/-! Evaluators with several conditions. -/

theorem compile_eq_ok_iff (schema : Schema α) (query : Query) (evaluator : Evaluator α) :
    compile schema query = .ok evaluator ↔
      compileAll schema query = .ok evaluator.conditions := by
  rw [compile, bind_eq_ok_iff]
  constructor
  · rintro ⟨conditions, h, hevaluator⟩
    obtain rfl := Except.ok.inj hevaluator
    exact h
  · intro h
    exact ⟨evaluator.conditions, h, rfl⟩

theorem compiles_iff (schema : Schema α) (query : Query) :
    Compiles schema query ↔ ∃ conditions, compileAll schema query = .ok conditions := by
  constructor
  · rintro ⟨evaluator, h⟩
    exact ⟨evaluator.conditions, (compile_eq_ok_iff schema query evaluator).mp h⟩
  · rintro ⟨conditions, h⟩
    exact ⟨⟨conditions⟩, (compile_eq_ok_iff schema query ⟨conditions⟩).mpr h⟩

/-- All of some conditions are tested by testing the first of them and then the others. -/
theorem apply_append (first second : List (Condition α)) (items : List α) :
    apply ⟨first ++ second⟩ items = apply ⟨second⟩ (apply ⟨first⟩ items) := by
  unfold apply
  rw [List.filter_filter]
  refine List.filter_congr fun item _ => ?_
  simp only [keeps, List.all_append, Bool.and_comm]

theorem apply_of_perm {conditions others : List (Condition α)} (hperm : conditions.Perm others)
    (items : List α) : apply ⟨others⟩ items = apply ⟨conditions⟩ items :=
  List.filter_congr fun _ _ => hperm.symm.all_eq

/-- What was kept is kept again. -/
theorem apply_apply (evaluator : Evaluator α) (items : List α) :
    evaluator.apply (evaluator.apply items) = evaluator.apply items :=
  List.filter_eq_self.mpr fun _ hitem => (List.mem_filter.mp hitem).2

section Compile

variable (schema : Schema α) (first second : Query)

theorem compiles_append_iff :
    Compiles schema (first ++ second) ↔ Compiles schema first ∧ Compiles schema second := by
  simp only [compiles_iff, compileAll_append_eq_ok_iff]
  constructor
  · rintro ⟨_, a, b, ha, hb, _⟩
    exact ⟨⟨a, ha⟩, b, hb⟩
  · rintro ⟨⟨a, ha⟩, b, hb⟩
    exact ⟨a ++ b, a, b, ha, hb, rfl⟩

/-- Two queries at once keep what the second keeps of the records that the first keeps. -/
theorem apply_compile_append {a b whole : Evaluator α} (ha : compile schema first = .ok a)
    (hb : compile schema second = .ok b) (hwhole : compile schema (first ++ second) = .ok whole)
    (items : List α) : whole.apply items = b.apply (a.apply items) := by
  rw [compile_eq_ok_iff] at ha hb hwhole
  obtain ⟨a', b', ha', hb', hconditions⟩ := (compileAll_append_eq_ok_iff _ _ _ _).mp hwhole
  obtain rfl := Except.ok.inj (ha'.symm.trans ha)
  obtain rfl := Except.ok.inj (hb'.symm.trans hb)
  rw [← apply_append, ← hconditions]

variable {schema first second}

theorem Compiles.of_perm (hperm : first.Perm second) (h : Compiles schema first) :
    Compiles schema second := by
  obtain ⟨conditions, hconditions⟩ := (compiles_iff schema first).mp h
  obtain ⟨others, hothers, _⟩ := exists_compileAll_of_perm schema hperm conditions hconditions
  exact (compiles_iff schema second).mpr ⟨others, hothers⟩

theorem apply_compile_of_perm (hperm : first.Perm second) {a b : Evaluator α}
    (ha : compile schema first = .ok a) (hb : compile schema second = .ok b) (items : List α) :
    b.apply items = a.apply items := by
  rw [compile_eq_ok_iff] at ha hb
  obtain ⟨others, hothers, hconditions⟩ := exists_compileAll_of_perm schema hperm _ ha
  obtain rfl := Except.ok.inj (hothers.symm.trans hb)
  exact apply_of_perm hconditions items

theorem compile_eq_of_filter_eq
    (h : (second.filter fun filter => !isLeftToStore schema filter) =
      first.filter fun filter => !isLeftToStore schema filter) :
    compile schema second = compile schema first := by
  rw [compile, compile, ← compileAll_filter_isLeftToStore schema second, h,
    compileAll_filter_isLeftToStore]

end Compile

/-- Filters are conjunctive. Two queries one behind the other are compiled if and only if
each of them is, and the whole then keeps of any records what the second keeps of those
that the first keeps. In another order the filters of a query are compiled if and only if
they were, and the same records are kept. Queries that differ in nothing but filters that
are left to the store are compiled alike. And what a query has kept it keeps. -/
theorem query_is_conjunction (schema : Schema α) (first second : Query) :
    (Compiles schema (first ++ second) ↔ Compiles schema first ∧ Compiles schema second) ∧
      (∀ a b whole, compile schema first = .ok a → compile schema second = .ok b →
        compile schema (first ++ second) = .ok whole →
        ∀ items, whole.apply items = b.apply (a.apply items)) ∧
      (∀ permuted, first.Perm permuted →
        (Compiles schema permuted ↔ Compiles schema first) ∧
          ∀ a b, compile schema first = .ok a → compile schema permuted = .ok b →
            ∀ items, b.apply items = a.apply items) ∧
      (∀ other, (other.filter fun filter => !isLeftToStore schema filter) =
          (first.filter fun filter => !isLeftToStore schema filter) →
        compile schema other = compile schema first) ∧
      ∀ evaluator, compile schema first = .ok evaluator → ∀ items,
        evaluator.apply (evaluator.apply items) = evaluator.apply items := by
  refine ⟨compiles_append_iff schema first second, ?_, ?_, ?_, ?_⟩
  · intro a b whole ha hb hwhole
    exact apply_compile_append schema first second ha hb hwhole
  · intro permuted hperm
    refine ⟨⟨Compiles.of_perm hperm.symm, Compiles.of_perm hperm⟩, fun a b ha hb => ?_⟩
    exact apply_compile_of_perm hperm ha hb
  · intro other hsame
    exact compile_eq_of_filter_eq hsame
  · intro evaluator _
    exact apply_apply evaluator

/-- Numbers from two to four, in one query and in two, with the bounds in either order,
with and without a spatial filter. -/
theorem query_is_conjunction_of_bounds :
    let schema : Schema Int64 := .ofProperties
      [⟨"size", .integer, .concrete fun n => .scalar (.integer n)⟩,
        ⟨"place", .geometry, .concrete fun _ => .undefined⟩]
    let lower : Query := [⟨.atLeast, ⟨"size"⟩, [.plain "2"], rfl⟩]
    let upper : Query := [⟨.intersects, ⟨"place"⟩, [.plain "POLYGON((0 0,1 1,0 0))"], rfl⟩,
      ⟨.less, ⟨"size"⟩, [.plain "5"], rfl⟩]
    let items : List Int64 := [5, 4, 1, 3, 2]
    Compiles schema (lower ++ upper) ∧
      ∃ a b whole permuted, compile schema lower = .ok a ∧ compile schema upper = .ok b ∧
        compile schema (lower ++ upper) = .ok whole ∧
        compile schema (upper ++ lower) = .ok permuted ∧
        whole.apply items = [4, 3, 2] ∧ whole.apply items = b.apply (a.apply items) ∧
        permuted.apply items = whole.apply items ∧
        whole.apply (whole.apply items) = whole.apply items ∧
        compile schema upper.tail = compile schema upper := by
  intro schema lower upper items
  have hlower : compile schema lower = .ok _ := rfl
  have hupper : compile schema upper = .ok _ := rfl
  have hwhole : compile schema (lower ++ upper) = .ok _ := rfl
  have hother : compile schema (upper ++ lower) = .ok _ := rfl
  obtain ⟨hcompiles, hnarrows, _⟩ := query_is_conjunction schema lower upper
  obtain ⟨_, _, hpermuted, _, hkept⟩ := query_is_conjunction schema (lower ++ upper) []
  obtain ⟨_, _, _, hspatial, _⟩ := query_is_conjunction schema upper []
  exact ⟨hcompiles.mpr ⟨⟨_, hlower⟩, _, hupper⟩, _, _, _, _, hlower, hupper, hwhole, hother, rfl,
    hnarrows _ _ _ hlower hupper hwhole items,
    (hpermuted _ List.perm_append_comm).2 _ _ hwhole hother items, hkept _ hwhole items,
    hspatial _ rfl⟩

end RecordQuery.Evaluator
