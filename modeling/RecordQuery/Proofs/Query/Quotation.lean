import RecordQuery.Proofs.Literal.Quoted
import RecordQuery.Proofs.Query.Conjunction

/-!
Quoted texts of a query. A quoted text stands for an operand, or for one side
of an arithmetic operand, and is read as that text whatever it is. So when the
text is replaced by another one nothing but this literal changes, as long as
no pass finds a clause between the quotes of the query.
-/

namespace RecordQuery

open Pattern Text

/-- A clause with a place left free for a quoted text. -/
structure Slot where
  operator : Operator
  property : List Char
  /-- The operands before the one with the place. -/
  first : List (List Char)
  place : Place
  later : List (List Char)
  property_accepts : Grammar.property.accepts property = true
  count : operator.arity.accepts (first.length + (later.length + 1)) = true
  operands : ∀ u ∈ first ++ later, (Clause.token operator).accepts u = true
  /-- A polygon is not quoted. -/
  not_spatial : operator.isSpatial = false
  /-- A pattern is quoted as a whole. -/
  whole : operator.isPattern = true → place = .whole

namespace Slot

/-- The clause with this text between the quotes. -/
def clause (slot : Slot) (v : List Char) : Clause :=
  ⟨slot.operator, slot.property, slot.first ++ slot.place.token v :: slot.later⟩

theorem grammatical (slot : Slot) (v : List Char) : (slot.clause v).Grammatical := by
  refine ⟨⟨slot.property_accepts, ?_, ?_⟩, fun hs => ?_⟩
  · simpa [clause] using slot.count
  · intro u hu
    simp only [clause, List.mem_append, List.mem_cons] at hu
    have hother := slot.operands u
    rcases hu with hu | rfl | hu
    · exact hother (by simp [hu])
    · by_cases hp : slot.operator.isPattern = true
      · rw [slot.whole hp, clause, Clause.token, if_pos hp]
        exact (Grammar.string_accepts_iff _).mpr ⟨v, rfl⟩
      · rw [clause, Clause.token, if_neg hp, if_neg (by simp [slot.not_spatial])]
        exact slot.place.accepts_token v
    · exact hother (by simp [hu])
  · simp [clause, slot.not_spatial] at hs

/-- Every quoted text of a clause of the grammar stands in a slot. -/
theorem exists_slot (clause : Clause) (h : clause.Grammatical) (first later : List (List Char))
    (u : List Char) (hoperands : clause.operands = first ++ u :: later) (hquote : '\'' ∈ u) :
    ∃ (slot : Slot) (v : List Char), slot.clause v = clause ∧ slot.first = first := by
  obtain ⟨operator, p, operands⟩ := clause
  subst hoperands
  have hs : operator.isSpatial = false := by
    cases hs : operator.isSpatial with
    | false => rfl
    | true =>
        obtain ⟨p', u', hclause, hp, _, hcheck⟩ := h.exists_spatial hs
        have hsame : first ++ u :: later = [u'] := congrArg Clause.operands hclause
        have hmem : u ∈ [u'] := by
          rw [← hsame]
          simp
        obtain rfl := List.mem_singleton.mp hmem
        have hne := Clause.ne_quote_of_spatial p' u hp hcheck
        exact absurd rfl (hne '\'' (by simp [Clause.chars, Operator.isSpatial, hquote]))
  have hu := h.operands u (by simp)
  obtain ⟨place, v, rfl, hwhole⟩ : ∃ (place : Place) (v : List Char), u = place.token v ∧
      (operator.isPattern = true → place = .whole) := by
    by_cases hp : operator.isPattern = true
    · rw [Clause.token, if_pos hp] at hu
      obtain ⟨v, rfl⟩ := (Grammar.string_accepts_iff u).mp hu
      exact ⟨.whole, v, rfl, fun _ => rfl⟩
    · rw [Clause.token, if_neg hp, if_neg (by simp [hs])] at hu
      obtain ⟨place, v, rfl⟩ := Place.exists_place u hu hquote
      exact ⟨place, v, rfl, fun htrue => absurd htrue hp⟩
  refine ⟨⟨operator, p, first, place, later, h.property, ?_, ?_, hs, hwhole⟩, v, rfl, rfl⟩
  · simpa using h.count
  · intro t ht
    have ht : t ∈ first ++ place.token v :: later := by
      rcases List.mem_append.mp ht with ht | ht <;> simp [ht]
    exact h.operands t ht

theorem readOperand_token (slot : Slot) (v : List Char) :
    Clause.readOperand slot.operator (slot.place.token v) = slot.place.literal v := by
  unfold Clause.readOperand
  split
  · next hp =>
    rw [slot.whole hp]
    simp [Place.token, Place.literal, unquote_quote]
  · simp [slot.not_spatial, Place.classifyChars_token]

/-- The filter of the clause has the literal of the text in one place, and
everything else in it does not depend on the text. -/
theorem exists_filter (slot : Slot) :
    ∃ (first later : List Literal) (literal : List Char → Literal) (filter : List Char → Filter),
      (∀ v, slot.place.literal v = .ok (literal v)) ∧
      ∀ v, (slot.clause v).read = .ok (filter v) ∧ (filter v).operator = slot.operator ∧
        (filter v).property = ⟨.ofList slot.property⟩ ∧
        (filter v).operands = first ++ literal v :: later := by
  obtain ⟨literal, hliteral⟩ := slot.place.exists_literal
  have hread := Clause.readOperand_isOk (slot.clause []) (slot.grammatical [])
  obtain ⟨first, hfirst⟩ := exists_mapM_eq_ok (Clause.readOperand slot.operator) slot.first
    fun u hu => hread u (by simp [clause, hu])
  obtain ⟨later, hlater⟩ := exists_mapM_eq_ok (Clause.readOperand slot.operator) slot.later
    fun u hu => hread u (by simp [clause, hu])
  rw [mapM_eq_ok_iff] at hfirst hlater
  have hfits : ∀ v,
      slot.operator.arity.accepts (first ++ literal v :: later).length = true := by
    intro v
    have hlength := congrArg List.length hfirst
    have hlength' := congrArg List.length hlater
    simp only [List.length_map] at hlength hlength'
    simpa [← hlength, ← hlength'] using slot.count
  refine ⟨first, later, literal, fun v => ⟨slot.operator, ⟨.ofList slot.property⟩, _, hfits v⟩,
    hliteral, fun v => ⟨?_, rfl, rfl, rfl⟩⟩
  refine (Clause.read_eq_ok_iff _ _).mpr ⟨rfl, rfl, (mapM_eq_ok_iff _ _ _).mpr ?_⟩
  have htoken := (slot.readOperand_token v).trans (hliteral v)
  simp [clause, hfirst, hlater, htoken]

end Slot

namespace Query

open Layout

/-- The conjunction of the clauses as a text. -/
def conjunction (clauses : List Clause) : String :=
  .ofList (Text.join separator (clauses.map Clause.chars))

/-- Quoted text is opaque just where it conceals no clause. With every text in
its place, the passes find the clauses of the conjunction and nothing else if
and only if no clause of an operator shows up between quotes in what is left
for the pass of the operator. The texts for which this is so give filters that
differ in the one literal only. The condition is about the passes, as filters
may come out the same by chance where clauses do not. -/
theorem quoted_text_opaque_iff (before after : List Clause) (slot : Slot)
    (hbefore : ∀ clause ∈ before, clause.Grammatical)
    (hafter : ∀ clause ∈ after, clause.Grammatical) :
    ∃ (earlier later : List Filter) (first last : List Literal) (literal : List Char → Literal)
      (filled : List Char → Filter),
      (∀ v, slot.place.literal v = .ok (literal v) ∧ (filled v).operator = slot.operator ∧
        (filled v).property = ⟨.ofList slot.property⟩ ∧
        (filled v).operands = first ++ literal v :: last) ∧
      ∀ v, let clauses := before ++ slot.clause v :: after
        (ReadsExactly Operator.all (ofClauses clauses) ↔
          ¬Conceals Operator.all (ofClauses clauses)) ∧
        (¬Conceals Operator.all (ofClauses clauses) →
          parse (conjunction clauses) =
            .ok (byOperator Filter.operator Operator.all (earlier ++ filled v :: later))) := by
  obtain ⟨first, last, literal, filled, hliteral, hfilled⟩ := slot.exists_filter
  obtain ⟨earlier, hearlier⟩ := exists_mapM_eq_ok Clause.read before
    fun clause hclause => (hbefore clause hclause).read_isOk
  obtain ⟨later, hlater⟩ := exists_mapM_eq_ok Clause.read after
    fun clause hclause => (hafter clause hclause).read_isOk
  refine ⟨earlier, later, first, last, literal, filled, fun v => ⟨hliteral v, (hfilled v).2⟩, ?_⟩
  intro v clauses
  have hgrammatical : ∀ clause ∈ clauses, clause.Grammatical := by
    intro clause hclause
    simp only [clauses, List.mem_append, List.mem_cons] at hclause
    rcases hclause with hclause | rfl | hclause
    · exact hbefore clause hclause
    · exact slot.grammatical v
    · exact hafter clause hclause
  have hproper := proper_ofClauses clauses hgrammatical
  have hexact := readsExactly_iff Operator.all _ (List.suffix_refl _) hproper
    fun clause _ => Operator.mem_all _
  refine ⟨hexact, fun hconceals => ?_⟩
  obtain ⟨filters, hfilters, hparse⟩ := parseChars_of_readsExactly _ _
    (text_ofClauses clauses (by simp [clauses])) hproper (hexact.mpr hconceals)
  have hsame : clauses.mapM Clause.read = .ok (earlier ++ filled v :: later) := by
    rw [mapM_eq_ok_iff] at hearlier hlater ⊢
    simp [clauses, hearlier, hlater, (hfilled v).1]
  rw [clauses_ofClauses, hsame, Except.ok.injEq] at hfilters
  rw [conjunction, parse, String.toList_ofList, hparse, hfilters]

-- By chance: the comparison that is found begins between the quotes of the pattern.
example : (parse "a LIKE 'c=' AND c=' AND c='").toOption =
    some [⟨.equal, ⟨"c"⟩, [.plain " AND c="], rfl⟩, ⟨.like, ⟨"a"⟩, [.plain "c="], rfl⟩] := by
  decide +kernel

/-- A pattern is opaque while it conceals nothing. -/
theorem quoted_text_opaque_iff_of_pattern :
    ∃ slot : Slot, slot.clause "z".toList = ⟨.like, "a".toList, ["'z'".toList]⟩ ∧
      ∃ (earlier later : List Filter) (first last : List Literal) (literal : List Char → Literal)
        (filled : List Char → Filter),
        (∀ v, slot.place.literal v = .ok (literal v) ∧ (filled v).operator = slot.operator ∧
          (filled v).property = ⟨.ofList slot.property⟩ ∧
          (filled v).operands = first ++ literal v :: last) ∧
        ∀ v, let clauses := [] ++ slot.clause v :: []
          (ReadsExactly Operator.all (ofClauses clauses) ↔
            ¬Conceals Operator.all (ofClauses clauses)) ∧
          (¬Conceals Operator.all (ofClauses clauses) →
            parse (conjunction clauses) =
              .ok (byOperator Filter.operator Operator.all (earlier ++ filled v :: later))) :=
  ⟨⟨.like, "a".toList, [], .whole, [], by decide +kernel, by decide, by simp, rfl, fun _ => rfl⟩,
    rfl, quoted_text_opaque_iff [] [] _ (by simp) (by simp)⟩

/-- A pattern that conceals a comparison: the comparison is read, and the
pattern without it. -/
theorem concealed_comparison_is_read :
    (parse "a LIKE 'z'").toOption = some [⟨.like, ⟨"a"⟩, [.plain "z"], rfl⟩] ∧
      (parse "a LIKE 'x=1 AND y'").toOption =
        some [⟨.equal, ⟨"x"⟩, [.plain "1"], rfl⟩, ⟨.like, ⟨"a"⟩, [.plain "y"], rfl⟩] := by
  decide +kernel

end Query

end RecordQuery
