import RecordQuery.Proofs.Query.Passes

/-!
Conjunctions of clauses. A clause is not over before a separator comes, so a
clause that shows up between quotes has a separator between quotes. If no
quoted text of a conjunction has one, every pass reads it exactly, and the
conjunction is parsed to the filters of its clauses.

The condition is only about quoted texts. The separator within a range clause
stands outside quotes and does no harm.
-/

namespace RecordQuery

open Pattern Text

namespace Clause

theorem separator_ne_quote : ∀ c ∈ Query.separator, c ≠ '\'' :=
  forall_mem_of_all _ _ (by decide)

theorem not_hides_separator : ¬Hides Query.separator Query.separator :=
  not_hides_of_forall_ne _ _ separator_ne_quote

theorem not_hides_append (s t : List Char) (hclosed : endsInside false s = false)
    (hs : ¬Hides Query.separator s) (ht : ¬Hides Query.separator t) :
    ¬Hides Query.separator (s ++ t) := by
  intro h
  exact (hides_append _ s t separator_ne_quote hclosed h).elim hs ht

theorem not_hides_tail (elements : List (List Char))
    (hall : ∀ u ∈ elements, Grammar.literal.accepts u = true)
    (h : ∀ u ∈ elements, ¬Hides Query.separator u) :
    ¬Hides Query.separator (tailChars elements) := by
  induction elements with
  | nil => exact not_hides_of_forall_ne _ _ (by simp [tailChars])
  | cons u elements ih =>
      have hclosed := (Grammar.sealed_of_takes_literal u []
        ((accepts_iff _ _).mp (hall u (by simp)))).closed
      have hmore := ih (fun t ht => hall t (by simp [ht])) fun t ht => h t (by simp [ht])
      have hcomma : ¬Hides Query.separator [','] := not_hides_of_forall_ne _ _ (by simp)
      simpa [tailChars] using not_hides_append [','] (u ++ tailChars elements) rfl hcomma
        (not_hides_append u _ hclosed (h u (by simp)) hmore)

/-- A clause hides no separator if none of its operands does. -/
theorem Grammatical.not_hides {clause : Clause} (h : clause.Grammatical)
    (hoperands : ∀ u ∈ clause.operands, ¬Hides Query.separator u) :
    ¬Hides Query.separator clause.chars := by
  cases hs : clause.operator.isSpatial with
  | true =>
      obtain ⟨p, u, rfl, hp, _, hcheck⟩ := h.exists_spatial hs
      exact not_hides_of_forall_ne _ _ (ne_quote_of_spatial p u hp hcheck)
  | false =>
      have hproperty : ¬Hides Query.separator clause.property := by
        refine not_hides_of_forall_ne _ _ fun c hc => isPropertyChar_ne_quote c ?_
        exact Grammar.isPropertyChar_of_takes_property _ [] ((accepts_iff _ _).mp h.property) c hc
      have hsign : ¬Hides Query.separator (sign clause.operator) := by
        refine not_hides_of_forall_ne _ _ (forall_mem_of_all _ _ ?_)
        cases clause.operator <;> decide
      have hall := h.operands
      have htoken := sealed_token clause.operator hs
      have hrest : ¬Hides Query.separator clause.operandChars := by
        cases h.form with
        | single operator p u hs' ha => simpa [operandChars, ha] using hoperands
        | pair operator p u v ha =>
            have hv := not_hides_append Query.separator v (by decide) not_hides_separator
              (hoperands v (by simp))
            have huv := not_hides_append u _ (htoken u (hall u (by simp))).closed
              (hoperands u (by simp)) hv
            simpa [operandChars, ha, Text.join] using huv
        | none operator p ha =>
            simpa [operandChars, ha] using not_hides_of_forall_ne Query.separator [] (by simp)
        | many operator p elements ha hne =>
            have hliteral : ∀ u ∈ elements, Grammar.literal.accepts u = true := by
              simpa [(token_of_arity_ne operator (by simp [ha])).1] using hall
            obtain ⟨u, elements, rfl⟩ := List.exists_cons_of_ne_nil hne
            have htail := not_hides_tail elements (fun t ht => hliteral t (by simp [ht]))
              fun t ht => hoperands t (by simp [ht])
            have hlist := not_hides_append u _ (htoken u (hall u (by simp))).closed
              (hoperands u (by simp)) htail
            have hclosed := (sealed_list (u :: elements) hliteral).closed
            rw [← join_cons] at hlist
            have hclose := not_hides_append _ [')'] hclosed hlist
              (not_hides_of_forall_ne _ _ (by simp))
            have hopen := not_hides_append ['('] _ rfl (not_hides_of_forall_ne _ _ (by simp)) hclose
            simpa [operandChars, ha] using hopen
        | spatial => simp [Operator.isSpatial] at hs
      have hwhole := not_hides_append _ _ (sealed_property _ h.property).closed hproperty
        (not_hides_append _ _ (endsInside_sign _) hsign hrest)
      simpa [chars, hs] using hwhole

/-- A clause with a sign closes its quotes, whatever is the case for polygons. -/
theorem Shaped.closed {clause : Clause} (h : clause.Shaped)
    (hs : clause.operator.isSpatial = false) : endsInside false clause.chars = false :=
  Grammatical.closed ⟨h, fun htrue => absurd htrue (by simp [hs])⟩

end Clause

theorem Text.ne_quote_of_isBlank (c : Char) (h : isBlank c = true) : c ≠ '\'' := by
  rintro rfl
  exact absurd h (by decide)

theorem Item.Proper.closed {item : Item} (h : item.Proper) :
    endsInside false item.chars = false := by
  cases item with
  | blank c => simp [Item.chars, endsInside, ne_quote_of_isBlank c h]
  | written clause =>
      rw [Item.chars, endsInside_append, Clause.Grammatical.closed h, Clause.endsInside_separator]

namespace Layout

theorem endsInside_text (layout : Layout) (hproper : layout.Proper) :
    endsInside false layout.text = false := by
  induction layout with
  | nil => rfl
  | cons item layout ih =>
      rw [text_cons, endsInside_append, (hproper item (by simp)).closed]
      exact ih fun i hi => hproper i (by simp [hi])

theorem not_hides_text (layout : Layout) (hproper : layout.Proper)
    (h : ∀ clause ∈ layout.clauses, ¬Hides Query.separator clause.chars) :
    ¬Hides Query.separator layout.text := by
  induction layout with
  | nil => exact not_hides_of_forall_ne _ _ (by simp)
  | cons item layout ih =>
      have hitem := hproper item (by simp)
      rw [text_cons]
      refine Clause.not_hides_append _ _ hitem.closed ?_
        (ih (fun i hi => hproper i (by simp [hi])) fun c hc => h c ?_)
      · cases item with
        | blank c =>
            refine not_hides_of_forall_ne _ _ ?_
            simpa [Item.chars] using ne_quote_of_isBlank c hitem
        | written clause =>
            exact Clause.not_hides_append _ _ (Clause.Grammatical.closed hitem) (h clause (by simp))
              Clause.not_hides_separator
      · rw [mem_clauses] at hc ⊢
        simp [hc]

/-- What shows between quotes has a separator between quotes. -/
theorem hides_of_shows (operator : Operator) (hs : operator.isSpatial = false) (layout : Layout)
    (hproper : layout.Proper) (h : layout.Shows operator) :
    Hides Query.separator layout.text := by
  obtain ⟨first, clause, later, before, after, rfl, _, hsplit, hinside, hmatch⟩ := h
  obtain ⟨⟨parts, rest⟩, hfound⟩ := Option.isSome_iff_exists.mp hmatch
  have hfits := Template.fits_of_match? _ (Clause.clause_bounded operator) _ _ _ hfound
  obtain ⟨clause', rfl, hshaped, heq, _⟩ := (Clause.fits_iff _ _ _ _).mp hfits
  refine ⟨text first ++ (before ++ clause'.chars), rest, ?_, ?_⟩
  · have hitem : Item.chars (.written clause) = before ++ after := hsplit
    rw [text_append, text_cons, hitem, List.append_assoc, heq]
    simp
  · have hfirst := endsInside_text first fun i hi => hproper i (by simp [hi])
    rw [endsInside_append, hfirst, endsInside_append, hinside]
    simpa [hshaped.closed hs] using endsInside_not false clause'.chars

theorem not_conceals_of_not_hides (operators : List Operator) (layout : Layout)
    (hoperators : operators <:+ Operator.all) (hproper : layout.Proper)
    (hclauses : ∀ clause ∈ layout.clauses, clause.operator ∈ operators)
    (h : ∀ clause ∈ layout.clauses, ¬Hides Query.separator clause.chars) :
    ¬layout.Conceals operators := by
  induction operators generalizing layout with
  | nil => simp [Conceals]
  | cons operator operators ih =>
      rw [Conceals, not_or]
      constructor
      · intro hshows
        cases hs : operator.isSpatial with
        | false =>
            exact not_hides_text layout hproper h (hides_of_shows operator hs layout hproper hshows)
        | true =>
            obtain ⟨first, clause, later, _, _, rfl, hop, _⟩ := hshows
            have hmem := hclauses clause (by simp)
            rw [eq_nil_of_spatial operator operators hoperators hs] at hmem
            exact hop (List.mem_singleton.mp hmem)
      · refine ih (layout.without operator) ((List.suffix_cons operator operators).trans hoperators)
          (hproper.without operator) ?_ ?_
        · intro clause hclause
          rw [clauses_without, List.mem_filter] at hclause
          simpa [of_decide_eq_true hclause.2] using hclauses clause hclause.1
        · intro clause hclause
          rw [clauses_without, List.mem_filter] at hclause
          exact h clause hclause.1

end Layout

namespace Clause

/-- A clause as the query language is documented: an attribute, as many operands
as the operator takes, and each of them a quoted text for a pattern operator, a
checked polygon on one line for the spatial one, and any literal otherwise. -/
structure Documented (clause : Clause) : Prop where
  property : Grammar.property.accepts clause.property = true
  count : clause.operator.arity.accepts clause.operands.length = true
  text : clause.operator.isPattern = true →
    ∀ u ∈ clause.operands, Grammar.string.accepts u = true
  polygon : clause.operator.isSpatial = true →
    ∀ u ∈ clause.operands, (∀ c ∈ u, Grammar.isInline c = true) ∧ Polygon.check u = .ok ()
  literal : clause.operator.isPattern = false → clause.operator.isSpatial = false →
    ∀ u ∈ clause.operands, Grammar.literal.accepts u = true

theorem Documented.grammatical {clause : Clause} (h : clause.Documented) :
    clause.Grammatical := by
  refine ⟨⟨h.property, h.count, ?_⟩, fun hs u hu => (h.polygon hs u hu).2⟩
  intro u hu
  unfold token
  split
  · next hp => exact h.text hp u hu
  · next hp =>
    split
    · next hs => exact Polygon.accepts_of_check u (h.polygon hs u hu).2 (h.polygon hs u hu).1
    · next hs => exact h.literal (by simpa using hp) (by simpa using hs) u hu

end Clause

namespace Query

open Layout

/-- Every conjunction of documented clauses without a separator between quotes
is parsed to the filters of its clauses, one for each, by operator and in
textual order for one operator. -/
theorem parse_conjunction (clauses : List Clause) (hne : clauses ≠ [])
    (hclauses : ∀ clause ∈ clauses, clause.Documented)
    (hquoted : ∀ clause ∈ clauses, ∀ u ∈ clause.operands, ¬Hides separator u) :
    ∃ filters, clauses.mapM Clause.read = .ok filters ∧
      parse (.ofList (Text.join separator (clauses.map Clause.chars))) =
        .ok (byOperator Filter.operator Operator.all filters) := by
  have hgrammatical := fun clause hclause => (hclauses clause hclause).grammatical
  have hproper := proper_ofClauses clauses hgrammatical
  have hconceals : ¬(ofClauses clauses).Conceals Operator.all := by
    refine not_conceals_of_not_hides _ _ (List.suffix_refl _) hproper
      (fun clause _ => Operator.mem_all _) ?_
    intro clause hclause
    rw [clauses_ofClauses] at hclause
    exact (hgrammatical clause hclause).not_hides (hquoted clause hclause)
  have hreads := (readsExactly_iff Operator.all _ (List.suffix_refl _) hproper
    fun clause _ => Operator.mem_all _).mpr hconceals
  obtain ⟨filters, hfilters, hparse⟩ :=
    parseChars_of_readsExactly _ _ (text_ofClauses clauses hne) hproper hreads
  rw [clauses_ofClauses] at hfilters
  refine ⟨filters, hfilters, ?_⟩
  rw [parse, String.toList_ofList, hparse]

/-- A pattern, a range and a comparison, which come out the other way round. -/
theorem parse_conjunction_of_three :
    let clauses : List Clause :=
      [⟨.like, "name".toList, ["'A % AND'".toList]⟩,
        ⟨.between, "year".toList, ["1990".toList, "1999+1".toList]⟩,
        ⟨.equal, "round(size)".toList, ["'it''s'".toList]⟩]
    ∃ filters, clauses.mapM Clause.read = .ok filters ∧
      parse (.ofList (Text.join separator (clauses.map Clause.chars))) =
        .ok (byOperator Filter.operator Operator.all filters) := by
  intro clauses
  have hquoted : ∀ clause ∈ clauses, ∀ u ∈ clause.operands, ¬separator <:+: u := by
    decide +kernel
  refine parse_conjunction clauses (by simp [clauses]) ?_
    fun clause hclause u hu => not_hides_of_not_infix _ _ (hquoted clause hclause u hu)
  intro clause hclause
  simp only [clauses, List.mem_cons, List.not_mem_nil, or_false] at hclause
  rcases hclause with rfl | rfl | rfl
  all_goals
    exact ⟨by decide +kernel, by decide, by decide +kernel, fun h => absurd h (by decide),
      by decide +kernel⟩

end Query

end RecordQuery
