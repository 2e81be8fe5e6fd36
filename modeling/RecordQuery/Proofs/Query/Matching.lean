import RecordQuery.Proofs.Query.Clause

/-!
The match at the start of a clause. Where a text begins with a grammatical
clause and the separator, the template of its operator matches this clause and
nothing else. For most operators the clause is the only one that the text can
begin with: the property ends where the sign begins, and an operand at the
first blank outside quotes. A polygon may also be taken to be longer, so there
the order of the ends decides: the match is the shortest.
-/

namespace RecordQuery.Clause

open Pattern Text

theorem clause_bounded (operator : Operator) : (Query.clause operator).Bounded := by
  cases operator <;>
    simp [Template.Bounded, Query.clause, Pattern.text, Bounded, Grammar.property_bounded,
      Grammar.literal_bounded, Grammar.string_bounded, Grammar.polygon_bounded]

/-- A template of a clause matches no empty text, since the separator belongs to it. -/
theorem clause_consuming (operator : Operator) : (Query.clause operator).Consuming := by
  intro s parts rest hfits hrest
  obtain ⟨clause, _, _, rfl, _⟩ := (fits_iff operator s rest parts).mp hfits
  have := congrArg List.length hrest
  simp [Query.separator] at this
  omega

/-! Where a property and an operand end. -/

theorem sealed_property (p : List Char) (hp : Grammar.property.accepts p = true) :
    Sealed Grammar.isPropertyChar p :=
  .of_forall fun c hc => by
    have := Grammar.isPropertyChar_of_takes_property p [] ((accepts_iff _ _).mp hp) c hc
    refine ⟨this, ?_⟩
    rintro rfl
    exact absurd this (by decide)

theorem sealed_token (operator : Operator) (hs : operator.isSpatial = false) (u : List Char)
    (hu : (token operator).accepts u = true) : Sealed Grammar.isLiteralChar u := by
  unfold token at hu
  split at hu
  · obtain ⟨v, rfl⟩ := (Grammar.string_accepts_iff u).mp hu
    exact sealed_quote _ v
  · rw [if_neg (by simp [hs])] at hu
    exact Grammar.sealed_of_takes_literal u [] ((accepts_iff _ _).mp hu)

/-- A character of a list of literals outside quotes. -/
def isListChar (c : Char) : Bool :=
  Grammar.isLiteralChar c || c == ','

theorem sealed_list (elements : List (List Char))
    (h : ∀ u ∈ elements, Grammar.literal.accepts u = true) :
    Sealed isListChar (Text.join [','] elements) := by
  have hliteral : ∀ u, Grammar.literal.accepts u = true → Sealed isListChar u := fun u hu =>
    (Grammar.sealed_of_takes_literal u [] ((accepts_iff _ _).mp hu)).mono (by simp +contextual
      [isListChar])
  have htail : ∀ more : List (List Char), (∀ u ∈ more, Grammar.literal.accepts u = true) →
      Sealed isListChar (tailChars more) := by
    intro more hmore
    induction more with
    | nil => exact .of_forall (by simp [tailChars])
    | cons u more ih =>
        have hcomma : Sealed isListChar [','] := Grammar.sealed_singleton _ _ rfl rfl
        have := hcomma.append ((hliteral u (hmore u (by simp))).append
          (ih fun t ht => hmore t (by simp [ht])))
        simpa [tailChars] using this
  cases elements with
  | nil => exact .of_forall (by simp [Text.join])
  | cons u more =>
      rw [join_cons]
      exact (hliteral u (h u (by simp))).append (htail more fun t ht => h t (by simp [ht]))

theorem sign_eq_cons (operator : Operator) :
    ∃ c tail, sign operator = c :: tail ∧ Grammar.isPropertyChar c = false ∧ c ≠ '\'' := by
  cases operator <;> exact ⟨_, _, rfl, by decide, by decide⟩

theorem property_sign_inj (operator operator' : Operator) (p p' rest rest' : List Char)
    (hp : Grammar.property.accepts p = true) (hp' : Grammar.property.accepts p' = true)
    (h : p ++ (sign operator ++ rest) = p' ++ (sign operator' ++ rest')) :
    p = p' ∧ sign operator ++ rest = sign operator' ++ rest' := by
  obtain ⟨c, tail, hsign, hc⟩ := sign_eq_cons operator
  obtain ⟨c', tail', hsign', hc'⟩ := sign_eq_cons operator'
  rw [hsign, hsign'] at h ⊢
  obtain rfl := (sealed_property p hp).append_cons_inj (sealed_property p' hp') hc hc' h
  exact ⟨rfl, List.append_cancel_left h⟩

theorem operand_inj {accepts : Char → Bool} (hblank : accepts ' ' = false)
    (u u' rest rest' : List Char) (hu : Sealed accepts u) (hu' : Sealed accepts u')
    (h : u ++ (Query.separator ++ rest) = u' ++ (Query.separator ++ rest')) :
    u = u' ∧ rest = rest' := by
  have hc : accepts ' ' = false ∧ ' ' ≠ '\'' := ⟨hblank, by decide⟩
  obtain rfl := hu.append_cons_inj hu' hc hc h
  exact ⟨rfl, List.append_cancel_left (List.append_cancel_left h)⟩

/-- The operands that a text begins with are the same, or the lists are. -/
theorem operandChars_unique (operator : Operator) (hs : operator.isSpatial = false)
    (p : List Char) (operands operands' : List (List Char)) (rest rest' : List Char)
    (hcount : operator.arity.accepts operands.length = true)
    (hcount' : operator.arity.accepts operands'.length = true)
    (hall : ∀ u ∈ operands, (token operator).accepts u = true)
    (hall' : ∀ u ∈ operands', (token operator).accepts u = true)
    (heq : (⟨operator, p, operands⟩ : Clause).operandChars ++ (Query.separator ++ rest) =
      (⟨operator, p, operands'⟩ : Clause).operandChars ++ (Query.separator ++ rest')) :
    (⟨operator, p, operands⟩ : Clause).parts = (⟨operator, p, operands'⟩ : Clause).parts ∧
      rest = rest' := by
  have hform := operator.arity.operands_of_accepts operands hcount
  have hform' := operator.arity.operands_of_accepts operands' hcount'
  have hsealed := sealed_token operator hs
  cases ha : operator.arity with
  | none =>
      simp only [ha] at hform hform'
      subst hform hform'
      exact ⟨rfl, List.append_cancel_left (List.append_cancel_left heq)⟩
  | single =>
      simp only [ha] at hform hform'
      obtain ⟨u, rfl⟩ := hform
      obtain ⟨u', rfl⟩ := hform'
      simp only [operandChars, ha, List.flatten_cons, List.flatten_nil, List.append_nil] at heq
      obtain ⟨rfl, rfl⟩ := operand_inj rfl u u' rest rest' (hsealed u (hall u (by simp)))
        (hsealed u' (hall' u' (by simp))) heq
      exact ⟨rfl, rfl⟩
  | pair =>
      simp only [ha] at hform hform'
      obtain ⟨u, v, rfl⟩ := hform
      obtain ⟨u', v', rfl⟩ := hform'
      simp only [operandChars, ha, Text.join, List.append_assoc] at heq
      obtain ⟨rfl, hmore⟩ := operand_inj rfl u u' _ _ (hsealed u (hall u (by simp)))
        (hsealed u' (hall' u' (by simp))) heq
      obtain ⟨rfl, rfl⟩ := operand_inj rfl v v' rest rest' (hsealed v (hall v (by simp)))
        (hsealed v' (hall' v' (by simp))) hmore
      exact ⟨rfl, rfl⟩
  | many =>
      simp only [(token_of_arity_ne operator (by simp [ha])).1] at hall hall'
      simp only [operandChars, ha, List.cons_append, List.cons.injEq, true_and] at heq
      have hclose : Sealed isListChar [')'] := Grammar.sealed_singleton _ _ rfl rfl
      obtain ⟨hjoin, rfl⟩ := operand_inj rfl (Text.join [','] operands ++ [')'])
        (Text.join [','] operands' ++ [')']) rest rest'
        ((sealed_list operands hall).append hclose)
        ((sealed_list operands' hall').append hclose) heq
      exact ⟨by simp [parts, ha, List.append_cancel_right hjoin], rfl⟩

/-- Two clauses of one operator that a text begins with have the same parts. -/
theorem parts_unique (clause clause' : Clause) (hop : clause.operator = clause'.operator)
    (hs : clause.operator.isSpatial = false) (h : clause.Shaped) (h' : clause'.Shaped)
    (rest rest' : List Char)
    (heq : clause.chars ++ (Query.separator ++ rest) =
      clause'.chars ++ (Query.separator ++ rest')) :
    clause.parts = clause'.parts ∧ rest = rest' := by
  obtain ⟨operator, p, operands⟩ := clause
  obtain ⟨operator', p', operands'⟩ := clause'
  obtain rfl : operator = operator' := hop
  have hs : operator.isSpatial = false := hs
  simp only [chars, hs, Bool.false_eq_true, if_false, List.append_assoc] at heq
  obtain ⟨rfl, htail⟩ :=
    property_sign_inj operator operator p p' _ _ h.property h'.property heq
  exact operandChars_unique operator hs p operands operands' rest rest' h.count h'.count
    h.operands h'.operands (List.append_cancel_left htail)

/-! The clause with a polygon. -/

theorem polygon_ascending : Grammar.polygon.Ascending := by
  refine ascending_seq_of_length_le_one _ _ (length_ends_word_le _) ?_
  refine ascending_seq_of_length_le_one _ _ (fun _ => by simp [ends]) ?_
  refine ascending_seq_of_length_le_one _ _ (length_ends_word_le _) ?_
  exact ascending_seq_word _ _ (ascending_shortRun _)

/-- Behind the keyword of a checked polygon the separator does not begin before
the polygon ends, since it has a letter. -/
theorem length_le_of_polygon (u u' rest rest' : List Char) (hcheck : Polygon.check u = .ok ())
    (hu' : Grammar.polygon.accepts u' = true)
    (h : u ++ (')' :: (Query.separator ++ rest)) = u' ++ (')' :: (Query.separator ++ rest'))) :
    u.length ≤ u'.length := by
  obtain ⟨shape, rfl, hshape⟩ := Polygon.shape_of_check u hcheck
  obtain ⟨tail', rfl⟩ : ∃ tail', u' = "POLYGON".toList ++ tail' := by
    simp only [accepts_iff, Grammar.polygon, Pattern.all, takes_seq, takes_text] at hu'
    obtain ⟨_, tail', rfl, rfl, _⟩ := hu'
    exact ⟨tail', rfl⟩
  simp only [List.append_assoc] at h
  have htail := List.append_cancel_left h
  simp only [List.length_append]
  rcases List.append_eq_append_iff.mp htail with ⟨more, rfl, _⟩ | ⟨more, rfl, hmore⟩
  · simp
  · -- what is left of the polygon would begin with a parenthesis, a blank and a letter
    rcases more with _ | ⟨c, _ | ⟨d, _ | ⟨e, more⟩⟩⟩
    · simp
    · simp [Query.separator] at hmore
    · simp [Query.separator] at hmore
    · have hletter : 'A' = e := by
        simp [Query.separator] at hmore
        exact hmore.2.2.1
      have := hshape e (by simp)
      simp [← hletter, Polygon.isShapeChar, isBlank, isDigit] at this

theorem match_spatial (p u rest : List Char) (hp : Grammar.property.accepts p = true)
    (hu : Grammar.polygon.accepts u = true) (hcheck : Polygon.check u = .ok ()) :
    (Query.clause .intersects).match?
        ("INTERSECTS(".toList ++ (p ++ (',' :: (u ++ (')' :: (Query.separator ++ rest)))))) =
      some ([p, u], rest) := by
  have hstop : ∀ (stop : Char → Bool) (c : Char) (rest : List Char), stop c = true →
      StopsAt stop (c :: rest) := by
    intro stop c rest hc d hd
    obtain rfl : c = d := by simpa using hd
    exact hc
  have hbounded : Template.Bounded [.skip (.word [',']), .keep Grammar.polygon,
      .skip (.word [')']), .skip (.word Query.separator)] := by
    simp [Template.Bounded, Bounded, Grammar.polygon_bounded]
  have hfinish : Template.match? [.skip (.word [')']), .skip (.word Query.separator)]
      (')' :: (Query.separator ++ rest)) = some ([], rest) := by
    change Template.match? _ ([')'] ++ (Query.separator ++ rest)) = _
    rw [Template.match?_skip_word, Template.match?_skip_word, Template.match?]
  have hpolygon : Template.match? [.keep Grammar.polygon, .skip (.word [')']),
      .skip (.word Query.separator)] (u ++ (')' :: (Query.separator ++ rest))) =
      some ([u], rest) := by
    refine Template.match?_keep_of_least _ Grammar.polygon_bounded _ _ _ _ _
      (polygon_ascending _) ?_ hfinish ?_
    · exact (takes_iff_accepts _ _ polygon_endsBefore _ _ (hstop _ _ _ rfl)).mpr hu
    · intro u' after' heq hu' hsome
      obtain ⟨found, hmatch⟩ := Option.isSome_iff_exists.mp hsome
      have hfits := Template.fits_of_match? _ (by simp [Template.Bounded, Bounded]) _ _ _ hmatch
      simp only [Template.Fits, takes_word] at hfits
      obtain ⟨_, _, rfl, rfl, _, rest', rfl, rfl, _, _⟩ := hfits
      have haccepts := (takes_iff_accepts _ _ polygon_endsBefore u' _
        (hstop _ ')' (Query.separator ++ rest') rfl)).mp hu'
      exact length_le_of_polygon u u' rest rest' hcheck haccepts heq
  change Template.match? (.skip (.word "INTERSECTS(".toList) :: .keep Grammar.property ::
    [.skip (.word [',']), .keep Grammar.polygon, .skip (.word [')']),
      .skip (.word Query.separator)]) _ = _
  rw [Template.match?_skip_word]
  refine Template.match?_keep_of_only _ Grammar.property_bounded _ p _ [u] rest ?_ ?_ ?_
  · exact (takes_property_iff _ _ (hstop _ _ _ rfl)).mpr hp
  · change Template.match? _ ([','] ++ (u ++ (')' :: (Query.separator ++ rest)))) = _
    rw [Template.match?_skip_word, hpolygon]
  · intro p' after' heq hp' hsome
    obtain ⟨found, hmatch⟩ := Option.isSome_iff_exists.mp hsome
    have hfits := Template.fits_of_match? _ hbounded _ _ _ hmatch
    simp only [Template.Fits, takes_word] at hfits
    obtain ⟨_, after', rfl, rfl, _⟩ := hfits
    have haccepts := (takes_property_iff p' _ (hstop _ ',' after' rfl)).mp hp'
    exact ((sealed_property p hp).append_cons_inj (sealed_property p' haccepts) (by decide)
      (by decide) heq).symm

/-- At the start of a grammatical clause the match is the clause. -/
theorem match_clause (clause : Clause) (h : clause.Grammatical) (rest : List Char) :
    (Query.clause clause.operator).match? (clause.chars ++ (Query.separator ++ rest)) =
      some (clause.parts, rest) := by
  cases hs : clause.operator.isSpatial with
  | false =>
      refine Template.match?_eq_some_of_unique _ (clause_bounded _) _ _ _
        ((fits_iff _ _ _ _).mpr ⟨clause, rfl, h.toShaped, rfl, rfl⟩) ?_
      intro parts' rest' hfits
      obtain ⟨clause', hop, hshaped, heq, rfl⟩ := (fits_iff _ _ _ _).mp hfits
      obtain ⟨hparts, rfl⟩ := parts_unique clause clause' hop.symm hs h.toShaped hshaped rest rest'
        heq
      exact ⟨hparts.symm, rfl⟩
  | true =>
      obtain ⟨p, u, rfl, hp, hu, hcheck⟩ := h.exists_spatial hs
      rw [chars_spatial]
      have := match_spatial p u rest hp hu hcheck
      simpa [parts, Operator.arity] using this

end RecordQuery.Clause
