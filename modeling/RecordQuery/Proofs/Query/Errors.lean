import RecordQuery.Proofs.Query.Passes

/-!
What can be wrong with a query. Whatever the text is, a clause that a pass finds in it
has the shape that the grammar gives to it. So all of its literals can be classified,
and there are as many of them as the operator takes. What is not known of a clause is
whether its polygon is one.

A query that is not read has such a polygon in it, or text that belongs to no clause.
-/

namespace RecordQuery

open Text Segment

/-- All matches that a scan reports fit some text. -/
theorem Template.exists_fits_of_mem_occurrences (template : Template) (hb : template.Bounded)
    (hc : template.Consuming) (s : List Char) (parts : List (List Char))
    (h : parts ∈ template.occurrences s) : ∃ text rest, template.Fits text parts rest := by
  obtain ⟨segments, rfl, hreads⟩ := template.exists_reads hb hc s
  rw [occurrences, scan_of_reads template segments hreads] at h
  induction hreads with
  | nil => cases h
  | gap c segments _ _ ih => exact ih h
  | found text parts' segments _ hmatch _ ih =>
      rcases List.mem_cons.mp h with rfl | h
      · exact ⟨_, _, fits_of_match? template hb _ _ _ hmatch⟩
      · exact ih h

namespace Query

/-- A pass finds nothing but clauses of the shape that goes with its operator. -/
theorem exists_shaped_of_mem_occurrences (operator : Operator) (s : List Char)
    (parts : List (List Char)) (h : parts ∈ (clause operator).occurrences s) :
    ∃ found : Clause, found.operator = operator ∧ found.Shaped ∧ parts = found.parts := by
  obtain ⟨text, rest, hfits⟩ := Template.exists_fits_of_mem_occurrences _
    (Clause.clause_bounded operator) (Clause.clause_consuming operator) s parts h
  obtain ⟨found, hop, hshaped, _, hparts⟩ := (Clause.fits_iff _ _ _ _).mp hfits
  exact ⟨found, hop, hshaped, hparts⟩

theorem readClause_cons_eq_ok (operator : Operator) (property : List Char)
    (texts : List (List Char)) (filter : Filter)
    (h : readClause operator (property :: texts) = .ok filter) :
    readOperands operator texts = .ok filter.operands ∧
      operator.arity.accepts filter.operands.length = true := by
  obtain ⟨operands, hoperands, hmake⟩ := (bind_eq_ok_iff _ _ _).mp h
  unfold Filter.make at hmake
  split at hmake
  · next hfits =>
    obtain rfl := Except.ok.inj hmake
    exact ⟨hoperands, hfits⟩
  · cases hmake

/-- A clause of the right shape is read, unless its polygon does not pass the check. -/
theorem readClause_of_shaped (found : Clause) (h : found.Shaped) :
    (∃ filter, readClause found.operator found.parts = .ok filter) ∨
      ∃ property polygon e, found = ⟨.intersects, property, [polygon]⟩ ∧
        Polygon.check polygon = .error e ∧
        readClause found.operator found.parts = .error e := by
  by_cases hpolygon : found.operator.isSpatial = true → ∀ u ∈ found.operands,
      Polygon.check u = .ok ()
  · obtain ⟨filter, hread⟩ := Clause.Grammatical.read_isOk ⟨h, hpolygon⟩
    exact .inl ⟨filter, (readClause_parts found ⟨h, hpolygon⟩).trans hread⟩
  · obtain ⟨hspatial, u, hu, hcheck⟩ : found.operator.isSpatial = true ∧
        ∃ u ∈ found.operands, Polygon.check u ≠ .ok () := by simpa using hpolygon
    obtain ⟨property, polygon, rfl⟩ := h.exists_spatial hspatial
    obtain rfl := List.mem_singleton.mp hu
    cases he : Polygon.check u with
    | ok _ => exact absurd he hcheck
    | error e =>
        refine .inr ⟨property, u, e, rfl, he, ?_⟩
        simp [Clause.parts, Operator.arity, readClause, readOperands, readPolygon, he, bind,
          Except.bind]

/-- The literals of a clause that a pass finds can be classified and are as many as the
operator takes, unless its only one is a polygon that does not pass the check. -/
theorem operands_of_mem_occurrences (operator : Operator) (s : List Char)
    (parts : List (List Char)) (h : parts ∈ (clause operator).occurrences s) :
    ∃ property texts, parts = property :: texts ∧
      ((∃ operands, readOperands operator texts = .ok operands ∧
          operator.arity.accepts operands.length = true) ∨
        ∃ polygon e, operator.isSpatial = true ∧ texts = [polygon] ∧
          Polygon.check polygon = .error e) := by
  obtain ⟨found, rfl, hshaped, rfl⟩ := exists_shaped_of_mem_occurrences operator s parts h
  refine ⟨found.property, _, rfl, ?_⟩
  rcases readClause_of_shaped found hshaped with ⟨filter, hread⟩ | ⟨p, polygon, e, rfl, he, _⟩
  · exact .inl ⟨filter.operands, readClause_cons_eq_ok _ _ _ filter hread⟩
  · exact .inr ⟨polygon, e, rfl, rfl, he⟩

/-- Where the passes fail, a polygon that one of them finds does not pass the check. -/
theorem exists_polygon_of_readPasses (operators : List Operator) (s : List Char)
    (e : QueryError) (h : readPasses operators s = .error e) :
    ∃ polygon, Polygon.check polygon = .error e := by
  induction operators generalizing s with
  | nil => cases h
  | cons operator operators ih =>
      rcases (bind_eq_error_iff _ _ _).mp h with hfirst | ⟨_, _, hrest⟩
      · obtain ⟨parts, hmem, hread⟩ := exists_error_of_mapM _ _ _ hfirst
        obtain ⟨found, rfl, hshaped, rfl⟩ := exists_shaped_of_mem_occurrences operator s parts hmem
        rcases readClause_of_shaped found hshaped with ⟨_, hok⟩ | ⟨_, polygon, e', _, he, herror⟩
        · rw [hread] at hok
          cases hok
        · obtain rfl := Except.error.inj (hread.symm.trans herror)
          exact ⟨polygon, he⟩
      · rcases (bind_eq_error_iff _ _ _).mp hrest with hlater | ⟨_, _, hpure⟩
        · exact ih _ hlater
        · cases hpure

/-- What is reported of a text that is not blank is not empty and has no blanks around
it. -/
theorem residueText_trimmed (residue : List Char) (h : (Text.trim residue).isEmpty = false) :
    residueText residue ≠ [] ∧ Text.trim (residueText residue) = residueText residue := by
  unfold residueText
  split
  · next c rest hbefore =>
    obtain ⟨before, _, htrim⟩ := Option.map_eq_some_iff.mp hbefore
    rw [← htrim]
    exact ⟨by simp [htrim], trim_trim before⟩
  · exact ⟨by simpa using h, trim_trim residue⟩

/-- Whatever clause a pass finds in a text, its literals can be classified and are as many
as the operator takes, or its only operand is a polygon that does not pass the check. So a
query is read or fails in one of four ways: with text that is left over, which is not empty
and has no blanks around it, or with the form, a point or the ends of a polygon. -/
theorem parse_outcome (query : String) :
    (∀ operator s, ∀ parts ∈ (clause operator).occurrences s, ∃ property texts,
      parts = property :: texts ∧
        ((∃ operands, readOperands operator texts = .ok operands ∧
            operator.arity.accepts operands.length = true) ∨
          ∃ polygon e, operator.isSpatial = true ∧ texts = [polygon] ∧
            Polygon.check polygon = .error e)) ∧
      ((∃ filters, parse query = .ok filters) ∨
        (∃ residue, residue ≠ "" ∧ Text.trim residue.toList = residue.toList ∧
          parse query = .error (.illegalFilter residue)) ∨
        (∃ polygon, parse query = .error (.illegalPolygon polygon)) ∨
        (∃ point, parse query = .error (.illegalPoint point)) ∨
        ∃ first last, parse query = .error (.unclosedPolygon first last)) := by
  refine ⟨operands_of_mem_occurrences, ?_⟩
  cases hparse : parse query with
  | ok filters => exact .inl ⟨filters, rfl⟩
  | error e =>
      refine .inr ?_
      unfold parse parseChars at hparse
      split at hparse
      · cases hparse
      · rcases (bind_eq_error_iff _ _ _).mp hparse with hpasses | ⟨⟨filters, residue⟩, _, hresidue⟩
        · obtain ⟨polygon, hcheck⟩ := exists_polygon_of_readPasses _ _ _ hpasses
          rcases Polygon.error_of_check polygon e hcheck with
            rfl | ⟨point, rfl⟩ | ⟨first, last, rfl⟩
          · exact .inr (.inl ⟨_, rfl⟩)
          · exact .inr (.inr (.inl ⟨point, rfl⟩))
          · exact .inr (.inr (.inr ⟨first, last, rfl⟩))
        · dsimp only at hresidue
          split at hresidue
          · cases hresidue
          · next hleft =>
            obtain ⟨hne, htrimmed⟩ := residueText_trimmed residue (by simpa using hleft)
            obtain rfl := Except.error.inj hresidue
            refine .inl ⟨_, ?_, ?_, rfl⟩
            · simpa using hne
            · rwa [String.toList_ofList]

-- Every one of the errors occurs.
example : ["x=1 AND y ", "INTERSECTS(p,POLYGON(0))", "INTERSECTS(p,POLYGON((0,1 1)))",
      "INTERSECTS(p,POLYGON((0 0,1 1)))"].map (fun query =>
        match parse query with
        | .ok _ => none
        | .error e => some e) =
    [some (.illegalFilter "y"), some (.illegalPolygon "POLYGON(0)"),
      some (.illegalPoint "0"), some (.unclosedPolygon "0 0" "1 1")] := by
  decide +kernel

end Query

end RecordQuery
