import RecordQuery.Proofs.Literal.Classification
import RecordQuery.Proofs.Outcome
import RecordQuery.Proofs.Query.Matching
import RecordQuery.Proofs.Text.Pieces

/-!
What the texts of a clause stand for. The literals of a list are those of its
elements, and so a grammatical clause always stands for a filter: its operator,
its property as it is written, and a literal for each of its operands.
-/

namespace RecordQuery

open Pattern Text

/-- Neither a pattern nor a polygon, an operand is a literal. -/
theorem Clause.readOperand_eq_classifyChars (operator : Operator)
    (hp : operator.isPattern = false) (hs : operator.isSpatial = false) :
    readOperand operator = Literal.classifyChars := by
  funext u
  simp [readOperand, hp, hs]

namespace Query

theorem element_bounded : element.Bounded := by
  simp [Template.Bounded, element, Pattern.text, Bounded, Grammar.literal_bounded]

theorem element_fits_iff (s : List Char) (parts : List (List Char)) (rest : List Char) :
    element.Fits s parts rest ↔
      ∃ u, Grammar.literal.accepts u = true ∧ s = u ++ ',' :: rest ∧ parts = [u] := by
  have hcomma : ∀ rest, StopsAt Grammar.isBreak (',' :: rest) := by
    intro rest c hc
    obtain rfl : ',' = c := by simpa using hc
    rfl
  have hliteral := fun u rest =>
    takes_iff_accepts Grammar.isBreak Grammar.literal Grammar.literal_endsBefore u _ (hcomma rest)
  simp only [element, Template.Fits, takes_text]
  constructor
  · rintro ⟨u, _, _, rfl, hu, rfl, _, _, rfl, rfl, rfl, rfl⟩
    exact ⟨u, (hliteral u _).mp hu, by simp, rfl⟩
  · rintro ⟨u, hu, rfl, rfl⟩
    exact ⟨u, _, _, rfl, (hliteral u _).mpr hu, rfl, [','], _, rfl, rfl, rfl, rfl⟩

theorem match_element (u rest : List Char) (hu : Grammar.literal.accepts u = true) :
    element.match? (u ++ ',' :: rest) = some ([u], rest) := by
  refine Template.match?_eq_some_of_unique _ element_bounded _ _ _
    ((element_fits_iff _ _ _).mpr ⟨u, hu, rfl, rfl⟩) ?_
  intro parts' rest' hfits
  obtain ⟨u', hu', heq, rfl⟩ := (element_fits_iff _ _ _).mp hfits
  have hc : Grammar.isLiteralChar ',' = false ∧ ',' ≠ '\'' := by decide
  have hsealed := Grammar.sealed_of_takes_literal u [] ((accepts_iff _ _).mp hu)
  have hsealed' := Grammar.sealed_of_takes_literal u' [] ((accepts_iff _ _).mp hu')
  obtain rfl := hsealed.append_cons_inj hsealed' hc hc heq
  have hrest := List.append_cancel_left heq
  simp only [List.cons.injEq, true_and] at hrest
  exact ⟨rfl, hrest.symm⟩

/-- A list as the template of an element sees it, with a comma behind every element. -/
def listView (elements : List (List Char)) : List Segment :=
  elements.map fun u => .found (u ++ [',']) [u]

theorem reads_listView (elements : List (List Char))
    (h : ∀ u ∈ elements, Grammar.literal.accepts u = true) :
    element.Reads (listView elements) := by
  induction elements with
  | nil => exact .nil
  | cons u elements ih =>
      refine .found _ _ _ (by simp) ?_ (ih fun t ht => h t (by simp [ht]))
      simpa using match_element u _ (h u (by simp))

theorem spell_listView (elements : List (List Char)) (hne : elements ≠ []) :
    Segment.spell (listView elements) = join [','] elements ++ [','] := by
  rw [join_append_separator [','] elements hne]
  simp [listView, Segment.spell, Segment.chars, List.flatMap_map]

theorem kept_listView (elements : List (List Char)) :
    Segment.kept (listView elements) = elements.map fun u => [u] := by
  rw [listView, Segment.kept, List.filterMap_map]
  exact congrFun List.filterMap_eq_map elements

/-- The matches of an element are the elements, each one beginning where the one before ends,
and nothing lies outside them. -/
theorem scan_elements (elements : List (List Char)) (hne : elements ≠ [])
    (hall : ∀ u ∈ elements, Grammar.literal.accepts u = true) :
    element.scan (join [','] elements ++ [',']) = (elements.map fun u => [u], []) := by
  rw [← spell_listView elements hne, Template.scan_of_reads _ _ (reads_listView elements hall),
    kept_listView]
  simp [listView, Segment.outside]

/-- The literals of a list are read where its elements are. -/
theorem readList_join (elements : List (List Char)) (hne : elements ≠ [])
    (hall : ∀ u ∈ elements, Grammar.literal.accepts u = true) :
    readList (Text.join [','] elements) = elements.mapM Literal.classifyChars := by
  rw [readList, Template.occurrences, scan_elements elements hne hall, ← List.flatMap_def,
    List.flatMap_singleton']

theorem readPolygon_eq_ok_iff (u : List Char) (literal : Literal) :
    readPolygon u = .ok literal ↔ Polygon.check u = .ok () ∧ literal = .plain (.ofList u) := by
  unfold readPolygon
  cases Polygon.check u with
  | error e => simp [bind, Except.bind]
  | ok _ => simp [bind, Except.bind, pure, Except.pure, eq_comm]

theorem readOperands_eq_mapM (operator : Operator) (hmany : operator.arity ≠ .many)
    (hs : operator.isSpatial = false) (texts : List (List Char)) :
    readOperands operator texts = texts.mapM (Clause.readOperand operator) := by
  have hpattern : ∀ texts : List (List Char),
      (.ok (texts.map fun t => Literal.plain (.ofList (Text.unquote t))) : Except QueryError _) =
        texts.mapM fun t => .ok (Literal.plain (.ofList (Text.unquote t))) :=
    fun texts => (List.mapM_pure (m := Except QueryError)).symm
  cases hp : operator.isPattern with
  | true =>
      have hread : Clause.readOperand operator =
          fun t => .ok (Literal.plain (.ofList (Text.unquote t))) := by
        funext t
        simp [Clause.readOperand, hp]
      rw [hread, ← hpattern texts]
      cases operator <;> first
        | exact absurd hp (by decide)
        | rfl
  | false =>
      rw [Clause.readOperand_eq_classifyChars operator hp hs]
      cases operator <;> first
        | exact absurd hp (by decide)
        | exact absurd hs (by decide)
        | exact absurd rfl hmany
        | rfl

theorem readOperands_many (operator : Operator) (h : operator.arity = .many)
    (elements : List (List Char)) (hne : elements ≠ [])
    (hall : ∀ u ∈ elements, Grammar.literal.accepts u = true) :
    readOperands operator [Text.join [','] elements] =
      elements.mapM (Clause.readOperand operator) := by
  have hlist := readList_join elements hne hall
  have hread := Clause.readOperand_eq_classifyChars operator
    (Clause.kind_of_arity_ne operator (by simp [h])).2
    (Clause.token_of_arity_ne operator (by simp [h])).2
  have hoperands : readOperands operator [Text.join [','] elements] =
      readList (Text.join [','] elements) := by
    cases operator <;> first
      | exact absurd h (by decide)
      | simp [readOperands]
  rw [hoperands, hlist, hread]

/-- What is read from the parts of a clause is what the clause stands for. -/
theorem readClause_parts (clause : Clause) (h : clause.Grammatical) :
    readClause clause.operator clause.parts = clause.read := by
  cases hs : clause.operator.isSpatial with
  | true =>
      obtain ⟨p, u, rfl, _, _, hcheck⟩ := h.exists_spatial hs
      have hpolygon := (readPolygon_eq_ok_iff u _).mpr ⟨hcheck, rfl⟩
      have hoperands : readOperands .intersects [u] = .ok [.plain (.ofList u)] := by
        simp [readOperands, hpolygon, pure, Except.pure, bind, Except.bind]
      simp [Clause.parts, Operator.arity, readClause, hoperands, Clause.read, Clause.readOperand,
        Operator.isPattern, Operator.isSpatial, bind, Except.bind, pure, Except.pure]
  | false =>
      by_cases hmany : clause.operator.arity = .many
      · have hall := h.operands
        have hcount := h.count
        rw [(Clause.token_of_arity_ne _ (by simp [hmany])).1] at hall
        have hne : clause.operands ≠ [] := by
          intro hnil
          simp [hmany, hnil, Arity.accepts] at hcount
        rw [Clause.parts, if_pos hmany, readClause, readOperands_many _ hmany _ hne hall,
          Clause.read]
      · rw [Clause.parts, if_neg hmany, readClause, readOperands_eq_mapM _ hmany hs, Clause.read]

/-- A clause from whose parts a filter is read is grammatical, polygon included. -/
theorem grammatical_of_readClause (clause : Clause) (h : clause.Shaped) (filter : Filter)
    (hread : readClause clause.operator clause.parts = .ok filter) : clause.Grammatical := by
  refine ⟨h, ?_⟩
  intro hs u hu
  obtain ⟨p, w, rfl⟩ := h.exists_spatial hs
  obtain rfl := List.mem_singleton.mp hu
  cases hpolygon : readPolygon u with
  | ok literal => exact ((readPolygon_eq_ok_iff u literal).mp hpolygon).1
  | error e =>
      simp [Clause.parts, Operator.arity, readClause, readOperands, hpolygon, bind,
        Except.bind] at hread

end Query

namespace Clause

theorem readOperand_isOk (clause : Clause) (h : clause.Grammatical) (u : List Char)
    (hu : u ∈ clause.operands) : ∃ literal, readOperand clause.operator u = .ok literal := by
  have haccepts := h.operands u hu
  unfold readOperand
  split
  · exact ⟨_, rfl⟩
  · next hp =>
    split
    · exact ⟨_, rfl⟩
    · next hs =>
      rw [token, if_neg hp, if_neg hs] at haccepts
      exact Literal.classifyChars_isOk u haccepts

theorem read_eq_ok_iff (clause : Clause) (filter : Filter) :
    clause.read = .ok filter ↔
      filter.operator = clause.operator ∧ filter.property = ⟨.ofList clause.property⟩ ∧
        clause.operands.mapM (readOperand clause.operator) = .ok filter.operands := by
  unfold read
  cases hoperands : clause.operands.mapM (readOperand clause.operator) with
  | error e => simp [bind, Except.bind]
  | ok operands =>
      simp only [bind, Except.bind, Filter.make]
      constructor
      · intro h
        split at h
        · obtain rfl := Except.ok.inj h
          exact ⟨rfl, rfl, rfl⟩
        · simp at h
      · rintro ⟨hop, hproperty, hsame⟩
        obtain ⟨operator, property, operands', hfits⟩ := filter
        simp only at hop hproperty
        obtain rfl := Except.ok.inj hsame
        subst hop hproperty
        rw [dif_pos hfits]

/-- Every grammatical clause stands for a filter. -/
theorem Grammatical.read_isOk {clause : Clause} (h : clause.Grammatical) :
    ∃ filter, clause.read = .ok filter := by
  obtain ⟨operands, hoperands⟩ := exists_mapM_eq_ok _ _ (readOperand_isOk clause h)
  have hlength := congrArg List.length ((mapM_eq_ok_iff _ _ _).mp hoperands)
  simp only [List.length_map] at hlength
  have hfits : clause.operator.arity.accepts operands.length = true := hlength ▸ h.count
  exact ⟨⟨clause.operator, ⟨.ofList clause.property⟩, operands, hfits⟩,
    (read_eq_ok_iff clause _).mpr ⟨rfl, rfl, hoperands⟩⟩

end Clause

end RecordQuery
