import RecordQuery.Proofs.Literal.Rendering
import RecordQuery.Proofs.Query.Trace

/-!
Queries that are written and read again. A filter is written as a clause, and
no clause that stands for the filter is shorter, nor of the same length and
different. The passes lose no character. So if a rendered query is parsed to
the filters that it was rendered from, every filter was read from its own
clause, and every pass found its clauses where they are written.
-/

namespace RecordQuery

open Pattern Text

/-- If every result is written as what it was read from or shorter, then so are all together. -/
theorem map_eq_or_length_lt {α β ε : Type} (read : β → Except ε α) (write : α → β)
    (chars : β → List Char) (l : List β) (l' : List α) (h : l.map read = l'.map .ok)
    (hwrite : ∀ y ∈ l, ∀ x, read y = .ok x →
      write x = y ∨ (chars (write x)).length < (chars y).length) :
    l'.map write = l ∨ ((l'.map write).flatMap chars).length < (l.flatMap chars).length := by
  induction l generalizing l' with
  | nil =>
      obtain rfl : l' = [] := by simpa using h.symm
      exact .inl rfl
  | cons y l ih =>
      cases l' with
      | nil => simp at h
      | cons x l' =>
          obtain ⟨hread, hlater⟩ := List.cons.inj h
          have hrest := ih l' hlater fun z hz => hwrite z (by simp [hz])
          simp only [List.map_cons, List.flatMap_cons, List.length_append]
          rcases hwrite y (by simp) x hread with heq | hlt
          · rcases hrest with hsame | hless
            · exact .inl (by rw [heq, hsame])
            · exact .inr (by rw [heq]; omega)
          · have hle : ((l'.map write).flatMap chars).length ≤ (l.flatMap chars).length := by
              rcases hrest with hsame | hless
              · exact Nat.le_of_eq (by rw [hsame])
              · exact Nat.le_of_lt hless
            exact .inr (by omega)

theorem map_eq_of_read {α β ε : Type} (read : β → Except ε α) (write : α → β)
    (l : List β) (l' : List α) (h : l.map read = l'.map .ok)
    (hwrite : ∀ y ∈ l, ∀ x, read y = .ok x → write x = y) : l'.map write = l := by
  induction l generalizing l' with
  | nil => simpa using h.symm
  | cons y l ih =>
      cases l' with
      | nil => simp at h
      | cons x l' =>
          obtain ⟨hread, hlater⟩ := List.cons.inj h
          rw [List.map_cons, hwrite y (by simp) x hread,
            ih l' hlater fun z hz => hwrite z (by simp [hz])]

theorem exists_read_of_mem {α β ε : Type} (read : β → Except ε α) (l : List β) (l' : List α)
    (h : l.map read = l'.map .ok) (x : α) (hx : x ∈ l') : ∃ y ∈ l, read y = .ok x := by
  have hmem : Except.ok x ∈ l.map read := by
    rw [h]
    exact List.mem_map.mpr ⟨x, hx, rfl⟩
  exact List.mem_map.mp hmem

namespace Clause

/-! Operands. -/

/-- How a literal is written in a clause of the operator. -/
def writeOperand (operator : Operator) (literal : Literal) : List Char :=
  if operator.isPattern then quote (literal.plain?.getD "").toList else literal.renderChars

theorem writeOperand_eq_renderChars (operator : Operator) (hp : operator.isPattern = false) :
    writeOperand operator = Literal.renderChars := by
  funext literal
  simp [writeOperand, hp]

/-- Patterns and polygons are written as they were read. -/
theorem writeOperand_of_text (operator : Operator)
    (h : operator.isPattern = true ∨ operator.isSpatial = true) (u : List Char)
    (literal : Literal) (haccepts : (token operator).accepts u = true)
    (hread : readOperand operator u = .ok literal) : writeOperand operator literal = u := by
  unfold readOperand at hread
  unfold token at haccepts
  unfold writeOperand
  by_cases hp : operator.isPattern = true
  · rw [if_pos hp] at hread haccepts ⊢
    obtain ⟨v, rfl⟩ := (Grammar.string_accepts_iff u).mp haccepts
    obtain rfl := Except.ok.inj hread
    simp [Literal.plain?, unquote_quote]
  · have hs := h.resolve_left hp
    rw [if_neg hp, if_pos hs] at hread haccepts
    obtain rfl := Except.ok.inj hread
    rw [if_neg hp, Literal.renderChars_plain,
      if_pos ((Literal.bare_accepts_iff u).mpr (.inr haccepts))]

theorem writeOperand_eq_or_lt (operator : Operator) (u : List Char) (literal : Literal)
    (haccepts : (token operator).accepts u = true)
    (hread : readOperand operator u = .ok literal) :
    writeOperand operator literal = u ∨ (writeOperand operator literal).length < u.length := by
  by_cases h : operator.isPattern = true ∨ operator.isSpatial = true
  · exact .inl (writeOperand_of_text operator h u literal haccepts hread)
  · obtain ⟨hp, hs⟩ := not_or.mp h
    rw [token, if_neg hp, if_neg hs] at haccepts
    rw [readOperand, if_neg hp, if_neg hs] at hread
    rw [writeOperand, if_neg hp]
    exact Literal.renderChars_eq_or_lt u literal haccepts hread

/-! Clauses. -/

theorem length_join (separator : List Char) (texts : List (List Char)) :
    (Text.join separator texts).length =
      separator.length * (texts.length - 1) + texts.flatten.length := by
  induction texts with
  | nil => simp [Text.join]
  | cons s texts ih =>
      cases texts with
      | nil => simp [Text.join]
      | cons t texts =>
          simp only [Text.join, List.length_append, ih, List.flatten_cons, List.length_cons,
            Nat.add_sub_cancel, Nat.mul_add, Nat.mul_one]
          omega

/-- Besides the operands the length of a clause depends only on how many there are. -/
theorem length_chars (operator : Operator) (p : List Char) (count : Nat) :
    ∃ base, ∀ texts : List (List Char), texts.length = count →
      (⟨operator, p, texts⟩ : Clause).chars.length = base + texts.flatten.length := by
  unfold chars operandChars
  by_cases hs : operator.isSpatial = true
  · refine ⟨"INTERSECTS(".toList.length + (p.length + 2), fun texts _ => ?_⟩
    simp only [if_pos hs, List.length_append, List.length_cons, List.length_nil]
    omega
  · simp only [if_neg hs, List.length_append]
    cases operator.arity with
    | pair =>
        refine ⟨p.length + (sign operator).length + Query.separator.length * (count - 1), ?_⟩
        rintro texts rfl
        simp only [length_join]
        omega
    | many =>
        refine ⟨p.length + (sign operator).length + ([','].length * (count - 1) + 2), ?_⟩
        rintro texts rfl
        simp only [List.length_cons, List.length_append, length_join, List.length_nil]
        omega
    | none =>
        refine ⟨p.length + (sign operator).length, fun texts _ => ?_⟩
        dsimp only
        omega
    | single =>
        refine ⟨p.length + (sign operator).length, fun texts _ => ?_⟩
        dsimp only
        omega

end Clause

namespace Filter

/-- The clause that a filter is written as. -/
def clause (filter : Filter) : Clause :=
  ⟨filter.operator, filter.property.chars,
    filter.operands.map (Clause.writeOperand filter.operator)⟩

/-- A filter is written as a clause that is read as this filter. -/
def Restorable (filter : Filter) : Prop :=
  filter.operator.isPattern = false → filter.operator.isSpatial = false →
    ∀ literal ∈ filter.operands, literal.Restorable

theorem chars_clause (filter : Filter) : filter.clause.chars = filter.renderChars := by
  refine Option.some.inj (Eq.trans ?_ filter.clauseOf?_eq)
  obtain ⟨operator, property, operands, hfits⟩ := filter
  have hoperands := operator.arity.operands_of_accepts operands hfits
  unfold clause clauseOf?
  cases ha : operator.arity with
  | none =>
      simp only [ha] at hoperands
      subst hoperands
      have hkind := Clause.kind_of_arity_ne operator (by simp [ha])
      simp [Clause.chars_none operator _ ha, Clause.sign, ha, hkind]
  | pair =>
      simp only [ha] at hoperands
      obtain ⟨lower, upper, rfl⟩ := hoperands
      have hkind := Clause.kind_of_arity_ne operator (by simp [ha])
      simp [Clause.chars_pair operator _ _ _ ha, Clause.sign, Clause.writeOperand, ha, hkind,
        Query.separator]
  | many =>
      have hkind := Clause.kind_of_arity_ne operator (by simp [ha])
      have hwrite := Clause.writeOperand_eq_renderChars operator hkind.2
      simp [Clause.chars_many operator _ _ ha, Clause.sign, hwrite, ha, hkind]
  | single =>
      simp only [ha] at hoperands
      obtain ⟨operand, rfl⟩ := hoperands
      by_cases hs : operator.isSpatial = true
      · obtain rfl : operator = .intersects := by
          cases operator <;> simp [Operator.isSpatial] at hs ⊢
        simp [Clause.chars_spatial, Clause.writeOperand, Operator.isPattern, Operator.isSpatial,
          Operator.keyword]
      · have hkind : operator.isComparison = !operator.isPattern := by
          cases operator <;> simp [Operator.arity, Operator.isSpatial] at ha hs <;> rfl
        simp only [List.map_cons, List.map_nil]
        rw [Clause.chars_single operator _ _ (by simpa using hs) ha]
        cases hp : operator.isPattern <;>
          simp [Clause.sign, Clause.writeOperand, ha, hs, hp, hkind]

/-- A filter that a clause stands for has its operator and its property. -/
theorem clause_of_read (clause : Clause) (filter : Filter) (hread : clause.read = .ok filter) :
    filter.clause = ⟨clause.operator, clause.property,
        filter.operands.map (Clause.writeOperand clause.operator)⟩ ∧
      clause.operands.map (Clause.readOperand clause.operator) = filter.operands.map .ok := by
  obtain ⟨hop, hproperty, hoperands⟩ := (Clause.read_eq_ok_iff _ _).mp hread
  refine ⟨?_, (mapM_eq_ok_iff _ _ _).mp hoperands⟩
  rw [Filter.clause, hop, hproperty, PropertyRef.chars, String.toList_ofList]

/-- No clause that stands for a filter is shorter than the one that the filter is
written as, nor of the same length and different. -/
theorem clause_eq_or_lt (clause : Clause) (filter : Filter) (hgrammatical : clause.Grammatical)
    (hread : clause.read = .ok filter) :
    filter.clause = clause ∨ filter.clause.chars.length < clause.chars.length := by
  obtain ⟨hclause, hoperands⟩ := clause_of_read clause filter hread
  have hcount := congrArg List.length hoperands
  simp only [List.length_map] at hcount
  rw [hclause]
  rcases map_eq_or_length_lt _ (Clause.writeOperand clause.operator) id _ _ hoperands
    fun u hu literal => Clause.writeOperand_eq_or_lt _ u literal (hgrammatical.operands u hu) with
    heq | hlt
  · exact .inl (by rw [heq])
  · right
    obtain ⟨base, hbase⟩ :=
      Clause.length_chars clause.operator clause.property clause.operands.length
    have hwritten := hbase (filter.operands.map (Clause.writeOperand clause.operator))
      (by simp [hcount])
    have hown : clause.chars.length = _ := hbase clause.operands rfl
    simp only [List.flatMap_id] at hlt
    omega

/-- A filter with a pattern or a polygon is written as the clause that it was read from. -/
theorem clause_eq_of_text (clause : Clause) (filter : Filter) (hgrammatical : clause.Grammatical)
    (hread : clause.read = .ok filter)
    (htext : clause.operator.isPattern = true ∨ clause.operator.isSpatial = true) :
    filter.clause = clause := by
  obtain ⟨hclause, hoperands⟩ := clause_of_read clause filter hread
  rw [hclause, map_eq_of_read _ (Clause.writeOperand clause.operator) _ _ hoperands]
  intro u hu literal
  exact Clause.writeOperand_of_text _ htext u literal (hgrammatical.operands u hu)

theorem restorable_iff_of_literals (filter : Filter) (hp : filter.operator.isPattern = false)
    (hs : filter.operator.isSpatial = false)
    (hproperty : Grammar.property.accepts filter.property.chars = true)
    (hliteral : ∀ literal ∈ filter.operands, (literal.Restorable ↔
      Grammar.literal.accepts literal.renderChars = true ∧
        Literal.classifyChars literal.renderChars = .ok literal)) :
    filter.Restorable ↔ filter.clause.Grammatical ∧ filter.clause.read = .ok filter := by
  have hclause : filter.clause = ⟨filter.operator, filter.property.chars,
      filter.operands.map Literal.renderChars⟩ := by
    rw [Filter.clause, Clause.writeOperand_eq_renderChars _ hp]
  have hreads := Clause.readOperand_eq_classifyChars filter.operator hp hs
  have htoken : Clause.token filter.operator = Grammar.literal := by
    simp [Clause.token, hp, hs]
  constructor
  · intro hrestorable
    have hgood := fun literal hmem => (hliteral literal hmem).mp
      (hrestorable hp hs literal hmem)
    rw [hclause]
    refine ⟨⟨⟨hproperty, by simpa using filter.fits, ?_⟩, fun htrue => by simp [hs] at htrue⟩,
      (Clause.read_eq_ok_iff _ _).mpr ⟨rfl, by simp [PropertyRef.chars], ?_⟩⟩
    · rw [htoken]
      intro u hu
      obtain ⟨literal, hmem, rfl⟩ := List.mem_map.mp hu
      exact (hgood literal hmem).1
    · rw [mapM_eq_ok_iff, hreads, List.map_map]
      refine List.map_congr_left fun literal hmem => ?_
      rw [Function.comp_apply, (hgood literal hmem).2]
  · rintro ⟨hown, hok⟩ - - literal hmem
    obtain ⟨_, _, hlist⟩ := (Clause.read_eq_ok_iff _ _).mp hok
    have hall := hown.operands
    rw [hclause, mapM_eq_ok_iff, hreads, List.map_map] at hlist
    rw [hclause, htoken] at hall
    have haccepts := hall literal.renderChars (List.mem_map_of_mem hmem)
    have hread := List.map_inj_left.mp hlist literal hmem
    rw [Function.comp_apply] at hread
    exact (hliteral literal hmem).mpr ⟨haccepts, hread⟩

/-- A filter that a clause stands for is restorable if and only if the clause
that it is written as is one of the grammar and stands for it. -/
theorem restorable_iff (clause : Clause) (filter : Filter) (hgrammatical : clause.Grammatical)
    (hread : clause.read = .ok filter) :
    filter.Restorable ↔ filter.clause.Grammatical ∧ filter.clause.read = .ok filter := by
  obtain ⟨hop, hproperty, hoperands⟩ := (Clause.read_eq_ok_iff _ _).mp hread
  by_cases htext : clause.operator.isPattern = true ∨ clause.operator.isSpatial = true
  · rw [clause_eq_of_text clause filter hgrammatical hread htext]
    refine ⟨fun _ => ⟨hgrammatical, hread⟩, fun _ hp hs => ?_⟩
    rw [← hop, hp, hs] at htext
    simp at htext
  · simp only [not_or, Bool.not_eq_true] at htext
    obtain ⟨hp, hs⟩ := htext
    have hall := hgrammatical.operands
    have htoken : Clause.token clause.operator = Grammar.literal := by
      simp [Clause.token, hp, hs]
    rw [htoken] at hall
    rw [mapM_eq_ok_iff, Clause.readOperand_eq_classifyChars _ hp hs] at hoperands
    refine restorable_iff_of_literals filter (hop ▸ hp) (hop ▸ hs) ?_ ?_
    · simpa [hproperty, PropertyRef.chars] using hgrammatical.property
    · intro literal hmem
      obtain ⟨u, hu, hok⟩ := exists_read_of_mem _ _ _ hoperands literal hmem
      exact Literal.restorable_iff u literal (hall u hu) hok

end Filter

namespace Query

open Layout

theorem text_ofClauses_render (filters : Query) (hne : filters ≠ []) :
    (ofClauses (filters.map Filter.clause)).text = filters.renderChars ++ separator := by
  rw [text_ofClauses _ (by simpa using hne), Query.renderChars, List.map_map]
  congr 2
  exact List.map_congr_left fun filter _ => filter.chars_clause

/-- Every query that is parsed is parsed from clauses of the grammar, and its
filters come by operator. -/
theorem exists_clauses_of_parse (query : List Char) (filters : Query)
    (h : parseChars query = .ok filters) :
    ∃ clauses : List Clause, (∀ clause ∈ clauses, clause.Grammatical) ∧
      clauses.map Clause.read = filters.map .ok ∧
      byOperator Filter.operator Operator.all filters = filters := by
  cases hblank : (Text.trim query).isEmpty with
  | true =>
      rw [parseChars, if_pos hblank] at h
      obtain rfl := Except.ok.inj h
      exact ⟨[], by simp, rfl, rfl⟩
  | false =>
      obtain ⟨residue, hpasses, _⟩ := (parseChars_eq_ok_iff query filters hblank).mp h
      obtain ⟨clauses, hfinds, hread⟩ := finds_of_readPasses _ _ _ _ hpasses
      have hordered := mapM_byOperator Clause.operator Filter.operator Clause.read
        (fun clause filter hread => ((Clause.read_eq_ok_iff clause filter).mp hread).1)
        Operator.all _ _ hread
      rw [hfinds.byOperator_eq (by decide), hread] at hordered
      exact ⟨clauses, fun clause hclause => (hfinds.grammatical clause hclause).1,
        (mapM_eq_ok_iff _ _ _).mp hread, (Except.ok.inj hordered).symm⟩

theorem not_conceals_nil (operators : List Operator) : ¬Conceals operators (ofClauses []) := by
  induction operators with
  | nil => exact id
  | cons operator operators ih =>
      rintro (⟨first, clause, later, _, _, hnil, _⟩ | hlater)
      · simp [ofClauses] at hnil
      · exact ih hlater

/-- What is found in a rendered query that is parsed to its filters are the
clauses that the filters are written as: shorter ones there are not, and there
is no room for longer ones. -/
theorem finds_of_parse_render (filters : Query) (hne : filters ≠ [])
    (h : parseChars filters.renderChars = .ok filters) :
    ∃ residue, Finds Operator.all (ofClauses (filters.map Filter.clause)).text
        (filters.map Filter.clause) residue ∧
      (filters.map Filter.clause).map Clause.read = filters.map .ok := by
  have hblank : (Text.trim filters.renderChars).isEmpty = false := by
    cases hblank : (Text.trim filters.renderChars).isEmpty with
    | false => rfl
    | true =>
        rw [parseChars, if_pos hblank] at h
        exact absurd (Except.ok.inj h).symm hne
  obtain ⟨residue, hpasses, _⟩ := (parseChars_eq_ok_iff _ _ hblank).mp h
  rw [← text_ofClauses_render filters hne] at hpasses
  obtain ⟨clauses, hfinds, hread⟩ := finds_of_readPasses _ _ _ _ hpasses
  rw [mapM_eq_ok_iff] at hread
  have hlength := hfinds.length_eq
  have htext : ∀ clauses : List Clause,
      (ofClauses clauses).text = clauses.flatMap fun clause => clause.chars ++ separator := by
    intro clauses
    simp [ofClauses, Layout.text, List.flatMap_map, Item.chars]
  rw [htext, htext] at hlength
  have hsame : filters.map Filter.clause = clauses := by
    refine (map_eq_or_length_lt Clause.read Filter.clause
      (fun clause => clause.chars ++ separator) clauses filters hread ?_).resolve_right (by omega)
    intro clause hclause filter hok
    have := Filter.clause_eq_or_lt clause filter (hfinds.grammatical clause hclause).1 hok
    simpa [List.length_append] using this
  rw [hsame] at hfinds ⊢
  exact ⟨residue, hfinds, hread⟩

/-- A query that was parsed and is rendered is parsed to the same filters again,
if and only if all filters are restorable and no pass finds a clause between
the quotes of the rendered query. -/
theorem parse_render_iff (query : String) (filters : Query) (h : parse query = .ok filters) :
    parse filters.render = .ok filters ↔
      (∀ filter ∈ filters, filter.Restorable) ∧
        ¬Conceals Operator.all (ofClauses (filters.map Filter.clause)) := by
  obtain ⟨clauses, hgrammatical, hread, hordered⟩ := exists_clauses_of_parse _ _ h
  have hrestorable : ∀ filter ∈ filters, (filter.Restorable ↔
      filter.clause.Grammatical ∧ filter.clause.read = .ok filter) := by
    intro filter hfilter
    obtain ⟨clause, hclause, hok⟩ := exists_read_of_mem _ _ _ hread filter hfilter
    exact Filter.restorable_iff clause filter (hgrammatical clause hclause) hok
  rw [parse, render, String.toList_ofList]
  by_cases hne : filters = []
  · subst hne
    exact ⟨fun _ => ⟨by simp, not_conceals_nil _⟩, fun _ => rfl⟩
  have htext := text_ofClauses_render filters hne
  constructor
  · intro hagain
    obtain ⟨residue, hfinds, hown⟩ := finds_of_parse_render filters hne hagain
    have hproper : ∀ filter ∈ filters, filter.clause.Grammatical := fun filter hfilter =>
      (hfinds.grammatical _ (List.mem_map_of_mem hfilter)).1
    rw [List.map_map] at hown
    refine ⟨fun filter hfilter => (hrestorable filter hfilter).mpr ⟨hproper filter hfilter, ?_⟩, ?_⟩
    · have hok := List.map_inj_left.mp hown filter hfilter
      exact hok
    · refine (readsExactly_iff Operator.all _ (List.suffix_refl _) (proper_ofClauses _ ?_)
        fun clause _ => Operator.mem_all _).mp (hfinds.readsExactly (by decide) rfl)
      simpa using hproper
  · rintro ⟨hall, hconceals⟩
    have hproper := proper_ofClauses (filters.map Filter.clause) (by
      simpa using fun filter hfilter => ((hrestorable filter hfilter).mp (hall filter hfilter)).1)
    have hexact := (readsExactly_iff Operator.all _ (List.suffix_refl _) hproper
      fun clause _ => Operator.mem_all _).mpr hconceals
    obtain ⟨again, hagain, hparse⟩ := parseChars_of_readsExactly _ _ htext hproper hexact
    have hown : (filters.map Filter.clause).map Clause.read = filters.map .ok := by
      rw [List.map_map]
      exact List.map_congr_left fun filter hfilter =>
        ((hrestorable filter hfilter).mp (hall filter hfilter)).2
    rw [clauses_ofClauses, (mapM_eq_ok_iff _ _ _).mpr hown] at hagain
    obtain rfl := Except.ok.inj hagain
    rw [hparse, hordered]

/-- A pattern and a comparison with a quoted number, which is written without quotes. -/
theorem parse_render_iff_of_two :
    let filters : Query :=
      [⟨.equal, ⟨"x"⟩, [.plain "1"], rfl⟩, ⟨.like, ⟨"a"⟩, [.plain "b%"], rfl⟩]
    parse "a LIKE 'b%' AND x='1'" = .ok filters ∧
      (parse filters.render = .ok filters ↔
        (∀ filter ∈ filters, filter.Restorable) ∧
          ¬Conceals Operator.all (ofClauses (filters.map Filter.clause))) := by
  intro filters
  have hparse : parse "a LIKE 'b%' AND x='1'" = .ok filters :=
    eq_ok_of_toOption (by decide +kernel)
  exact ⟨hparse, parse_render_iff _ filters hparse⟩

/-- A quoted polygon is written without quotes and is no literal then; two quoted
sides run together to an interval; and a comparison shows up in a pattern in
which the pass for it had found another one. -/
theorem rendering_is_read_otherwise :
    let polygon : Query := [⟨.equal, ⟨"x"⟩, [.plain "POLYGON( )"], rfl⟩]
    let quotient : Query := [⟨.equal, ⟨"x"⟩,
      [.arithmetic (.plain "2020-01-01T00:00:00Z") .div (.plain "P1D")], rfl⟩]
    let pattern : Query :=
      [⟨.equal, ⟨"y"⟩, [.plain "2"], rfl⟩, ⟨.like, ⟨"a"⟩, [.plain "x=1 AND z"], rfl⟩]
    ((parse "x='POLYGON( )'").toOption = some polygon ∧
        (parse polygon.render).toOption = none) ∧
      ((parse "x='2020-01-01T00:00:00Z'/'P1D'").toOption = some quotient ∧
        (parse quotient.render).toOption =
          some [⟨.equal, ⟨"x"⟩, [.plain "2020-01-01T00:00:00Z/P1D"], rfl⟩]) ∧
      (parse "a LIKE 'x=y=2 AND 1 AND z'").toOption = some pattern ∧
        (parse pattern.render).toOption =
          some [⟨.equal, ⟨"y"⟩, [.plain "2"], rfl⟩, ⟨.equal, ⟨"x"⟩, [.plain "1"], rfl⟩,
            ⟨.like, ⟨"a"⟩, [.plain "z"], rfl⟩] := by
  decide +kernel

end Query

end RecordQuery
