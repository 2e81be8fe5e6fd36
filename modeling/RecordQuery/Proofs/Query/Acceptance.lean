import RecordQuery.Proofs.Query.Trace

/-!
What is accepted. A pass sees the text that the passes before it have left,
pieces of the query joined where clauses were taken out. As long as every
match lies within one piece, the query is a conjunction of the clauses that
are read, but for blanks before them. A match that goes over a join puts
together what is not together in the query.
-/

namespace RecordQuery

open Text Segment

/-- The first of the pieces with the text before it. -/
def prepend (s : List Char) : List (List Char) → List (List Char)
  | [] => [s]
  | piece :: more => (s ++ piece) :: more

/-- The pieces of a text between the matches of a reading. -/
def gapPieces : List Segment → List (List Char)
  | [] => [[]]
  | .gap c :: later => prepend [c] (gapPieces later)
  | .found _ _ :: later => [] :: gapPieces later

namespace Query

/-- No match of a pass goes over a place where an earlier pass has taken a clause
out: the reading of the joined pieces falls into readings of the pieces. -/
def Apart : List Operator → List (List Char) → Prop
  | [], _ => True
  | operator :: operators, pieces =>
    ∃ readings : List (List Segment), (clause operator).Reads readings.flatten ∧
      readings.map spell = pieces ∧ Apart operators (readings.flatMap gapPieces)

end Query

theorem prepend_append (s t : List Char) (pieces : List (List Char)) :
    prepend (s ++ t) pieces = prepend s (prepend t pieces) := by
  cases pieces <;> simp [prepend]

theorem gapPieces_ne_nil (segments : List Segment) : gapPieces segments ≠ [] := by
  cases segments with
  | nil => simp [gapPieces]
  | cons segment segments =>
      cases segment with
      | gap c =>
          rw [gapPieces]
          cases gapPieces segments <;> simp [prepend]
      | found => simp [gapPieces]

theorem prepend_nil (segments : List Segment) :
    prepend [] (gapPieces segments) = gapPieces segments := by
  cases h : gapPieces segments with
  | nil => exact absurd h (gapPieces_ne_nil segments)
  | cons piece more => rfl

theorem gapPieces_gaps (s : List Char) (segments : List Segment) :
    gapPieces (s.map .gap ++ segments) = prepend s (gapPieces segments) := by
  induction s with
  | nil => exact (prepend_nil segments).symm
  | cons c s ih =>
      rw [List.map_cons, List.cons_append, gapPieces, ih]
      exact (prepend_append [c] s _).symm

theorem flatten_prepend (s : List Char) (pieces : List (List Char)) :
    (prepend s pieces).flatten = s ++ pieces.flatten := by
  cases pieces <;> simp [prepend]

theorem flatten_gapPieces (segments : List Segment) :
    (gapPieces segments).flatten = outside segments := by
  induction segments with
  | nil => rfl
  | cons segment segments ih =>
      cases segment with
      | gap c =>
          rw [gapPieces, flatten_prepend, ih]
          rfl
      | found text parts => simpa [gapPieces, outside] using ih

theorem flatten_map_spell (readings : List (List Segment)) :
    (readings.map spell).flatten = spell readings.flatten := by
  induction readings with
  | nil => rfl
  | cons reading readings ih => simp [ih]

theorem flatten_flatMap_gapPieces (readings : List (List Segment)) :
    (readings.flatMap gapPieces).flatten = outside readings.flatten := by
  induction readings with
  | nil => rfl
  | cons reading readings ih => simp [flatten_gapPieces, ih]

/-! Layouts in pieces. -/

namespace Layout

/-- The layout cut at the clauses of an operator. -/
def pieces (operator : Operator) : Layout → List Layout
  | [] => [[]]
  | item :: layout =>
    if item.isOf operator then [] :: pieces operator layout
    else
      match pieces operator layout with
      | [] => [[item]]
      | piece :: more => (item :: piece) :: more

theorem flatten_pieces (operator : Operator) (layout : Layout) :
    (pieces operator layout).flatten = layout.without operator := by
  induction layout with
  | nil => rfl
  | cons item layout ih =>
      rw [pieces]
      cases h : item.isOf operator with
      | true => simpa [without, h] using ih
      | false =>
          have hcons : without operator (item :: layout) = item :: without operator layout := by
            simp [without, h]
          rw [hcons, ← ih]
          cases pieces operator layout <;> simp

theorem gapPieces_view (operator : Operator) (layout : Layout) :
    gapPieces (layout.view operator) = (pieces operator layout).map text := by
  induction layout with
  | nil => rfl
  | cons item layout ih =>
      rw [view_cons, pieces]
      cases h : item.isOf operator with
      | true =>
          cases item with
          | blank c => simp [Item.isOf] at h
          | written clause =>
              have hop : clause.operator = operator := by simpa [Item.isOf] using h
              simp [Item.view, hop, gapPieces, ih]
      | false =>
          have hgaps : item.view operator = item.chars.map .gap := by
            cases item with
            | blank c => rfl
            | written clause =>
                have hop : clause.operator ≠ operator := by simpa [Item.isOf] using h
                simp [Item.view, hop]
          rw [hgaps, gapPieces_gaps, ih]
          cases pieces operator layout <;> simp [prepend]

theorem view_flatten (operator : Operator) (layouts : List Layout) :
    view operator layouts.flatten = (layouts.map (view operator)).flatten := by
  induction layouts with
  | nil => rfl
  | cons layout layouts ih => simp [ih]

theorem flatten_flatMap_pieces (operator : Operator) (layouts : List Layout) :
    (layouts.flatMap (pieces operator)).flatten = without operator layouts.flatten := by
  induction layouts with
  | nil => rfl
  | cons layout layouts ih => simp [flatten_pieces, without_append, ih]

theorem flatMap_gapPieces_view (operator : Operator) (layouts : List Layout) :
    (layouts.map (view operator)).flatMap gapPieces =
      (layouts.flatMap (pieces operator)).map text := by
  induction layouts with
  | nil => rfl
  | cons layout layouts ih => simp [gapPieces_view, ih]

/-- What is read exactly is read apart. -/
theorem apart_of_readsExactly (operators : List Operator) (layouts : List Layout)
    (h : ReadsExactly operators layouts.flatten) :
    Query.Apart operators (layouts.map text) := by
  induction operators generalizing layouts with
  | nil => trivial
  | cons operator operators ih =>
      obtain ⟨hreads, hlater⟩ := h
      rw [view_flatten] at hreads
      refine ⟨layouts.map (view operator), hreads, ?_, ?_⟩
      · simp [List.map_map, Function.comp_def]
      · rw [flatMap_gapPieces_view]
        refine ih _ ?_
        rwa [flatten_flatMap_pieces]

/-! From the pieces to the layout. -/

/-- A reading of one piece with layouts for what lies between its matches is the
view of a layout. The text before the reading belongs to the first of these
layouts; it grows with every gap until a match closes it. -/
theorem exists_layout_of_reading (operator : Operator) (segments : List Segment)
    (hclause : ∀ text parts, Segment.found text parts ∈ segments → IsClause operator text parts)
    (s : List Char) (layouts : List Layout)
    (htext : layouts.map text = prepend s (gapPieces segments))
    (hproper : Proper layouts.flatten)
    (hnone : ∀ item ∈ layouts.flatten, item.isOf operator = false) :
    ∃ layout : Layout, layout.view operator = s.map .gap ++ segments ∧
      layout.without operator = layouts.flatten ∧ layout.Proper := by
  induction segments generalizing s layouts with
  | nil =>
      obtain ⟨layout, rfl, rfl⟩ : ∃ layout, layouts = [layout] ∧ layout.text = s := by
        rcases layouts with _ | ⟨layout, _ | ⟨next, more⟩⟩
        · simp [gapPieces, prepend] at htext
        · exact ⟨layout, rfl, by simpa [gapPieces, prepend] using htext⟩
        · simp [gapPieces, prepend] at htext
      obtain ⟨hview, hwithout⟩ := view_of_not_isOf operator layout (by simpa using hnone)
      refine ⟨layout, by simpa using hview, by simpa using hwithout, by simpa using hproper⟩
  | cons segment segments ih =>
      have hlater := ih fun text parts hmem => hclause text parts (by simp [hmem])
      cases segment with
      | gap c =>
          rw [gapPieces, ← prepend_append] at htext
          obtain ⟨layout, hview, hrest⟩ := hlater (s ++ [c]) layouts htext hproper hnone
          exact ⟨layout, by simpa using hview, hrest⟩
      | found text parts =>
          obtain ⟨clause, hgrammatical, hop, rfl, rfl⟩ := hclause text parts (by simp)
          rw [gapPieces, prepend] at htext
          cases layouts with
          | nil => simp at htext
          | cons first layouts =>
              simp only [List.map_cons, List.append_nil, List.cons.injEq] at htext
              obtain ⟨rfl, htext⟩ := htext
              simp only [List.flatten_cons] at hproper hnone
              obtain ⟨hview, hwithout⟩ := view_of_not_isOf operator first
                fun item hitem => hnone item (by simp [hitem])
              rw [← prepend_nil] at htext
              obtain ⟨layout, hview', hwithout', hproper'⟩ := hlater [] layouts htext
                (fun item hitem => hproper item (by simp [hitem]))
                fun item hitem => hnone item (by simp [hitem])
              refine ⟨first ++ .written clause :: layout, ?_, ?_, ?_⟩
              · simp [hview, Item.view, Item.chars, hop, hview']
              · simp [without_append, hop, hwithout, hwithout']
              · intro item hitem
                simp only [List.mem_append, List.mem_cons] at hitem
                rcases hitem with hitem | rfl | hitem
                · exact hproper item (by simp [hitem])
                · exact hgrammatical
                · exact hproper' item hitem

theorem exists_layouts_of_readings (operator : Operator) (readings : List (List Segment))
    (hclause : ∀ text parts, Segment.found text parts ∈ readings.flatten →
      IsClause operator text parts)
    (layouts : List Layout) (htext : layouts.map text = readings.flatMap gapPieces)
    (hproper : Proper layouts.flatten)
    (hnone : ∀ item ∈ layouts.flatten, item.isOf operator = false) :
    ∃ whole : List Layout, whole.map (view operator) = readings ∧
      without operator whole.flatten = layouts.flatten ∧ Proper whole.flatten := by
  induction readings generalizing layouts with
  | nil =>
      obtain rfl : layouts = [] := by simpa using htext
      exact ⟨[], rfl, rfl, by simp [Proper]⟩
  | cons reading readings ih =>
      rw [List.flatMap_cons, List.map_eq_append_iff] at htext
      obtain ⟨first, later, rfl, hfirst, hlater⟩ := htext
      simp only [List.flatten_append, List.mem_append] at hproper hnone
      rw [← prepend_nil] at hfirst
      obtain ⟨layout, hview, hwithout, hlayout⟩ := exists_layout_of_reading operator reading
        (fun text parts hmem => hclause text parts (by simp [hmem])) [] first hfirst
        (fun item hitem => hproper item (by simp [hitem])) fun item hitem => hnone item (.inl hitem)
      obtain ⟨whole, hviews, hrest, hwhole⟩ := ih
        (fun text parts hmem => hclause text parts (by simp [hmem])) later hlater
        (fun item hitem => hproper item (by simp [hitem])) fun item hitem => hnone item (.inr hitem)
      refine ⟨layout :: whole, by simp [hview, hviews], ?_, ?_⟩
      · simp [without_append, hwithout, hrest]
      · intro item hitem
        simp only [List.flatten_cons, List.mem_append] at hitem
        exact hitem.elim (hlayout item) (hwhole item)

/-- Pieces of blanks are layouts without clauses. -/
theorem exists_layouts_of_blanks (pieces : List (List Char))
    (hblank : ∀ c ∈ pieces.flatten, Text.isBlank c = true) :
    ∃ layouts : List Layout, layouts.map text = pieces ∧ Proper layouts.flatten ∧
      ∀ item ∈ layouts.flatten, ∀ operator, item.isOf operator = false := by
  have hchars : ∀ s : List Char, text (s.map .blank) = s := by
    intro s
    induction s with
    | nil => rfl
    | cons c s ih => simp [ih, Item.chars]
  have hitems : ∀ item ∈ (pieces.map (List.map Item.blank)).flatten,
      ∃ c, item = .blank c ∧ c ∈ pieces.flatten := by
    intro item hitem
    rw [← List.map_flatten] at hitem
    obtain ⟨c, hc, rfl⟩ := List.mem_map.mp hitem
    exact ⟨c, rfl, hc⟩
  refine ⟨pieces.map (List.map .blank), ?_, ?_, ?_⟩
  · simp [List.map_map, Function.comp_def, hchars]
  · intro item hitem
    obtain ⟨c, rfl, hc⟩ := hitems item hitem
    exact hblank c hc
  · intro item hitem operator
    obtain ⟨c, rfl, _⟩ := hitems item hitem
    rfl

/-- If all matches lie apart and only blanks are left, the pieces are layouts that
are read exactly. The induction goes from the last pass to the first: what is
known of the pieces between the matches of a pass is put together around them. -/
theorem exists_layouts_of_apart (operators : List Operator) (hnodup : operators.Nodup)
    (pieces : List (List Char)) (hapart : Query.Apart operators pieces) (filters : List Filter)
    (residue : List Char)
    (hpasses : Query.readPasses operators pieces.flatten = .ok (filters, residue))
    (hblank : ∀ c ∈ residue, Text.isBlank c = true) :
    ∃ layouts : List Layout, layouts.map text = pieces ∧
      ReadsExactly operators layouts.flatten ∧ Proper layouts.flatten ∧
      ∀ item ∈ layouts.flatten, ∀ operator, operator ∉ operators → item.isOf operator = false := by
  induction operators generalizing pieces filters with
  | nil =>
      obtain ⟨rfl, rfl⟩ : [] = filters ∧ pieces.flatten = residue := by
        simpa [Query.readPasses] using hpasses
      obtain ⟨layouts, htext, hproper, hnone⟩ := exists_layouts_of_blanks pieces hblank
      exact ⟨layouts, htext, trivial, hproper, fun item hitem operator _ =>
        hnone item hitem operator⟩
  | cons operator operators ih =>
      obtain ⟨hfresh, hnodup⟩ := List.nodup_cons.mp hnodup
      obtain ⟨readings, hreads, rfl, hlater⟩ := hapart
      rw [flatten_map_spell, Query.readPasses_cons_eq_ok_iff,
        Template.scan_of_reads _ _ hreads] at hpasses
      obtain ⟨first, later, hfirst, hrest, -⟩ := hpasses
      obtain ⟨layouts, htext, hexact, hproper, hnone⟩ := ih hnodup (readings.flatMap gapPieces)
        hlater later (by rw [flatten_flatMap_gapPieces]; exact hrest)
      obtain ⟨whole, hviews, hwithout, hwhole⟩ := exists_layouts_of_readings operator readings
        (isClause_of_reads operator _ hreads first hfirst) layouts htext hproper
        fun item hitem => hnone item hitem operator hfresh
      refine ⟨whole, ?_, ⟨?_, ?_⟩, hwhole, ?_⟩
      · simp [← hviews, List.map_map, Function.comp_def]
      · rw [view_flatten, hviews]
        exact hreads
      · rw [hwithout]
        exact hexact
      · intro item hitem o ho
        simp only [List.mem_cons, not_or] at ho
        cases hof : item.isOf operator with
        | true =>
            cases item with
            | blank c => rfl
            | written clause =>
                have hop : clause.operator = operator := by simpa [Item.isOf] using hof
                simpa [Item.isOf, hop] using Ne.symm ho.1
        | false =>
            have hmem : item ∈ layouts.flatten := by
              rw [← hwithout]
              exact List.mem_filter.mpr ⟨hitem, by simp [hof]⟩
            exact hnone item hmem o ho.2

end Layout

namespace Query

/-- A clause with blanks before and behind it. -/
def spaced (part : List Char × Clause × List Char) : List Char :=
  part.1 ++ (part.2.1.chars ++ part.2.2)

/-- Clauses of the grammar joined by separators, with blanks before and behind them. -/
def IsConjunction (query : List Char) : Prop :=
  ∃ parts : List (List Char × Clause × List Char), parts ≠ [] ∧
    (∀ part ∈ parts, (∀ c ∈ part.1 ++ part.2.2, Text.isBlank c = true) ∧
      part.2.1.Grammatical) ∧
    query = Text.join separator (parts.map spaced)

/-- Every pass reads the query as the conjunction that it is. -/
def IsReadAsConjunction (query : List Char) : Prop :=
  ∃ layout : Layout, layout.text = query ++ separator ∧ layout.Proper ∧
    layout.ReadsExactly Operator.all

theorem exists_parts (layout : Layout) (hproper : layout.Proper) :
    ∃ (parts : List (List Char × Clause × List Char)) (trailing : List Char),
      layout.text = parts.flatMap (fun part => spaced part ++ separator) ++ trailing ∧
        (∀ c ∈ trailing, Text.isBlank c = true) ∧
        ∀ part ∈ parts, (∀ c ∈ part.1 ++ part.2.2, Text.isBlank c = true) ∧
          part.2.1.Grammatical := by
  induction layout with
  | nil => exact ⟨[], [], rfl, by simp, by simp⟩
  | cons item layout ih =>
      obtain ⟨parts, trailing, htext, htrailing, hparts⟩ := ih fun i hi => hproper i (by simp [hi])
      have hitem := hproper item (by simp)
      cases item with
      | written clause =>
          refine ⟨([], clause, []) :: parts, trailing, ?_, htrailing, ?_⟩
          · simp [htext, Item.chars, spaced]
          · intro part hpart
            rcases List.mem_cons.mp hpart with rfl | hpart
            · exact ⟨by simp, hitem⟩
            · exact hparts part hpart
      | blank c =>
          cases parts with
          | nil =>
              refine ⟨[], c :: trailing, by simpa [Item.chars] using htext, ?_, by simp⟩
              intro d hd
              exact (List.mem_cons.mp hd).elim (fun h => h ▸ hitem) (htrailing d)
          | cons part parts =>
              obtain ⟨before, clause, behind⟩ := part
              refine ⟨(c :: before, clause, behind) :: parts, trailing, ?_, htrailing, ?_⟩
              · simp [htext, Item.chars, spaced]
              · intro part hpart
                rcases List.mem_cons.mp hpart with rfl | hpart
                · obtain ⟨hblank, hgrammatical⟩ := hparts _ List.mem_cons_self
                  refine ⟨fun d hd => ?_, hgrammatical⟩
                  exact (List.mem_cons.mp hd).elim (fun h => h ▸ hitem) (hblank d)
                · exact hparts part (by simp [hpart])

/-- Behind the last separator there are no blanks, as the query ends with it. -/
theorem isConjunction_of_layout (query : List Char) (layout : Layout)
    (htext : layout.text = query ++ separator) (hproper : layout.Proper) :
    IsConjunction query := by
  obtain ⟨parts, trailing, hsplit, htrailing, hparts⟩ := exists_parts layout hproper
  rw [hsplit] at htext
  have hletter : ∀ s : List Char, (∀ c ∈ s, Text.isBlank c = true) → 'D' ∉ s := by
    intro s hs hmem
    exact absurd (hs 'D' hmem) (by decide)
  have hne : parts ≠ [] := by
    rintro rfl
    refine hletter trailing htrailing ?_
    rw [List.flatMap_nil, List.nil_append] at htext
    simp [htext, separator]
  have hjoin : parts.flatMap (fun part => spaced part ++ separator) =
      Text.join separator (parts.map spaced) ++ separator := by
    rw [Text.join_append_separator _ _ (by simpa using hne), List.flatMap_map]
  rw [hjoin] at htext
  have hnil : trailing = [] := by
    cases trailing with
    | nil => rfl
    | cons c trailing =>
        refine absurd ?_ (hletter (' ' :: c :: trailing) ?_)
        · have hends : (Text.join separator (parts.map spaced) ++ " AND".toList) ++
              ' ' :: c :: trailing = (query ++ " AN".toList) ++ ['D', ' '] := by
            simpa [separator] using htext
          rcases List.append_eq_append_iff.mp hends with ⟨more, _, hmore⟩ | ⟨more, _, hmore⟩
          · simp [hmore]
          · have hlength := congrArg List.length hmore
            simp only [List.length_append, List.length_cons, List.length_nil] at hlength
            obtain rfl : more = [] := List.length_eq_zero_iff.mp (by omega)
            simp at hmore
        · intro d hd
          rcases List.mem_cons.mp hd with rfl | hd
          · decide
          · exact htrailing d hd
  subst hnil
  rw [List.append_nil] at htext
  exact ⟨parts, hne, hparts, (List.append_cancel_right htext).symm⟩

/-- A query that is accepted and not blank is read as the conjunction that it
is, if and only if no pass finds a clause across a place where another clause
was taken out. So a text that is no conjunction is accepted only where a match
joins what is apart. -/
theorem accepted_apart_iff (query : String) (filters : Query)
    (hblank : (Text.trim query.toList).isEmpty = false) (hparse : parse query = .ok filters) :
    (IsReadAsConjunction query.toList ↔ Apart Operator.all [query.toList ++ separator]) ∧
      (Apart Operator.all [query.toList ++ separator] → IsConjunction query.toList) := by
  have hlayout : Apart Operator.all [query.toList ++ separator] →
      IsReadAsConjunction query.toList := by
    intro hapart
    obtain ⟨residue, hpasses, hresidue⟩ := (parseChars_eq_ok_iff _ _ hblank).mp hparse
    obtain ⟨layouts, htext, hexact, hproper, _⟩ := Layout.exists_layouts_of_apart Operator.all
      (by decide) [query.toList ++ separator] hapart filters residue (by simpa using hpasses)
      hresidue
    obtain ⟨layout, rfl, hsame⟩ := List.map_eq_singleton_iff.mp htext
    exact ⟨layout, hsame, by simpa using hproper, by simpa using hexact⟩
  refine ⟨⟨?_, hlayout⟩, ?_⟩
  · rintro ⟨layout, htext, _, hexact⟩
    have := Layout.apart_of_readsExactly Operator.all [layout] (by simpa using hexact)
    simpa [htext] using this
  · intro hapart
    obtain ⟨layout, htext, hproper, _⟩ := hlayout hapart
    exact isConjunction_of_layout _ layout htext hproper

/-- A comparison is accepted, and is read as the conjunction that it is. -/
theorem accepted_apart_iff_of_comparison :
    (Text.trim "x=1".toList).isEmpty = false ∧
      parse "x=1" = .ok [⟨.equal, ⟨"x"⟩, [.plain "1"], rfl⟩] ∧
      (IsReadAsConjunction "x=1".toList ↔ Apart Operator.all ["x=1".toList ++ separator]) ∧
      (Apart Operator.all ["x=1".toList ++ separator] → IsConjunction "x=1".toList) := by
  have hblank : (Text.trim "x=1".toList).isEmpty = false := by decide
  have hparse : parse "x=1" = .ok [⟨.equal, ⟨"x"⟩, [.plain "1"], rfl⟩] :=
    eq_ok_of_toOption (by decide +kernel)
  exact ⟨hblank, hparse, accepted_apart_iff "x=1" _ hblank hparse⟩

/-- Whether a blank stands at the end of the text or before another one. -/
def hasLooseBlank : List Char → Bool
  | [] => false
  | c :: rest => (Text.isBlank c && rest.head?.all Text.isBlank) || hasLooseBlank rest

theorem hasLooseBlank_append (s : List Char) (c : Char) (rest : List Char)
    (hc : Text.isBlank c = true) (hrest : rest.head?.all Text.isBlank = true) :
    hasLooseBlank (s ++ c :: rest) = true := by
  induction s with
  | nil => simp [hasLooseBlank, hc, hrest]
  | cons d s ih => simp [hasLooseBlank, ih]

/-- A conjunction without loose blanks, and without one at its start, begins with
a clause and a separator once a separator is put behind it. -/
theorem exists_match_of_isConjunction (query : List Char) (h : IsConjunction query)
    (hstart : query.head?.all (!Text.isBlank ·) = true) (hloose : hasLooseBlank query = false) :
    ∃ operator, ((clause operator).match? (query ++ separator)).isSome = true := by
  obtain ⟨parts, hne, hparts, rfl⟩ := h
  obtain ⟨⟨before, c, behind⟩, parts, rfl⟩ := List.exists_cons_of_ne_nil hne
  obtain ⟨hblank, hgrammatical⟩ := hparts _ List.mem_cons_self
  obtain ⟨tail, hquery, htail⟩ : ∃ tail, Text.join separator
      (((before, c, behind) :: parts).map spaced) = before ++ (c.chars ++ (behind ++ tail)) ∧
        (tail = [] ∨ ∃ more, tail = separator ++ more) := by
    cases parts with
    | nil => exact ⟨[], by simp [Text.join, spaced], .inl rfl⟩
    | cons part parts =>
        refine ⟨separator ++ Text.join separator ((part :: parts).map spaced), ?_, .inr ⟨_, rfl⟩⟩
        simp [Text.join, spaced]
  rw [hquery] at hstart hloose ⊢
  cases before with
  | cons d before => simp [hblank d (by simp)] at hstart
  | nil =>
      cases behind with
      | nil =>
          obtain ⟨rest, hrest⟩ : ∃ rest, tail ++ separator = separator ++ rest := by
            rcases htail with rfl | ⟨more, rfl⟩
            · exact ⟨[], by simp⟩
            · exact ⟨more ++ separator, by simp⟩
          refine ⟨c.operator, Template.match?_isSome_of_fits _ _ c.parts rest ?_⟩
          refine (Clause.fits_iff _ _ _ _).mpr ⟨c, rfl, hgrammatical.toShaped, ?_, rfl⟩
          simp [hrest]
      | cons d behind =>
          have htrue := hasLooseBlank_append c.chars d (behind ++ tail) (hblank d (by simp)) (by
            cases behind with
            | cons e behind => simpa using hblank e (by simp)
            | nil =>
                rcases htail with rfl | ⟨more, rfl⟩
                · rfl
                · rfl)
          simp [htrue] at hloose

/-- A comparison within a range: it is read, and so is the range without it. -/
theorem embedded_comparison_is_accepted :
    (parse "y BETWEEN 1 AND x=1 AND 2").toOption =
        some [⟨.equal, ⟨"x"⟩, [.plain "1"], rfl⟩,
          ⟨.between, ⟨"y"⟩, [.plain "1", .plain "2"], rfl⟩] ∧
      ¬IsConjunction "y BETWEEN 1 AND x=1 AND 2".toList := by
  refine ⟨by decide +kernel, fun h => ?_⟩
  obtain ⟨operator, hmatch⟩ := exists_match_of_isConjunction _ h (by decide) (by decide)
  have hnone : ∀ operator ∈ Operator.all, ((clause operator).match?
      ("y BETWEEN 1 AND x=1 AND 2".toList ++ separator)).isSome = false := by
    decide +kernel
  rw [hnone operator (Operator.mem_all operator)] at hmatch
  exact absurd hmatch (by simp)

end Query

end RecordQuery
