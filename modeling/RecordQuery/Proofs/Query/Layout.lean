import RecordQuery.Proofs.Query.Starting

/-!
Layouts: queries as rows of clauses and blanks, each clause with the separator
behind it. The view that a pass has of a layout shows the clauses of its
operator as matches and everything else as gaps. A query is read exactly when
the view of every pass is the reading of the text that is left for it.

A pass fails to read a layout exactly in one case: a clause of its operator
shows up in a place that is quoted. Everywhere else clauses start only where
they are written.
-/

namespace RecordQuery

open Pattern Text Segment

/-- A clause with the separator behind it, or a blank. -/
inductive Item where
  | blank (c : Char)
  | written (clause : Clause)

/-- A query with a separator behind it. -/
abbrev Layout := List Item

namespace Item

def chars : Item → List Char
  | .blank c => [c]
  | .written clause => clause.chars ++ Query.separator

/-- The item is a clause of the operator. -/
def isOf (operator : Operator) : Item → Bool
  | .blank _ => false
  | .written clause => clause.operator = operator

/-- What a pass sees of the item: a match, or gaps. -/
def view (operator : Operator) (item : Item) : List Segment :=
  match item with
  | .blank c => [.gap c]
  | .written clause =>
    if clause.operator = operator then [.found item.chars clause.parts]
    else item.chars.map .gap

/-- Blanks are blank, and clauses are clauses of the grammar. -/
def Proper : Item → Prop
  | .blank c => Text.isBlank c = true
  | .written clause => clause.Grammatical

end Item

namespace Layout

def text (layout : Layout) : List Char :=
  layout.flatMap Item.chars

/-- The clauses in textual order. -/
def clauses (layout : Layout) : List Clause :=
  layout.filterMap fun
    | .blank _ => none
    | .written clause => some clause

/-- What is left when a pass has taken out the clauses of its operator. -/
def without (operator : Operator) (layout : Layout) : Layout :=
  layout.filter fun item => !item.isOf operator

def view (operator : Operator) (layout : Layout) : List Segment :=
  layout.flatMap (Item.view operator)

/-- Every pass finds the clauses of its operator and nothing else. -/
def ReadsExactly : List Operator → Layout → Prop
  | [], _ => True
  | operator :: operators, layout =>
    (Query.clause operator).Reads (layout.view operator) ∧
      ReadsExactly operators (layout.without operator)

/-- Between quotes of a clause of another operator the template of the operator matches. -/
def Shows (operator : Operator) (layout : Layout) : Prop :=
  ∃ first clause later before after, layout = first ++ Item.written clause :: later ∧
    clause.operator ≠ operator ∧ clause.chars ++ Query.separator = before ++ after ∧
    endsInside false before = true ∧
    ((Query.clause operator).match? (after ++ text later)).isSome = true

/-- Some pass finds a clause between quotes in what is left for it. -/
def Conceals : List Operator → Layout → Prop
  | [], _ => False
  | operator :: operators, layout =>
    layout.Shows operator ∨ Conceals operators (layout.without operator)

@[simp] theorem text_nil : text [] = [] := rfl

@[simp] theorem text_cons (item : Item) (layout : Layout) :
    text (item :: layout) = item.chars ++ text layout := by
  simp [text]

@[simp] theorem text_append (first later : Layout) :
    text (first ++ later) = text first ++ text later := by
  simp [text]

@[simp] theorem view_nil (operator : Operator) : view operator [] = [] := rfl

@[simp] theorem view_cons (operator : Operator) (item : Item) (layout : Layout) :
    view operator (item :: layout) = item.view operator ++ view operator layout := by
  simp [view]

@[simp] theorem view_append (operator : Operator) (first later : Layout) :
    view operator (first ++ later) = view operator first ++ view operator later := by
  simp [view]

@[simp] theorem clauses_nil : clauses [] = [] := rfl

@[simp] theorem clauses_blank (c : Char) (layout : Layout) :
    clauses (.blank c :: layout) = clauses layout := rfl

@[simp] theorem clauses_written (clause : Clause) (layout : Layout) :
    clauses (.written clause :: layout) = clause :: clauses layout := rfl

@[simp] theorem without_nil (operator : Operator) : without operator [] = [] := rfl

@[simp] theorem without_blank (operator : Operator) (c : Char) (layout : Layout) :
    without operator (.blank c :: layout) = .blank c :: without operator layout := rfl

@[simp] theorem without_written (operator : Operator) (clause : Clause) (layout : Layout) :
    without operator (.written clause :: layout) =
      if clause.operator = operator then without operator layout
      else .written clause :: without operator layout := by
  by_cases h : clause.operator = operator <;> simp [without, Item.isOf, h]

@[simp] theorem clauses_append (first later : Layout) :
    clauses (first ++ later) = clauses first ++ clauses later := by
  simp [clauses]

theorem without_append (operator : Operator) (first later : Layout) :
    without operator (first ++ later) = without operator first ++ without operator later := by
  simp [without]

theorem mem_clauses (layout : Layout) (clause : Clause) :
    clause ∈ layout.clauses ↔ Item.written clause ∈ layout := by
  simp only [clauses, List.mem_filterMap]
  constructor
  · rintro ⟨item, hitem, h⟩
    cases item with
    | blank c => simp at h
    | written clause' =>
        simp only [Option.some.injEq] at h
        exact h ▸ hitem
  · exact fun h => ⟨_, h, rfl⟩

/-- A view spells the layout. -/
@[simp] theorem spell_view (operator : Operator) (layout : Layout) :
    spell (layout.view operator) = layout.text := by
  induction layout with
  | nil => rfl
  | cons item layout ih =>
      rw [view_cons, spell_append, ih, text_cons]
      congr 1
      cases item with
      | blank c => rfl
      | written clause =>
          simp only [Item.view]
          split
          · simp [Segment.chars]
          · exact spell_map_gap _

/-- What a pass leaves behind, if it reads the layout. -/
theorem outside_view (operator : Operator) (layout : Layout) :
    outside (layout.view operator) = (layout.without operator).text := by
  induction layout with
  | nil => rfl
  | cons item layout ih =>
      rw [view_cons, outside_append, ih]
      cases item with
      | blank c => rfl
      | written clause =>
          by_cases h : clause.operator = operator
          · simp [Item.view, h, outside]
          · simp [Item.view, h]

theorem kept_view (operator : Operator) (layout : Layout) :
    kept (layout.view operator) =
      (layout.clauses.filter (·.operator = operator)).map Clause.parts := by
  induction layout with
  | nil => rfl
  | cons item layout ih =>
      rw [view_cons, kept_append, ih]
      cases item with
      | blank c => rfl
      | written clause =>
          by_cases h : clause.operator = operator
          · simp [Item.view, h, kept]
          · simp [Item.view, h]

theorem clauses_without (operator : Operator) (layout : Layout) :
    (layout.without operator).clauses = layout.clauses.filter (·.operator ≠ operator) := by
  induction layout with
  | nil => rfl
  | cons item layout ih =>
      cases item with
      | blank c => simpa using ih
      | written clause =>
          by_cases h : clause.operator = operator
          · simpa [h] using ih
          · simpa [h] using ih

theorem view_of_not_isOf (operator : Operator) (layout : Layout)
    (h : ∀ item ∈ layout, item.isOf operator = false) :
    layout.view operator = layout.text.map .gap ∧ layout.without operator = layout := by
  induction layout with
  | nil => exact ⟨rfl, rfl⟩
  | cons item layout ih =>
      obtain ⟨hview, hwithout⟩ := ih fun i hi => h i (by simp [hi])
      have hitem := h item (by simp)
      cases item with
      | blank c => simp [Item.view, Item.chars, hview, hwithout]
      | written clause =>
          have hop : clause.operator ≠ operator := by simpa [Item.isOf] using hitem
          simp [Item.view, hop, hview, hwithout]

/-! One pass. -/

/-- Every item is a blank or a clause of the grammar. -/
def Proper (layout : Layout) : Prop :=
  ∀ item ∈ layout, item.Proper

theorem Proper.without {layout : Layout} (h : layout.Proper) (operator : Operator) :
    (layout.without operator).Proper :=
  fun item hitem => h item (List.mem_filter.mp hitem).1

/-- The layout of a conjunction, without blanks. -/
def ofClauses (clauses : List Clause) : Layout :=
  clauses.map .written

@[simp] theorem clauses_ofClauses (clauses : List Clause) :
    (ofClauses clauses).clauses = clauses := by
  induction clauses with
  | nil => rfl
  | cons clause clauses ih => simpa [ofClauses] using ih

theorem text_ofClauses (clauses : List Clause) (hne : clauses ≠ []) :
    (ofClauses clauses).text =
      Text.join Query.separator (clauses.map Clause.chars) ++ Query.separator := by
  rw [join_append_separator _ _ (by simpa using hne)]
  simp [ofClauses, text, List.flatMap_map, Item.chars]

theorem proper_ofClauses (clauses : List Clause) (h : ∀ clause ∈ clauses, clause.Grammatical) :
    (ofClauses clauses).Proper := by
  intro item hitem
  obtain ⟨clause, hclause, rfl⟩ := List.mem_map.mp hitem
  exact h clause hclause

theorem match?_blank (operator : Operator) (c : Char) (s : List Char)
    (hc : Text.isBlank c = true) : (Query.clause operator).match? (c :: s) = none := by
  rw [Template.match?_eq_none_iff _ (Clause.clause_bounded operator)]
  intro parts rest hfits
  obtain ⟨clause, _, hshaped, heq, _⟩ := (Clause.fits_iff _ _ _ _).mp hfits
  obtain ⟨d, tail, hcons, hd⟩ := hshaped.exists_chars_eq_cons
  rw [hcons, List.cons_append, List.cons.injEq] at heq
  have := Grammar.isBlank_eq_false d hd
  rw [← heq.1, hc] at this
  exact absurd this (by simp)

/-- If the view is the reading, nothing shows between quotes. -/
theorem not_shows_of_reads (operator : Operator) (layout : Layout) (hproper : layout.Proper)
    (h : (Query.clause operator).Reads (layout.view operator)) : ¬layout.Shows operator := by
  rintro ⟨first, clause, later, before, after, rfl, hop, hsplit, hinside, hmatch⟩
  have hgrammatical : clause.Grammatical := hproper (.written clause) (by simp)
  have hne : after ≠ [] := by
    rintro rfl
    have hclosed : endsInside false (clause.chars ++ Query.separator) = false := by
      rw [endsInside_append, hgrammatical.closed, Clause.endsInside_separator]
    rw [hsplit, List.append_nil, hinside] at hclosed
    exact absurd hclosed (by simp)
  have hgaps : Item.view operator (.written clause) =
      (clause.chars ++ Query.separator).map .gap := by
    rw [Item.view, if_neg hop, Item.chars]
  rw [view_append, view_cons, hgaps] at h
  have hnone := h.append_right.match?_gap before after hsplit hne
  rw [spell_view] at hnone
  simp [hnone] at hmatch

/-- Outside quotes no clause starts but where it is written, so that a pass
reads the layout unless a clause shows between quotes. The last operator is the
spatial one, for which there must be no other clauses. -/
theorem reads_of_not_shows (operator : Operator) (layout : Layout) (hproper : layout.Proper)
    (hspatial : operator.isSpatial = true → ∀ clause ∈ layout.clauses, clause.operator = operator)
    (h : ¬layout.Shows operator) : (Query.clause operator).Reads (layout.view operator) := by
  induction layout with
  | nil => exact .nil
  | cons item layout ih =>
      have hitem := hproper item (by simp)
      have hlater : (Query.clause operator).Reads (view operator layout) := by
        refine ih (fun i hi => hproper i (by simp [hi])) ?_ ?_
        · intro hs clause hclause
          refine hspatial hs clause ?_
          rw [mem_clauses] at hclause ⊢
          simp [hclause]
        · rintro ⟨first, clause, later, before, after, rfl, hrest⟩
          exact h ⟨item :: first, clause, later, before, after, rfl, hrest⟩
      rw [view_cons]
      cases item with
      | blank c => exact .gap c _ (match?_blank operator c _ hitem) hlater
      | written clause =>
          by_cases hop : clause.operator = operator
          · subst hop
            have hmatch := Clause.match_clause clause hitem (spell (view clause.operator layout))
            rw [Item.view, if_pos rfl, Item.chars]
            refine .found _ _ _ (by simp [Query.separator]) ?_ hlater
            rw [List.append_assoc]
            exact hmatch
          · rw [Item.view, if_neg hop, Item.chars]
            refine Template.reads_append_gaps _ _ _ ?_ hlater
            intro before after hsplit hne
            rw [spell_view, Template.match?_eq_none_iff _ (Clause.clause_bounded operator)]
            intro parts rest hfits
            obtain ⟨clause', hop', hshaped, heq, _⟩ := (Clause.fits_iff _ _ _ _).mp hfits
            cases hinside : endsInside false before with
            | true =>
                refine h ⟨[], clause, layout, before, after, rfl, hop, hsplit, hinside, ?_⟩
                exact Template.match?_isSome_of_fits _ _ _ _ hfits
            | false =>
                have hs : clause'.operator.isSpatial = false := by
                  rw [hop']
                  cases hs : operator.isSpatial with
                  | false => rfl
                  | true => exact absurd (hspatial hs clause (by simp)) hop
                obtain ⟨hsame, _⟩ := Clause.start_of_fits clause clause' hitem hshaped hs before
                  after (text layout) rest hsplit hne hinside heq
                exact hop (hsame.trans hop')

/-! All passes. -/

/-- No pass comes after the one of the spatial operator. -/
theorem eq_nil_of_spatial (operator : Operator) (operators : List Operator)
    (h : operator :: operators <:+ Operator.all) (hs : operator.isSpatial = true) :
    operators = [] := by
  have hfirst : ∀ operator ∈ Operator.all.dropLast, operator.isSpatial = false := by decide
  obtain ⟨done, hall⟩ := h
  cases operators with
  | nil => rfl
  | cons next operators =>
      have hmem : operator ∈ Operator.all.dropLast := by simp [← hall]
      rw [hfirst operator hmem] at hs
      exact absurd hs (by simp)

/-- A query is read exactly if and only if no clause shows between quotes in
what is left for a pass. -/
theorem readsExactly_iff (operators : List Operator) (layout : Layout)
    (hoperators : operators <:+ Operator.all) (hproper : layout.Proper)
    (hclauses : ∀ clause ∈ layout.clauses, clause.operator ∈ operators) :
    layout.ReadsExactly operators ↔ ¬layout.Conceals operators := by
  induction operators generalizing layout with
  | nil => simp [ReadsExactly, Conceals]
  | cons operator operators ih =>
      have hstep : (Query.clause operator).Reads (layout.view operator) ↔
          ¬layout.Shows operator := by
        refine ⟨not_shows_of_reads operator layout hproper, reads_of_not_shows operator layout
          hproper ?_⟩
        intro hs clause hclause
        have := hclauses clause hclause
        rw [eq_nil_of_spatial operator operators hoperators hs] at this
        simpa using this
      have hlater := ih (layout.without operator)
        ((List.suffix_cons operator operators).trans hoperators) (hproper.without operator) (by
          intro clause hclause
          rw [clauses_without, List.mem_filter] at hclause
          have := hclauses clause hclause.1
          simpa [of_decide_eq_true hclause.2] using this)
      rw [ReadsExactly, Conceals, hstep, hlater, not_or]

end Layout

end RecordQuery
