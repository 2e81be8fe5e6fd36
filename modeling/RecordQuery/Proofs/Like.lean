import RecordQuery.Proofs.Evaluator.Misfit
import RecordQuery.Proofs.Text.Pieces

/-!
Text patterns of `LIKE`. The percent signs of a pattern cut it into pieces, and a text is
of its form if it consists of these pieces with any texts between them. The match lets no
line end in between, so that a text of the form is matched only if it has as many line
ends as the pattern.
-/

namespace RecordQuery

open Text

namespace Like

/-! One character of the pattern after another. -/

/-- The match of all ends of a text is that of the text and of all ends of the rest. -/
theorem rows_cons (caseless : Bool) (pattern : List Char) (d : Char) (text : List Char) :
    rows caseless pattern (d :: text) =
      accepts caseless pattern (d :: text) :: rows caseless pattern text := by
  have hcons : ∃ here, rows caseless pattern (d :: text) = here :: rows caseless pattern text := by
    induction pattern with
    | nil => exact ⟨false, rfl⟩
    | cons c pattern ih =>
        obtain ⟨here, hrow⟩ := ih
        rw [rows, rows, hrow]
        split
        · exact ⟨_, rfl⟩
        · exact ⟨_, rfl⟩
  obtain ⟨here, hrow⟩ := hcons
  rw [accepts, hrow, List.headD_cons]

theorem accepts_nil (caseless : Bool) (text : List Char) :
    accepts caseless [] text = true ↔ text = [] := by
  cases text <;> simp [accepts, rows]

theorem accepts_percent_nil (caseless : Bool) (pattern : List Char) :
    accepts caseless ('%' :: pattern) [] = accepts caseless pattern [] :=
  rfl

theorem accepts_percent_cons (caseless : Bool) (pattern : List Char) (d : Char)
    (text : List Char) :
    accepts caseless ('%' :: pattern) (d :: text) =
      (accepts caseless pattern (d :: text) ||
        (d != '\n' && accepts caseless ('%' :: pattern) text)) := by
  have hrow : rows caseless ('%' :: pattern) (d :: text) =
      gapRow (d :: text) (rows caseless pattern (d :: text)) := rfl
  rw [accepts, hrow, rows_cons]
  rfl

theorem accepts_char_nil (caseless : Bool) {c : Char} (hc : c ≠ '%') (pattern : List Char) :
    accepts caseless (c :: pattern) [] = false := by
  rw [accepts, rows, if_neg hc]
  rfl

theorem accepts_char_cons (caseless : Bool) {c : Char} (hc : c ≠ '%') (pattern : List Char)
    (d : Char) (text : List Char) :
    accepts caseless (c :: pattern) (d :: text) =
      (sameChar caseless c d && accepts caseless pattern text) := by
  rw [accepts, rows, if_neg hc, rows_cons]
  rfl

/-- A percent sign stands for what is on one line. -/
theorem accepts_percent_iff (caseless : Bool) (pattern text : List Char) :
    accepts caseless ('%' :: pattern) text = true ↔
      ∃ gap rest, text = gap ++ rest ∧ '\n' ∉ gap ∧ accepts caseless pattern rest = true := by
  induction text with
  | nil =>
      rw [accepts_percent_nil]
      constructor
      · intro h
        exact ⟨[], [], rfl, List.not_mem_nil, h⟩
      · rintro ⟨gap, rest, heq, _, h⟩
        rwa [(List.append_eq_nil_iff.mp heq.symm).2] at h
  | cons d text ih =>
      rw [accepts_percent_cons, Bool.or_eq_true, Bool.and_eq_true, bne_iff_ne, ih]
      constructor
      · rintro (h | ⟨hd, gap, rest, rfl, hgap, h⟩)
        · exact ⟨[], d :: text, rfl, List.not_mem_nil, h⟩
        · exact ⟨d :: gap, rest, rfl, by simp [hgap, Ne.symm hd], h⟩
      · rintro ⟨gap, rest, heq, hgap, h⟩
        cases gap with
        | nil =>
            rw [List.nil_append] at heq
            exact .inl (heq ▸ h)
        | cons e gap =>
            obtain ⟨rfl, rfl⟩ := List.cons.inj heq
            rw [List.mem_cons, not_or] at hgap
            exact .inr ⟨Ne.symm hgap.1, gap, rest, rfl, hgap.2, h⟩

/-! Pieces and what is between them. -/

/-- The text consists of the pieces in their order, with a text that is allowed there
between each two of them. -/
inductive Joins (allowed : List Char → Prop) : List (List Char) → List Char → Prop
  | last (piece : List Char) : Joins allowed [piece] piece
  | gap (piece gap rest : List Char) (pieces : List (List Char)) (hallowed : allowed gap)
      (h : Joins allowed pieces rest) : Joins allowed (piece :: pieces) (piece ++ gap ++ rest)

variable {allowed : List Char → Prop}

theorem joins_singleton_iff (piece text : List Char) :
    Joins allowed [piece] text ↔ text = piece := by
  constructor
  · intro h
    cases h with
    | last => rfl
    | gap _ _ _ _ _ h => cases h
  · rintro rfl
    exact .last _

theorem joins_cons_iff (piece : List Char) {pieces : List (List Char)} (hne : pieces ≠ [])
    (text : List Char) :
    Joins allowed (piece :: pieces) text ↔
      ∃ gap rest, text = piece ++ gap ++ rest ∧ allowed gap ∧ Joins allowed pieces rest := by
  constructor
  · intro h
    cases h with
    | last => exact absurd rfl hne
    | gap _ gap rest _ hallowed h => exact ⟨gap, rest, rfl, hallowed, h⟩
  · rintro ⟨gap, rest, rfl, hallowed, h⟩
    exact .gap piece gap rest pieces hallowed h

/-- A character more in the first piece is a character more in the text. -/
theorem joins_cons_cons_iff (c : Char) (piece : List Char) (pieces : List (List Char))
    (text : List Char) :
    Joins allowed ((c :: piece) :: pieces) text ↔
      ∃ rest, text = c :: rest ∧ Joins allowed (piece :: pieces) rest := by
  by_cases hne : pieces = []
  · subst hne
    simp [joins_singleton_iff]
  · simp only [joins_cons_iff _ hne]
    constructor
    · rintro ⟨gap, rest, rfl, hallowed, h⟩
      exact ⟨_, rfl, gap, rest, rfl, hallowed, h⟩
    · rintro ⟨_, rfl, gap, rest, rfl, hallowed, h⟩
      exact ⟨gap, rest, rfl, hallowed, h⟩

/-- What is matched consists of the pieces of the pattern with no line end between them. -/
theorem accepts_iff_joins (pattern text : List Char) :
    accepts false pattern text = true ↔ Joins ('\n' ∉ ·) (pieces '%' pattern) text := by
  induction pattern generalizing text with
  | nil => rw [accepts_nil, pieces_nil, joins_singleton_iff]
  | cons c pattern ih =>
      by_cases hc : c = '%'
      · subst hc
        rw [accepts_percent_iff, pieces_cons_self, joins_cons_iff _ (pieces_ne_nil '%' pattern)]
        simp [ih]
      · obtain ⟨piece, more, hpieces, hcons⟩ := pieces_cons_of_ne '%' hc pattern
        rw [hcons, joins_cons_cons_iff, ← hpieces]
        cases text with
        | nil => simp [accepts_char_nil false hc]
        | cons d text => simp [accepts_char_cons false hc, sameChar, ih, and_assoc, @eq_comm _ c]

/-! Line ends. -/

theorem count_flatten_pieces {separator c : Char} (hc : c ≠ separator) (s : List Char) :
    (pieces separator s).flatten.count c = s.count c := by
  induction s with
  | nil => rfl
  | cons d s ih =>
      by_cases hd : d = separator
      · subst hd
        simp [pieces_cons_self, ih, List.count_cons_of_ne (Ne.symm hc)]
      · obtain ⟨piece, more, hpieces, hcons⟩ := pieces_cons_of_ne separator hd s
        rw [hpieces] at ih
        simp only [hcons, List.flatten_cons, List.cons_append, List.count_cons] at ih ⊢
        rw [ih]

theorem Joins.count_flatten_le {pieces : List (List Char)} {text : List Char} (c : Char)
    (h : Joins allowed pieces text) : pieces.flatten.count c ≤ text.count c := by
  induction h with
  | last piece => simp
  | gap piece gap rest pieces _ _ ih =>
      simp only [List.flatten_cons, List.count_append]
      omega

/-- No character of a kind is between the pieces just if the pieces have as many of them
as the text. -/
theorem joins_not_mem_iff (c : Char) (pieces : List (List Char)) (text : List Char) :
    Joins (c ∉ ·) pieces text ↔
      Joins (fun _ => True) pieces text ∧ text.count c = pieces.flatten.count c := by
  constructor
  · intro h
    induction h with
    | last piece => exact ⟨.last piece, by simp⟩
    | gap piece gap rest pieces hgap _ ih =>
        refine ⟨.gap piece gap rest pieces trivial ih.1, ?_⟩
        simp [List.count_append, List.count_eq_zero.mpr hgap, ih.2]
  · rintro ⟨h, hcount⟩
    induction h with
    | last piece => exact .last piece
    | gap piece gap rest pieces _ h ih =>
        have hle := h.count_flatten_le c
        simp only [List.flatten_cons, List.count_append] at hcount
        exact .gap piece gap rest pieces (List.count_eq_zero.mp (by omega)) (ih (by omega))

/-- A text is matched if it is of the form of the pattern and has as many line ends. -/
theorem accepts_iff (pattern text : List Char) :
    accepts false pattern text = true ↔
      Joins (fun _ => True) (pieces '%' pattern) text ∧ text.count '\n' = pattern.count '\n' := by
  rw [accepts_iff_joins, joins_not_mem_iff, count_flatten_pieces (by decide)]

end Like

/-- The written scalar consists of the pieces of the pattern between its percent signs,
with any texts between them. -/
def Scalar.IsOfForm (scalar : Scalar) (pattern : String) : Prop :=
  Like.Joins (fun _ => True) (pieces '%' pattern.toList) scalar.render.toList

/-- What a filter is asked about: what the function around the property gives on a leaf of
the value, or the leaf itself if there is no function. -/
def Value.IsAskedOf (value : Value) (function : Option Function) (scalar : Scalar) : Prop :=
  ∃ leaf ∈ value.leaves, function.elim (some leaf) (·.applyTo? leaf) = some scalar

namespace Evaluator

/-- A text pattern keeps a record if what it is asked of has its form and, between the
percent signs and around them, all of its line ends. -/
theorem like_keeps_iff {α : Type} (schema : Schema α) (reference : PropertyRef)
    (pattern : String) (evaluator : Evaluator α)
    (hcompile : compile schema [⟨.like, reference, [.plain pattern], rfl⟩] = .ok evaluator)
    (item : α) :
    ∃ subject value, schema.subject reference = .ok subject ∧
      subject.property.value? item = some value ∧
      (evaluator.keeps item = true ↔
        ∃ scalar, value.IsAskedOf subject.function scalar ∧ scalar.IsOfForm pattern ∧
          scalar.render.toList.count '\n' = pattern.toList.count '\n') := by
  obtain ⟨condition, hcondition, hkeeps⟩ := exists_condition_of_compile schema _ rfl _ hcompile
  obtain ⟨⟨subject, operands⟩, hresolution, hpasses⟩ :=
    passes_iff_of_compileFilter schema _ condition hcondition
  obtain ⟨hsubject, _, hoperands⟩ := (resolution_eq_ok_iff _ _ _).mp hresolution
  obtain rfl : [Scalar.text pattern] = operands := Except.ok.inj hoperands
  obtain ⟨value, hvalue, hholds⟩ := hpasses item
  refine ⟨subject, value, hsubject, hvalue, ?_⟩
  rw [hkeeps, hholds]
  simp only [Operator.Holds, Operator.Accepts, Scalar.IsLike, Like.accepts_iff, Value.IsAskedOf,
    Scalar.IsOfForm]
  constructor
  · rintro ⟨leaf, hleaf, scalar, hscalar, hform⟩
    exact ⟨scalar, ⟨leaf, hleaf, hscalar⟩, hform⟩
  · rintro ⟨scalar, ⟨leaf, hleaf, hscalar⟩, hform⟩
    exact ⟨leaf, hleaf, scalar, hscalar, hform⟩

/-- A number among others, by its digits. -/
theorem like_keeps_iff_of_number :
    let schema : Schema Value := .ofValues "size" .integer
    let value : Value := .list [.undefined, .defined (.scalar (.integer (-10245)))]
    ∃ evaluator, compile schema [⟨.like, ⟨"size"⟩, [.plain "-1%4%"], rfl⟩] = .ok evaluator ∧
      evaluator.keeps value = true := by
  intro schema value
  refine ⟨_, rfl, ?_⟩
  obtain ⟨subject, value', hsubject, hvalue, hkeeps⟩ :=
    like_keeps_iff schema ⟨"size"⟩ "-1%4%" _ rfl value
  obtain rfl := Except.ok.inj hsubject
  obtain rfl := Option.some.inj hvalue
  refine hkeeps.mpr ⟨.integer (-10245), ⟨.integer (-10245), .head _, rfl⟩, ?_, by decide⟩
  have hjoins : Like.Joins (fun _ => True) [['-', '1'], ['4'], []] (['-', '1'] ++ ['0', '2'] ++
      (['4'] ++ ['5'] ++ [])) := .gap _ _ _ _ trivial (.gap _ _ _ _ trivial (.last _))
  have hpieces : pieces '%' "-1%4%".toList = [['-', '1'], ['4'], []] := by decide
  rw [Scalar.IsOfForm, hpieces]
  exact hjoins

/-- A text of two lines is of the form of a pattern and not kept by it. -/
theorem like_stops_at_line_end :
    (Scalar.text "x\ny").IsOfForm "x%y" ∧
      (Query.parse "a LIKE 'x%y'" >>= fun query =>
        compile (.ofValues "a" .text) query).toOption.map (·.keeps (.scalar (.text "x\ny"))) =
          some false := by
  refine ⟨?_, by decide +kernel⟩
  have hjoins : Like.Joins (fun _ => True) [['x'], ['y']] (['x'] ++ ['\n'] ++ ['y']) :=
    .gap _ _ _ _ trivial (.last _)
  have hpieces : pieces '%' "x%y".toList = [['x'], ['y']] := by decide
  rw [Scalar.IsOfForm, hpieces]
  exact hjoins

end Evaluator

end RecordQuery
