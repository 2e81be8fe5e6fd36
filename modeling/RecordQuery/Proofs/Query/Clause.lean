import RecordQuery.Query
import RecordQuery.Proofs.Polygon

/-!
Clauses as they are written. A clause consists of its operator, the text of its
property and the texts of its operands. It has the shape of the grammar when
these are tokens of the grammar and there are as many operands as the operator
takes; a spatial clause is grammatical if its polygon is one.

The template of an operator fits a text exactly where the text begins with a
clause of the operator and the separator behind it.
-/

namespace RecordQuery

open Pattern

/-- A clause as it is written. -/
structure Clause where
  operator : Operator
  property : List Char
  operands : List (List Char)

namespace Clause

/-- What stands between the property and the operands of a clause. -/
def sign (operator : Operator) : List Char :=
  if operator.isComparison then operator.keyword.toList
  else if operator.arity = .none then (" " ++ operator.keyword).toList
  else (" " ++ operator.keyword ++ " ").toList

/-- The token class of an operand. -/
def token (operator : Operator) : Pattern :=
  if operator.isPattern then Grammar.string
  else if operator.isSpatial then Grammar.polygon
  else Grammar.literal

/-- The operands as they are written behind the sign. -/
def operandChars (clause : Clause) : List Char :=
  match clause.operator.arity with
  | .pair => Text.join Query.separator clause.operands
  | .many => '(' :: (Text.join [','] clause.operands ++ [')'])
  | _ => clause.operands.flatten

def chars (clause : Clause) : List Char :=
  if clause.operator.isSpatial then
    "INTERSECTS(".toList ++ (clause.property ++ ',' :: (clause.operands.flatten ++ [')']))
  else clause.property ++ (sign clause.operator ++ clause.operandChars)

/-- The clause has the shape that the grammar gives to the clauses of its operator. -/
structure Shaped (clause : Clause) : Prop where
  property : Grammar.property.accepts clause.property = true
  count : clause.operator.arity.accepts clause.operands.length = true
  operands : ∀ u ∈ clause.operands, (token clause.operator).accepts u = true

/-- The clause is one of the grammar, and so is its polygon if it has one. -/
structure Grammatical (clause : Clause) : Prop extends Shaped clause where
  polygon : clause.operator.isSpatial = true → ∀ u ∈ clause.operands, Polygon.check u = .ok ()

/-- The parts that a template keeps of the clause: a list is one part. -/
def parts (clause : Clause) : List (List Char) :=
  clause.property ::
    if clause.operator.arity = .many then [Text.join [','] clause.operands] else clause.operands

/-- What an operand stands for. -/
def readOperand (operator : Operator) (operand : List Char) : Except QueryError Literal :=
  if operator.isPattern then .ok (.plain (.ofList (Text.unquote operand)))
  else if operator.isSpatial then .ok (.plain (.ofList operand))
  else Literal.classifyChars operand

/-- The filter that the clause stands for. -/
def read (clause : Clause) : Except QueryError Filter := do
  let operands ← clause.operands.mapM (readOperand clause.operator)
  Filter.make clause.operator ⟨.ofList clause.property⟩ operands

/-! What the templates fit. -/

section Templates

variable (sign : List Char) (hsign : StopsAt Grammar.isBreak sign) (hne : sign ≠ [])

theorem stopsAt_append {stop : Char → Bool} {s : List Char} (h : StopsAt stop s) (hne : s ≠ [])
    (t : List Char) : StopsAt stop (s ++ t) := by
  cases s with
  | nil => exact absurd rfl hne
  | cons c s => exact h

theorem separator_stopsAt (rest : List Char) :
    StopsAt Grammar.isBreak (Query.separator ++ rest) := by
  intro c hc
  obtain rfl : ' ' = c := by simpa [Query.separator] using hc
  rfl

theorem takes_property_iff (p rest : List Char) (hrest : StopsAt Grammar.isBreak rest) :
    Grammar.property.Takes p rest ↔ Grammar.property.accepts p = true :=
  takes_iff_accepts Grammar.isBreak Grammar.property Grammar.property_endsBefore p rest hrest

include hsign hne in
theorem fits_single (token : Pattern) (htoken : token.EndsBefore Grammar.isBreak)
    (s rest : List Char) (parts : List (List Char)) :
    Template.Fits [.keep Grammar.property, .skip (.word sign), .keep token,
        .skip (.word Query.separator)] s parts rest ↔
      ∃ p u, Grammar.property.accepts p = true ∧ token.accepts u = true ∧
        s = p ++ (sign ++ (u ++ (Query.separator ++ rest))) ∧ parts = [p, u] := by
  simp only [Template.Fits, takes_word]
  constructor
  · rintro ⟨p, _, _, rfl, hp, rfl, _, _, rfl, rfl, u, _, _, rfl, hu, rfl, _, _, rfl, rfl, rfl, rfl⟩
    rw [takes_property_iff _ _ (stopsAt_append hsign hne _)] at hp
    rw [takes_iff_accepts _ token htoken _ _ (separator_stopsAt _)] at hu
    exact ⟨p, u, hp, hu, rfl, rfl⟩
  · rintro ⟨p, u, hp, hu, rfl, rfl⟩
    refine ⟨p, _, _, rfl, ?_, rfl, _, _, rfl, rfl, u, _, _, rfl, ?_, rfl, _, _, rfl, rfl, rfl, rfl⟩
    · exact (takes_property_iff _ _ (stopsAt_append hsign hne _)).mpr hp
    · exact (takes_iff_accepts _ token htoken _ _ (separator_stopsAt _)).mpr hu

include hsign hne in
theorem fits_pair (s rest : List Char) (parts : List (List Char)) :
    Template.Fits [.keep Grammar.property, .skip (.word sign), .keep Grammar.literal,
        .skip (.word Query.separator), .keep Grammar.literal, .skip (.word Query.separator)]
        s parts rest ↔
      ∃ p u v, Grammar.property.accepts p = true ∧ Grammar.literal.accepts u = true ∧
        Grammar.literal.accepts v = true ∧
        s = p ++ (sign ++ (u ++ (Query.separator ++ (v ++ (Query.separator ++ rest))))) ∧
        parts = [p, u, v] := by
  simp only [Template.Fits, takes_word]
  have hliteral := fun u rest => takes_iff_accepts Grammar.isBreak Grammar.literal
    Grammar.literal_endsBefore u _ (separator_stopsAt rest)
  constructor
  · rintro ⟨p, _, _, rfl, hp, rfl, _, _, rfl, rfl, u, _, _, rfl, hu, rfl, _, _, rfl, rfl,
      v, _, _, rfl, hv, rfl, _, _, rfl, rfl, rfl, rfl⟩
    rw [takes_property_iff _ _ (stopsAt_append hsign hne _)] at hp
    exact ⟨p, u, v, hp, (hliteral u _).mp hu, (hliteral v _).mp hv, rfl, rfl⟩
  · rintro ⟨p, u, v, hp, hu, hv, rfl, rfl⟩
    refine ⟨p, _, _, rfl, ?_, rfl, _, _, rfl, rfl, u, _, _, rfl, (hliteral u _).mpr hu, rfl, _, _,
      rfl, rfl, v, _, _, rfl, (hliteral v _).mpr hv, rfl, _, _, rfl, rfl, rfl, rfl⟩
    exact (takes_property_iff _ _ (stopsAt_append hsign hne _)).mpr hp

include hsign hne in
theorem fits_none (s rest : List Char) (parts : List (List Char)) :
    Template.Fits [.keep Grammar.property, .skip (.word sign), .skip (.word Query.separator)]
        s parts rest ↔
      ∃ p, Grammar.property.accepts p = true ∧
        s = p ++ (sign ++ (Query.separator ++ rest)) ∧ parts = [p] := by
  simp only [Template.Fits, takes_word]
  constructor
  · rintro ⟨p, _, _, rfl, hp, rfl, _, _, rfl, rfl, _, _, rfl, rfl, rfl, rfl⟩
    rw [takes_property_iff _ _ (stopsAt_append hsign hne _)] at hp
    exact ⟨p, hp, rfl, rfl⟩
  · rintro ⟨p, hp, rfl, rfl⟩
    refine ⟨p, _, _, rfl, ?_, rfl, _, _, rfl, rfl, _, _, rfl, rfl, rfl, rfl⟩
    exact (takes_property_iff _ _ (stopsAt_append hsign hne _)).mpr hp

/-- Further elements of a list, each with the comma before it. -/
def tailChars (elements : List (List Char)) : List Char :=
  elements.flatMap (',' :: ·)

theorem join_cons (u : List Char) (elements : List (List Char)) :
    Text.join [','] (u :: elements) = u ++ tailChars elements := by
  induction elements generalizing u with
  | nil => simp [Text.join, tailChars]
  | cons v elements ih => simp [Text.join, ih, tailChars]

theorem tailChars_stopsAt (elements : List (List Char)) (rest : List Char)
    (hrest : StopsAt Grammar.isBreak rest) :
    StopsAt Grammar.isBreak (tailChars elements ++ rest) := by
  cases elements with
  | nil => exact hrest
  | cons u elements =>
      intro c hc
      obtain rfl : ',' = c := by simpa [tailChars] using hc
      rfl

theorem takes_tail_iff (w rest : List Char) (hrest : StopsAt Grammar.isBreak rest) :
    Takes (.many (.seq (.text ",") Grammar.literal)) w rest ↔
      ∃ elements, w = tailChars elements ∧ ∀ u ∈ elements, Grammar.literal.accepts u = true := by
  constructor
  · intro h
    induction hlen : w.length using Nat.strongRecOn generalizing w with
    | ind n ih =>
        rcases (takes_many _ w rest).mp h with rfl | ⟨_, v, rfl, _, hround, hv⟩
        · exact ⟨[], rfl, by simp⟩
        · obtain ⟨_, u, rfl, hcomma, hu⟩ := (takes_seq _ _ _ _).mp hround
          obtain rfl := (takes_text _ _ _).mp hcomma
          obtain ⟨elements, rfl, hall⟩ := ih v.length (by simp at hlen; omega) v hv rfl
          rw [takes_iff_accepts _ _ Grammar.literal_endsBefore _ _
            (tailChars_stopsAt elements rest hrest)] at hu
          refine ⟨u :: elements, by simp [tailChars], ?_⟩
          intro t ht
          exact (List.mem_cons.mp ht).elim (fun h => h ▸ hu) (hall t)
  · rintro ⟨elements, rfl, hall⟩
    induction elements with
    | nil => exact (takes_many _ _ _).mpr (.inl rfl)
    | cons u elements ih =>
        refine (takes_many _ _ _).mpr (.inr ⟨',' :: u, tailChars elements, by simp [tailChars],
          by simp, ?_, ih fun t ht => hall t (by simp [ht])⟩)
        refine (takes_seq _ _ _ _).mpr ⟨[','], u, rfl, (takes_text _ _ _).mpr rfl, ?_⟩
        exact (takes_iff_accepts _ _ Grammar.literal_endsBefore _ _
          (tailChars_stopsAt elements rest hrest)).mpr (hall u (by simp))

theorem takes_list_iff (w rest : List Char) (hrest : StopsAt Grammar.isBreak rest) :
    Takes (.seq Grammar.literal (.many (.seq (.text ",") Grammar.literal))) w rest ↔
      ∃ elements, elements ≠ [] ∧ w = Text.join [','] elements ∧
        ∀ u ∈ elements, Grammar.literal.accepts u = true := by
  constructor
  · intro h
    obtain ⟨u, v, rfl, hu, hv⟩ := (takes_seq _ _ _ _).mp h
    obtain ⟨elements, rfl, hall⟩ := (takes_tail_iff v rest hrest).mp hv
    rw [takes_iff_accepts _ _ Grammar.literal_endsBefore _ _
      (tailChars_stopsAt elements rest hrest)] at hu
    refine ⟨u :: elements, by simp, (join_cons u elements).symm, ?_⟩
    intro t ht
    exact (List.mem_cons.mp ht).elim (fun h => h ▸ hu) (hall t)
  · rintro ⟨elements, hne, rfl, hall⟩
    obtain ⟨u, elements, rfl⟩ := List.exists_cons_of_ne_nil hne
    rw [join_cons]
    refine (takes_seq _ _ _ _).mpr ⟨u, tailChars elements, rfl, ?_, ?_⟩
    · exact (takes_iff_accepts _ _ Grammar.literal_endsBefore _ _
        (tailChars_stopsAt elements rest hrest)).mpr (hall u (by simp))
    · exact (takes_tail_iff _ rest hrest).mpr ⟨elements, rfl, fun t ht => hall t (by simp [ht])⟩

include hsign hne in
theorem fits_list (s rest : List Char) (parts : List (List Char)) :
    Template.Fits [.keep Grammar.property, .skip (.word sign), .skip (.text "("),
        .keep (.seq Grammar.literal (.many (.seq (.text ",") Grammar.literal))),
        .skip (.text ")"), .skip (.word Query.separator)] s parts rest ↔
      ∃ p elements, Grammar.property.accepts p = true ∧ elements ≠ [] ∧
        (∀ u ∈ elements, Grammar.literal.accepts u = true) ∧
        s = p ++ (sign ++ ('(' :: (Text.join [','] elements ++
          (')' :: (Query.separator ++ rest))))) ∧ parts = [p, Text.join [','] elements] := by
  have hclose : ∀ rest, StopsAt Grammar.isBreak (")".toList ++ rest) := by
    intro rest c hc
    obtain rfl : ')' = c := by simpa using hc
    rfl
  simp only [Template.Fits, takes_text, takes_word]
  constructor
  · rintro ⟨p, _, _, rfl, hp, rfl, _, _, rfl, rfl, _, _, rfl, rfl, w, _, _, rfl, hw, rfl,
      _, _, rfl, rfl, _, _, rfl, rfl, rfl, rfl⟩
    rw [takes_property_iff _ _ (stopsAt_append hsign hne _)] at hp
    obtain ⟨elements, hnil, rfl, hall⟩ := (takes_list_iff w _ (hclose _)).mp hw
    exact ⟨p, elements, hp, hnil, hall, by simp, rfl⟩
  · rintro ⟨p, elements, hp, hnil, hall, rfl, rfl⟩
    refine ⟨p, _, _, rfl, ?_, rfl, _, _, rfl, rfl, _, _, rfl, rfl, _, _, _, rfl, ?_, rfl,
      [')'], _, rfl, rfl, _, _, rfl, rfl, rfl, rfl⟩
    · exact (takes_property_iff _ _ (stopsAt_append hsign hne _)).mpr hp
    · exact (takes_list_iff _ _ (hclose _)).mpr ⟨elements, hnil, rfl, hall⟩

theorem polygon_endsBefore : Grammar.polygon.EndsBefore (· == ')') := by
  simp [Grammar.polygon, Pattern.all, Pattern.text, EndsBefore]
  rfl

theorem fits_spatial (s rest : List Char) (parts : List (List Char)) :
    Template.Fits [.skip (.text "INTERSECTS("), .keep Grammar.property, .skip (.text ","),
        .keep Grammar.polygon, .skip (.text ")"), .skip (.word Query.separator)] s parts rest ↔
      ∃ p u, Grammar.property.accepts p = true ∧ Grammar.polygon.accepts u = true ∧
        s = "INTERSECTS(".toList ++ (p ++ (',' :: (u ++ (')' :: (Query.separator ++ rest))))) ∧
        parts = [p, u] := by
  have hcomma : ∀ rest, StopsAt Grammar.isBreak (",".toList ++ rest) := by
    intro rest c hc
    obtain rfl : ',' = c := by simpa using hc
    rfl
  have hpolygon : ∀ u rest, Grammar.polygon.Takes u (")".toList ++ rest) ↔
      Grammar.polygon.accepts u = true := by
    intro u rest
    refine takes_iff_accepts (· == ')') _ polygon_endsBefore u _ ?_
    intro c hc
    obtain rfl : ')' = c := by simpa using hc
    rfl
  simp only [Template.Fits, takes_text, takes_word]
  constructor
  · rintro ⟨_, _, rfl, rfl, p, _, _, rfl, hp, rfl, _, _, rfl, rfl, u, _, _, rfl, hu, rfl,
      _, _, rfl, rfl, _, _, rfl, rfl, rfl, rfl⟩
    exact ⟨p, u, (takes_property_iff _ _ (hcomma _)).mp hp, (hpolygon _ _).mp hu, by simp, rfl⟩
  · rintro ⟨p, u, hp, hu, rfl, rfl⟩
    refine ⟨_, _, rfl, rfl, p, _, _, rfl, ?_, rfl, [','], _, rfl, rfl, u, _, _, rfl, ?_, rfl,
      [')'], _, rfl, rfl, _, _, rfl, rfl, rfl, rfl⟩
    · exact (takes_property_iff _ _ (hcomma _)).mpr hp
    · exact (hpolygon _ _).mpr hu

end Templates

/-! The templates of the operators, by the number of operands. -/

theorem sign_stopsAt (operator : Operator) : StopsAt Grammar.isBreak (sign operator) := by
  cases operator <;> simp [StopsAt, sign, Operator.isComparison, Operator.keyword, Operator.arity,
    Grammar.isBreak]

theorem sign_ne_nil (operator : Operator) : sign operator ≠ [] := by
  cases operator <;> simp [sign, Operator.isComparison, Operator.keyword, Operator.arity]

theorem token_endsBefore (operator : Operator) (h : operator.isSpatial = false) :
    (token operator).EndsBefore Grammar.isBreak := by
  unfold token
  split
  · exact Grammar.string_endsBefore _ rfl
  · rw [if_neg (by simp [h])]
    exact Grammar.literal_endsBefore

theorem template_single (operator : Operator) (hs : operator.isSpatial = false)
    (h : operator.arity = .single) :
    Query.clause operator = [.keep Grammar.property, .skip (.word (sign operator)),
      .keep (token operator), .skip (.word Query.separator)] := by
  cases operator <;> first | rfl | simp [Operator.arity, Operator.isSpatial] at h hs

theorem template_pair (operator : Operator) (h : operator.arity = .pair) :
    Query.clause operator = [.keep Grammar.property, .skip (.word (sign operator)),
      .keep Grammar.literal, .skip (.word Query.separator), .keep Grammar.literal,
      .skip (.word Query.separator)] := by
  cases operator <;> first | rfl | simp [Operator.arity] at h

theorem template_none (operator : Operator) (h : operator.arity = .none) :
    Query.clause operator = [.keep Grammar.property, .skip (.word (sign operator)),
      .skip (.word Query.separator)] := by
  cases operator <;> first | rfl | simp [Operator.arity] at h

theorem template_many (operator : Operator) (h : operator.arity = .many) :
    Query.clause operator = [.keep Grammar.property, .skip (.word (sign operator)),
      .skip (.text "("), .keep (.seq Grammar.literal (.many (.seq (.text ",") Grammar.literal))),
      .skip (.text ")"), .skip (.word Query.separator)] := by
  cases operator <;> first | rfl | simp [Operator.arity] at h

theorem token_of_arity_ne (operator : Operator) (h : operator.arity ≠ .single) :
    token operator = Grammar.literal ∧ operator.isSpatial = false := by
  cases operator <;> simp [Operator.arity] at h <;> exact ⟨rfl, rfl⟩

theorem kind_of_arity_ne (operator : Operator) (h : operator.arity ≠ .single) :
    operator.isComparison = false ∧ operator.isPattern = false := by
  cases operator <;> simp [Operator.arity] at h <;> exact ⟨rfl, rfl⟩

/-- The forms of clauses, by what the operator takes. -/
inductive Form : Clause → Prop
  | single (operator : Operator) (p u : List Char) (hs : operator.isSpatial = false)
      (h : operator.arity = .single) : Form ⟨operator, p, [u]⟩
  | pair (operator : Operator) (p u v : List Char) (h : operator.arity = .pair) :
      Form ⟨operator, p, [u, v]⟩
  | none (operator : Operator) (p : List Char) (h : operator.arity = .none) :
      Form ⟨operator, p, []⟩
  | many (operator : Operator) (p : List Char) (elements : List (List Char))
      (h : operator.arity = .many) (hne : elements ≠ []) : Form ⟨operator, p, elements⟩
  | spatial (p u : List Char) : Form ⟨.intersects, p, [u]⟩

theorem Shaped.form {clause : Clause} (h : clause.Shaped) : Form clause := by
  obtain ⟨operator, p, operands⟩ := clause
  have hoperands := operator.arity.operands_of_accepts operands h.count
  cases ha : operator.arity with
  | none =>
      simp only [ha] at hoperands
      subst hoperands
      exact .none operator p ha
  | single =>
      simp only [ha] at hoperands
      obtain ⟨u, rfl⟩ := hoperands
      cases hs : operator.isSpatial with
      | false => exact .single operator p u hs ha
      | true =>
          obtain rfl : operator = .intersects := by
            cases operator <;> simp [Operator.isSpatial] at hs ⊢
          exact .spatial p u
  | pair =>
      simp only [ha] at hoperands
      obtain ⟨u, v, rfl⟩ := hoperands
      exact .pair operator p u v ha
  | many =>
      simp only [ha] at hoperands
      exact .many operator p operands ha hoperands

/-- A clause of the spatial operator has one operand. -/
theorem Shaped.exists_spatial {clause : Clause} (h : clause.Shaped)
    (hs : clause.operator.isSpatial = true) : ∃ p u, clause = ⟨.intersects, p, [u]⟩ := by
  cases h.form with
  | spatial p u => exact ⟨p, u, rfl⟩
  | single _ _ _ hfalse => simp [hfalse] at hs
  | pair operator _ _ _ ha => simp [(token_of_arity_ne operator (by simp [ha])).2] at hs
  | none operator _ ha => simp [(token_of_arity_ne operator (by simp [ha])).2] at hs
  | many operator _ _ ha => simp [(token_of_arity_ne operator (by simp [ha])).2] at hs

/-- A grammatical clause of the spatial operator. -/
theorem Grammatical.exists_spatial {clause : Clause} (h : clause.Grammatical)
    (hs : clause.operator.isSpatial = true) :
    ∃ p u, clause = ⟨.intersects, p, [u]⟩ ∧ Grammar.property.accepts p = true ∧
      Grammar.polygon.accepts u = true ∧ Polygon.check u = .ok () := by
  obtain ⟨p, u, rfl⟩ := h.toShaped.exists_spatial hs
  exact ⟨p, u, rfl, h.property, h.operands u (by simp), h.polygon hs u (by simp)⟩

theorem chars_single (operator : Operator) (p u : List Char) (hs : operator.isSpatial = false)
    (h : operator.arity = .single) :
    (⟨operator, p, [u]⟩ : Clause).chars = p ++ (sign operator ++ u) := by
  simp [chars, operandChars, hs, h]

theorem chars_pair (operator : Operator) (p u v : List Char) (h : operator.arity = .pair) :
    (⟨operator, p, [u, v]⟩ : Clause).chars =
      p ++ (sign operator ++ (u ++ (Query.separator ++ v))) := by
  simp [chars, operandChars, h, (token_of_arity_ne operator (by simp [h])).2, Text.join]

theorem chars_none (operator : Operator) (p : List Char) (h : operator.arity = .none) :
    (⟨operator, p, []⟩ : Clause).chars = p ++ sign operator := by
  simp [chars, operandChars, h, (token_of_arity_ne operator (by simp [h])).2]

theorem chars_many (operator : Operator) (p : List Char) (elements : List (List Char))
    (h : operator.arity = .many) :
    (⟨operator, p, elements⟩ : Clause).chars =
      p ++ (sign operator ++ ('(' :: (Text.join [','] elements ++ [')']))) := by
  simp [chars, operandChars, h, (token_of_arity_ne operator (by simp [h])).2]

theorem chars_spatial (p u : List Char) :
    (⟨.intersects, p, [u]⟩ : Clause).chars =
      "INTERSECTS(".toList ++ (p ++ (',' :: (u ++ [')']))) := by
  simp [chars, Operator.isSpatial]

theorem exists_clause_of_fits (operator : Operator) (s rest : List Char)
    (parts : List (List Char)) (h : (Query.clause operator).Fits s parts rest) :
    ∃ clause : Clause, clause.operator = operator ∧ clause.Shaped ∧
      s = clause.chars ++ (Query.separator ++ rest) ∧ parts = clause.parts := by
  cases ha : operator.arity with
  | none =>
      rw [template_none operator ha, fits_none _ (sign_stopsAt operator) (sign_ne_nil operator)]
        at h
      obtain ⟨p, hp, rfl, rfl⟩ := h
      refine ⟨⟨operator, p, []⟩, rfl, ⟨hp, by simp [ha, Arity.accepts], by simp⟩, ?_, ?_⟩
      · simp [chars_none operator p ha]
      · simp [Clause.parts, ha]
  | single =>
      cases hs : operator.isSpatial with
      | false =>
          rw [template_single operator hs ha, fits_single _ (sign_stopsAt operator)
            (sign_ne_nil operator) _ (token_endsBefore operator hs)] at h
          obtain ⟨p, u, hp, hu, rfl, rfl⟩ := h
          refine ⟨⟨operator, p, [u]⟩, rfl, ⟨hp, by simp [ha, Arity.accepts], by simpa using hu⟩,
            ?_, ?_⟩
          · simp [chars_single operator p u hs ha]
          · simp [Clause.parts, ha]
      | true =>
          obtain rfl : operator = .intersects := by
            cases operator <;> simp [Operator.isSpatial] at hs ⊢
          obtain ⟨p, u, hp, hu, rfl, rfl⟩ := (fits_spatial s rest parts).mp h
          refine ⟨⟨.intersects, p, [u]⟩, rfl,
            ⟨hp, rfl, fun w hw => List.mem_singleton.mp hw ▸ hu⟩, ?_, rfl⟩
          simp [chars_spatial p u]
  | pair =>
      rw [template_pair operator ha, fits_pair _ (sign_stopsAt operator) (sign_ne_nil operator)]
        at h
      obtain ⟨p, u, v, hp, hu, hv, rfl, rfl⟩ := h
      have htoken := (token_of_arity_ne operator (by simp [ha])).1
      refine ⟨⟨operator, p, [u, v]⟩, rfl, ⟨hp, by simp [ha, Arity.accepts], ?_⟩, ?_, ?_⟩
      · simp [htoken, hu, hv]
      · simp [chars_pair operator p u v ha]
      · simp [Clause.parts, ha]
  | many =>
      rw [template_many operator ha, fits_list _ (sign_stopsAt operator) (sign_ne_nil operator)]
        at h
      obtain ⟨p, elements, hp, hne, hall, rfl, rfl⟩ := h
      have htoken := (token_of_arity_ne operator (by simp [ha])).1
      refine ⟨⟨operator, p, elements⟩, rfl, ⟨hp, ?_, by simpa [htoken] using hall⟩, ?_, ?_⟩
      · simpa [ha, Arity.accepts] using Nat.succ_le_of_lt (List.length_pos_iff.mpr hne)
      · simp [chars_many operator p elements ha]
      · simp [Clause.parts, ha]

theorem Shaped.fits {clause : Clause} (h : clause.Shaped) (rest : List Char) :
    (Query.clause clause.operator).Fits (clause.chars ++ (Query.separator ++ rest))
      clause.parts rest := by
  have hp := h.property
  have hall := h.operands
  cases h.form with
  | single operator p u hs ha =>
      rw [template_single operator hs ha, fits_single _ (sign_stopsAt operator)
        (sign_ne_nil operator) _ (token_endsBefore operator hs)]
      exact ⟨p, u, hp, by simpa using hall, by simp [chars_single operator p u hs ha],
        by simp [parts, ha]⟩
  | pair operator p u v ha =>
      rw [template_pair operator ha, fits_pair _ (sign_stopsAt operator) (sign_ne_nil operator)]
      simp only [(token_of_arity_ne operator (by simp [ha])).1, List.mem_cons, List.not_mem_nil,
        or_false, forall_eq_or_imp, forall_eq] at hall
      exact ⟨p, u, v, hp, hall.1, hall.2, by simp [chars_pair operator p u v ha],
        by simp [parts, ha]⟩
  | none operator p ha =>
      rw [template_none operator ha, fits_none _ (sign_stopsAt operator) (sign_ne_nil operator)]
      exact ⟨p, hp, by simp [chars_none operator p ha], by simp [parts, ha]⟩
  | many operator p elements ha hne =>
      rw [template_many operator ha, fits_list _ (sign_stopsAt operator) (sign_ne_nil operator)]
      simp only [(token_of_arity_ne operator (by simp [ha])).1] at hall
      exact ⟨p, elements, hp, hne, hall, by simp [chars_many operator p elements ha],
        by simp [parts, ha]⟩
  | spatial p u =>
      refine (fits_spatial _ _ _).mpr ⟨p, u, hp, hall u (by simp), ?_, rfl⟩
      simp [chars_spatial p u]

/-- The template of an operator fits exactly the clauses of the operator. -/
theorem fits_iff (operator : Operator) (s rest : List Char) (parts : List (List Char)) :
    (Query.clause operator).Fits s parts rest ↔
      ∃ clause : Clause, clause.operator = operator ∧ clause.Shaped ∧
        s = clause.chars ++ (Query.separator ++ rest) ∧ parts = clause.parts := by
  refine ⟨exists_clause_of_fits operator s rest parts, ?_⟩
  rintro ⟨clause, rfl, hshaped, rfl, rfl⟩
  exact hshaped.fits rest

end Clause

end RecordQuery
