import RecordQuery.Proofs.Literal.Splitting

/-!
Literals that are written and read again. Of all tokens that stand for a
literal its rendering is the shortest, and it is the only one of its length: a
text is written with quotes only where it has to be. So what a rendered literal
is read as depends on two things. A text that looks like a polygon is written
without quotes, though no literal of the grammar is a polygon, and the two
sides of an arithmetic literal may run together.
-/

namespace RecordQuery.Literal

open Pattern Text

/-- The literal is written as a token of the grammar that is read as this literal. -/
def Restorable : Literal → Prop
  | .plain value => Grammar.polygon.accepts value.toList = false
  | .call _ _ => True
  | .arithmetic left op right =>
    left.Restorable ∧ right.Restorable ∧
      Grammar.interval.accepts (arithmetic left op right).renderChars = false ∧
      arithmeticTemplate.matchAll? (arithmetic left op right).renderChars =
        some [left.renderChars, [op.sign], right.renderChars]

/-! Texts without quotes. -/

theorem bare_accepts_iff (v : List Char) :
    bare.accepts v = true ↔ simple.accepts v = true ∨ Grammar.polygon.accepts v = true := by
  simp only [accepts_iff, bare, simple, anyOf, takes_either, or_assoc]

theorem renderChars_plain (v : List Char) :
    renderChars (.plain (.ofList v)) = if bare.accepts v then v else quote v := by
  simp [renderChars]

theorem mem_of_polygon (v : List Char) (h : Grammar.polygon.accepts v = true) : '(' ∈ v := by
  simp only [accepts_iff, Grammar.polygon, Pattern.all, takes_seq, takes_text] at h
  obtain ⟨_, _, rfl, _, _, _, rfl, _, _, _, rfl, rfl, _⟩ := h
  simp

theorem not_polygon_of_simple (v : List Char) (h : simple.accepts v = true) :
    Grammar.polygon.accepts v = false := by
  cases hpolygon : Grammar.polygon.accepts v with
  | false => rfl
  | true => exact absurd rfl (plain_of_accepts_simple v h _ (mem_of_polygon v hpolygon)).1

/-! Calls. -/

theorem callTemplate_bounded : callTemplate.Bounded := by
  simp [Template.Bounded, callTemplate, Grammar.functionName, someOf, Pattern.optional,
    Pattern.text, Bounded, Grammar.callOperand_bounded]

theorem parts_of_callTemplate_fits (token : List Char) (parts : List (List Char))
    (h : callTemplate.Fits token parts []) :
    ∃ name argument, parts = [name, argument] ∧ token = name ++ '(' :: (argument ++ [')']) := by
  simp only [callTemplate, Template.Fits, takes_text] at h
  obtain ⟨name, _, _, rfl, _, rfl, _, _, rfl, rfl, argument, _, _, rfl, _, rfl, _, _, rfl, rfl,
    rfl, rfl⟩ := h
  exact ⟨name, argument, rfl, by simp⟩

/-- The template for calls fits the calls of the grammar. -/
theorem callTemplate_fits_iff (u : List Char) :
    (∃ parts, callTemplate.Fits u parts []) ↔
      Grammar.functionCall.accepts u = true ∨ Grammar.emptyCall.accepts u = true := by
  simp only [accepts_iff, Grammar.functionCall, Grammar.emptyCall, Pattern.all, takes_seq,
    takes_text, callTemplate, Template.Fits, takes_optional]
  constructor
  · rintro ⟨_, name, _, _, rfl, hname, rfl, _, _, rfl, rfl, argument, _, _, rfl, hargument, rfl, _,
      _, rfl, rfl, rfl, rfl⟩
    rcases hargument with hargument | rfl
    · exact .inl ⟨name, _, rfl, by simpa using hname, _, _, rfl, rfl, argument, _, rfl,
        by simpa using hargument, rfl⟩
    · exact .inr ⟨name, "()".toList, rfl, by simpa using hname, rfl⟩
  · rintro (⟨name, _, rfl, hname, _, _, rfl, rfl, argument, _, rfl, hargument, rfl⟩ |
      ⟨name, _, rfl, hname, rfl⟩)
    · refine ⟨_, name, _, _, rfl, by simpa using hname, rfl, _, _, rfl, rfl, argument, [')'], _, ?_,
        .inl ?_, rfl, [')'], [], rfl, rfl, rfl, rfl⟩
      · simp
      · simpa using hargument
    · refine ⟨_, name, "()".toList, _, rfl, by simpa using hname, rfl, ['('], [')'], rfl, rfl, [],
        [')'], _, rfl, .inr rfl, rfl, [')'], [], rfl, rfl, rfl, rfl⟩

/-! Operands. -/

/-- What an operand can be, and what it stands for. -/
inductive Atom : List Char → Literal → Prop
  | quoted (v : List Char) : Atom (quote v) (.plain (.ofList v))
  | call (name : String) (argument : Option String) :
      Atom (renderChars (.call name argument)) (.call name argument)
  | simple (u : List Char) (h : simple.accepts u = true) : Atom u (.plain (.ofList u))

theorem atom_of_classifyAtom (u : List Char) (literal : Literal)
    (haccepts : Grammar.operand.accepts u = true) (h : classifyAtom u = .ok literal) :
    Atom u literal := by
  unfold classifyAtom at h
  split at h
  · next hstring =>
    obtain ⟨v, rfl⟩ := (Grammar.string_accepts_iff u).mp hstring
    rw [unquote_quote] at h
    obtain rfl := Except.ok.inj h
    exact .quoted v
  · next hstring =>
    split at h
    · next name argument hmatch =>
      have hfits := Template.fits_of_matchAll? _ callTemplate_bounded _ _ hmatch
      obtain ⟨_, _, hparts, rfl⟩ := parts_of_callTemplate_fits _ _ hfits
      obtain ⟨rfl, rfl⟩ : name = _ ∧ argument = _ := by simpa using hparts
      obtain rfl := Except.ok.inj h
      have hrender : ∀ argument : List Char, renderChars (.call (.ofList name)
          (if argument.isEmpty then none else some (.ofList argument))) =
            name ++ '(' :: (argument ++ [')']) := by
        intro argument
        cases argument <;> simp [renderChars]
      rw [← hrender]
      exact .call _ _
    · next hmatch =>
      have hno : ∀ parts, ¬callTemplate.Fits u parts [] := by
        rw [← Template.matchAll?_eq_none_iff _ callTemplate_bounded]
        cases hsome : callTemplate.matchAll? u with
        | none => rfl
        | some parts =>
            have hfits := Template.fits_of_matchAll? _ callTemplate_bounded _ _ hsome
            obtain ⟨name, argument, rfl, _⟩ := parts_of_callTemplate_fits _ _ hfits
            exact absurd hsome (hmatch name argument)
      obtain rfl := Except.ok.inj h
      refine .simple u ?_
      have hstring' : ¬Grammar.string.Takes u [] := by rwa [accepts_iff] at hstring
      have hcall : ¬Grammar.functionCall.Takes u [] := fun hcall =>
        ((callTemplate_fits_iff u).mpr (.inl ((accepts_iff _ _).mpr hcall))).elim hno
      have hempty : ¬Grammar.emptyCall.Takes u [] := fun hcall =>
        ((callTemplate_fits_iff u).mpr (.inr ((accepts_iff _ _).mpr hcall))).elim hno
      rw [accepts_iff] at haccepts ⊢
      simp only [Grammar.operand, Literal.simple, anyOf, takes_either] at haccepts ⊢
      simpa [hstring', hcall, hempty] using haccepts

theorem classifyAtom_of_simple (v : List Char) (h : simple.accepts v = true) :
    classifyAtom v = .ok (.plain (.ofList v)) := by
  have hplain := plain_of_accepts_simple v h
  have hstring : ¬Grammar.string.accepts v = true := by
    rw [Grammar.string_accepts_iff]
    rintro ⟨w, rfl⟩
    exact (hplain '\'' (by simp [quote])).2 rfl
  have hcall : callTemplate.matchAll? v = none := by
    rw [Template.matchAll?_eq_none_iff _ callTemplate_bounded]
    intro parts hfits
    obtain ⟨name, argument, _, rfl⟩ := parts_of_callTemplate_fits _ _ hfits
    exact (hplain '(' (by simp)).1 rfl
  rw [classifyAtom, if_neg hstring, hcall]
  simp [accepts_operand_of_simple v h]

/-- Nothing that stands for a literal is shorter than the rendering, nor of the
same length and different. -/
theorem Atom.renderChars_eq_or_lt {u : List Char} {literal : Literal} (h : Atom u literal) :
    literal.renderChars = u ∨ literal.renderChars.length < u.length := by
  cases h with
  | quoted v =>
      rw [renderChars_plain]
      split
      · exact .inr (length_lt_quote v)
      · exact .inl rfl
  | call name argument => exact .inl rfl
  | simple u h => exact .inl (by rw [renderChars_plain, if_pos ((bare_accepts_iff u).mpr (.inl h))])

theorem Atom.cases_plain {u : List Char} {value : String} (h : Atom u (.plain value)) :
    u = quote value.toList ∨ (Literal.simple.accepts u = true ∧ u = value.toList) := by
  generalize hliteral : Literal.plain value = literal at h
  cases h with
  | quoted v =>
      obtain rfl := Literal.plain.inj hliteral
      exact .inl (by simp)
  | call => simp at hliteral
  | simple u h =>
      obtain rfl := Literal.plain.inj hliteral
      exact .inr ⟨h, by simp⟩

theorem restorable_plain_iff (v : List Char) :
    Restorable (.plain (.ofList v)) ↔
      Grammar.operand.accepts (renderChars (.plain (.ofList v))) = true ∧
        classifyAtom (renderChars (.plain (.ofList v))) = .ok (.plain (.ofList v)) := by
  simp only [Restorable, String.toList_ofList, renderChars_plain]
  constructor
  · intro hpolygon
    by_cases hsimple : simple.accepts v = true
    · rw [if_pos ((bare_accepts_iff v).mpr (.inl hsimple))]
      exact ⟨accepts_operand_of_simple v hsimple, classifyAtom_of_simple v hsimple⟩
    · have hbare : ¬bare.accepts v = true := by
        rw [bare_accepts_iff]
        simp [hsimple, hpolygon]
      rw [if_neg hbare]
      exact ⟨Grammar.accepts_operand_quote v, Place.classifyAtom_quote v⟩
  · rintro ⟨haccepts, hread⟩
    cases hpolygon : Grammar.polygon.accepts v with
    | false => rfl
    | true =>
        rw [if_pos ((bare_accepts_iff v).mpr (.inr hpolygon))] at haccepts hread
        rcases (atom_of_classifyAtom v _ haccepts hread).cases_plain with heq | ⟨hsimple, _⟩
        · have := length_lt_quote v
          rw [String.toList_ofList] at heq
          rw [← heq] at this
          omega
        · rw [not_polygon_of_simple v hsimple] at hpolygon
          exact absurd hpolygon (by simp)

/-- An operand is read as the same literal again unless it looks like a polygon. -/
theorem Atom.restorable_iff {u : List Char} {literal : Literal} (hatom : Atom u literal)
    (haccepts : Grammar.operand.accepts u = true) (h : classifyAtom u = .ok literal) :
    literal.Restorable ↔ Grammar.operand.accepts literal.renderChars = true ∧
      classifyAtom literal.renderChars = .ok literal := by
  cases hatom with
  | quoted v => exact restorable_plain_iff v
  | call name argument => exact ⟨fun _ => ⟨haccepts, h⟩, fun _ => trivial⟩
  | simple u _ => exact restorable_plain_iff u

/-! Tokens. -/

/-- What a token can be, and what it stands for. -/
inductive Token : List Char → Literal → Prop
  | interval (u : List Char) (h : Grammar.interval.accepts u = true) :
      Token u (.plain (.ofList u))
  | split (left right : List Char) (op : ArithmeticOperator) (l r : Literal)
      (hleft : Grammar.operand.accepts left = true) (hl : classifyAtom left = .ok l)
      (hright : Grammar.operand.accepts right = true) (hr : classifyAtom right = .ok r)
      (hinterval : Grammar.interval.accepts (left ++ op.sign :: right) = false)
      (hmatch : arithmeticTemplate.matchAll? (left ++ op.sign :: right) =
        some [left, [op.sign], right]) :
      Token (left ++ op.sign :: right) (.arithmetic l op r)
  | atom (u : List Char) (literal : Literal) (haccepts : Grammar.operand.accepts u = true)
      (hread : classifyAtom u = .ok literal) (hinterval : Grammar.interval.accepts u = false)
      (hmatch : arithmeticTemplate.matchAll? u = none) : Token u literal

theorem token_of_classifyChars (u : List Char) (literal : Literal)
    (haccepts : Grammar.literal.accepts u = true) (h : classifyChars u = .ok literal) :
    Token u literal := by
  cases hinterval : Grammar.interval.accepts u with
  | true =>
      obtain rfl : Literal.plain (.ofList u) = literal := by
        simpa [classifyChars, hinterval] using h
      exact .interval u hinterval
  | false =>
      cases hmatch : arithmeticTemplate.matchAll? u with
      | some parts =>
          obtain ⟨left, op, right, hleft, hright, rfl, rfl⟩ :=
            exists_split_of_matchAll? u parts hmatch
          obtain ⟨l, hl⟩ := classifyAtom_isOk left hleft
          obtain ⟨r, hr⟩ := classifyAtom_isOk right hright
          rw [classifyChars_of_split _ left right op l r hinterval hmatch hl hr] at h
          obtain rfl := Except.ok.inj h
          exact .split left right op l r hleft hl hright hr hinterval hmatch
      | none =>
          have hoperand := accepts_operand_of_not_split u haccepts hmatch
          obtain ⟨l, hl⟩ := classifyAtom_isOk u hoperand
          rw [classifyChars_of_atom u l hinterval hmatch hl] at h
          obtain rfl := Except.ok.inj h
          exact .atom u l hoperand hl hinterval hmatch

/-- Nothing that stands for a literal is shorter than the rendering, nor of the
same length and different. -/
theorem renderChars_eq_or_lt (u : List Char) (literal : Literal)
    (haccepts : Grammar.literal.accepts u = true) (h : classifyChars u = .ok literal) :
    literal.renderChars = u ∨ literal.renderChars.length < u.length := by
  cases token_of_classifyChars u literal haccepts h with
  | interval u hinterval =>
      have hsimple := simple_of_interval u hinterval
      rw [renderChars_plain, if_pos ((bare_accepts_iff u).mpr (.inl hsimple))]
      exact .inl rfl
  | split left right op l r hleft hl hright hr =>
      have hboth : (Literal.arithmetic l op r).renderChars =
          l.renderChars ++ op.sign :: r.renderChars := rfl
      rw [hboth]
      simp only [List.length_append, List.length_cons]
      rcases (atom_of_classifyAtom left l hleft hl).renderChars_eq_or_lt with heq | hlt
      · rcases (atom_of_classifyAtom right r hright hr).renderChars_eq_or_lt with heq' | hlt'
        · exact .inl (by rw [heq, heq'])
        · exact .inr (by rw [heq]; omega)
      · have hle : r.renderChars.length ≤ right.length := by
          rcases (atom_of_classifyAtom right r hright hr).renderChars_eq_or_lt with heq' | hlt'
          · exact Nat.le_of_eq (by rw [heq'])
          · exact Nat.le_of_lt hlt'
        exact .inr (by omega)
  | atom u literal hoperand hread =>
      exact (atom_of_classifyAtom u literal hoperand hread).renderChars_eq_or_lt

theorem classifyChars_of_simple (v : List Char) (h : simple.accepts v = true) :
    classifyChars v = .ok (.plain (.ofList v)) := by
  cases hinterval : Grammar.interval.accepts v with
  | true => simp [classifyChars, hinterval]
  | false =>
      have hnone : arithmeticTemplate.matchAll? v = none :=
        (matchAll?_eq_none_iff_not_split v).mpr fun left right op hl hr heq =>
          not_split_of_simple v left right op h hinterval hl hr heq
      exact classifyChars_of_atom v _ hinterval hnone (classifyAtom_of_simple v h)

theorem accepts_literal_of_operand (u : List Char) (h : Grammar.operand.accepts u = true) :
    Grammar.literal.accepts u = true :=
  (literal_accepts_iff u).mpr (.inl h)

/-- A plain token reads as a text that does not look like a polygon, and as no other. -/
theorem plain_token_iff (v : List Char) :
    Restorable (.plain (.ofList v)) ↔
      Grammar.literal.accepts (renderChars (.plain (.ofList v))) = true ∧
        classifyChars (renderChars (.plain (.ofList v))) = .ok (.plain (.ofList v)) := by
  constructor
  · intro h
    have haccepts := ((restorable_plain_iff v).mp h).1
    refine ⟨accepts_literal_of_operand _ haccepts, ?_⟩
    simp only [Restorable, String.toList_ofList] at h
    rw [renderChars_plain]
    split
    · next hbare =>
      rw [bare_accepts_iff, h] at hbare
      exact classifyChars_of_simple v (by simpa using hbare)
    · exact Place.classifyChars_token .whole v
  · rintro ⟨haccepts, hread⟩
    generalize hu : renderChars (.plain (.ofList v)) = u at haccepts hread
    generalize hl : Literal.plain (.ofList v) = literal at hread
    cases token_of_classifyChars u literal haccepts hread with
    | interval u hinterval =>
        have heq := Literal.plain.inj hl
        have hvu : v = u := by simpa using congrArg String.toList heq
        simpa [Restorable, hvu] using not_polygon_of_simple u (simple_of_interval u hinterval)
    | split => simp at hl
    | atom u literal hoperand hatom =>
        subst hl hu
        exact (restorable_plain_iff v).mpr ⟨hoperand, hatom⟩

theorem restorable_arithmetic_iff (left right : List Char) (op : ArithmeticOperator)
    (l r : Literal) (hleft : Grammar.operand.accepts left = true) (hl : classifyAtom left = .ok l)
    (hright : Grammar.operand.accepts right = true) (hr : classifyAtom right = .ok r) :
    Restorable (.arithmetic l op r) ↔
      Grammar.literal.accepts (renderChars (.arithmetic l op r)) = true ∧
        classifyChars (renderChars (.arithmetic l op r)) = .ok (.arithmetic l op r) := by
  have hrestorel := (atom_of_classifyAtom left l hleft hl).restorable_iff hleft hl
  have hrestorer := (atom_of_classifyAtom right r hright hr).restorable_iff hright hr
  have hboth : renderChars (.arithmetic l op r) =
      l.renderChars ++ op.sign :: r.renderChars := rfl
  rw [Restorable, hrestorel, hrestorer]
  constructor
  · rintro ⟨⟨hla, hlc⟩, ⟨hra, hrc⟩, hinterval, hmatch⟩
    refine ⟨(literal_accepts_iff _).mpr (.inr ⟨_, op, _, hla, hra, hboth⟩), ?_⟩
    exact classifyChars_of_split _ _ _ op l r hinterval hmatch hlc hrc
  · rintro ⟨haccepts, hread⟩
    generalize hu : renderChars (.arithmetic l op r) = u at haccepts hread hboth ⊢
    generalize hliteral : Literal.arithmetic l op r = literal at hread
    cases token_of_classifyChars u literal haccepts hread with
    | interval => simp at hliteral
    | atom u literal hoperand hatom =>
        cases atom_of_classifyAtom u literal hoperand hatom <;> simp at hliteral
    | split left' right' op' l' r' hleft' hl' hright' hr' hinterval hmatch =>
        obtain ⟨rfl, rfl, rfl⟩ := Literal.arithmetic.inj hliteral
        have hlength := congrArg List.length hboth
        simp only [List.length_append, List.length_cons] at hlength
        -- Neither side is longer than its rendering, since the whole is not.
        have hlefts := (atom_of_classifyAtom left' l hleft' hl').renderChars_eq_or_lt
        have hrights := (atom_of_classifyAtom right' r hright' hr').renderChars_eq_or_lt
        obtain rfl : l.renderChars = left' := by
          rcases hlefts with heq | hlt
          · exact heq
          · rcases hrights with heq | hlt'
            · rw [heq] at hlength
              omega
            · omega
        obtain rfl : r.renderChars = right' := by
          rcases hrights with heq | hlt
          · exact heq
          · omega
        exact ⟨⟨hleft', hl'⟩, ⟨hright', hr'⟩, hinterval, hmatch⟩

/-- A literal of a token is restorable if and only if its rendering is a token
that stands for it. -/
theorem restorable_iff (u : List Char) (literal : Literal)
    (haccepts : Grammar.literal.accepts u = true) (h : classifyChars u = .ok literal) :
    literal.Restorable ↔ Grammar.literal.accepts literal.renderChars = true ∧
      classifyChars literal.renderChars = .ok literal := by
  cases token_of_classifyChars u literal haccepts h with
  | interval u _ => exact plain_token_iff u
  | split left right op l r hleft hl hright hr =>
      exact restorable_arithmetic_iff left right op l r hleft hl hright hr
  | atom u literal hoperand hread =>
      cases atom_of_classifyAtom u literal hoperand hread with
      | quoted v => exact plain_token_iff v
      | call name argument => exact ⟨fun _ => ⟨haccepts, h⟩, fun _ => trivial⟩
      | simple u _ => exact plain_token_iff u

end RecordQuery.Literal
