import RecordQuery.Literal
import RecordQuery.Proofs.Grammar
import RecordQuery.Proofs.Pattern.Reading

/-!
How tokens are classified. A literal of the grammar is an operand or splits
into two operands at a sign, and every one of them can be classified.
-/

namespace RecordQuery

open Pattern Text

namespace Literal

theorem arithmeticTemplate_bounded : arithmeticTemplate.Bounded := by
  simp [Template.Bounded, arithmeticTemplate, Grammar.arithmeticSign, Bounded,
    Grammar.operand_bounded]

/-- A token that is split at a sign: two operands of the grammar and the sign. -/
theorem arithmeticTemplate_fits_iff (token : List Char) (parts : List (List Char)) :
    arithmeticTemplate.Fits token parts [] ↔
      ∃ left op right, Grammar.operand.accepts left = true ∧
        Grammar.operand.accepts right = true ∧
        token = left ++ ArithmeticOperator.sign op :: right ∧
        parts = [left, [op.sign], right] := by
  have hstop : ∀ (op : ArithmeticOperator) rest, StopsAt Grammar.isBreak (op.sign :: rest) := by
    intro op rest c hc
    obtain rfl : op.sign = c := by simpa using hc
    cases op <;> rfl
  have hleft := fun (op : ArithmeticOperator) left rest => takes_iff_accepts Grammar.isBreak
    Grammar.operand Grammar.operand_endsBefore left _ (hstop op rest)
  simp only [arithmeticTemplate, Template.Fits, Grammar.arithmeticSign, takes_one]
  constructor
  · rintro ⟨left, _, _, rfl, htakes, rfl, _, _, _, rfl, ⟨c, rfl, hc⟩, rfl, right, _, _, rfl,
      hright, rfl, rfl, rfl⟩
    obtain ⟨op, rfl⟩ : ∃ op : ArithmeticOperator, op.sign = c := by
      simp only [Bool.or_eq_true, beq_iff_eq] at hc
      rcases hc with ((rfl | rfl) | rfl) | rfl
      · exact ⟨.add, rfl⟩
      · exact ⟨.sub, rfl⟩
      · exact ⟨.mul, rfl⟩
      · exact ⟨.div, rfl⟩
    refine ⟨left, op, right, (hleft op left _).mp htakes, (accepts_iff _ _).mpr hright, ?_, rfl⟩
    simp
  · rintro ⟨left, op, right, hl, hr, rfl, rfl⟩
    refine ⟨left, _, _, rfl, (hleft op left _).mpr hl, rfl, [op.sign], right, _, rfl,
      ⟨op.sign, rfl, ?_⟩, rfl, right, [], _, by simp, (accepts_iff _ _).mp hr, rfl, rfl, rfl⟩
    cases op <;> rfl

/-- What is found in a token is two operands beside a sign. -/
theorem exists_split_of_matchAll? (token : List Char) (parts : List (List Char))
    (h : arithmeticTemplate.matchAll? token = some parts) :
    ∃ left op right, Grammar.operand.accepts left = true ∧
      Grammar.operand.accepts right = true ∧
      token = left ++ ArithmeticOperator.sign op :: right ∧ parts = [left, [op.sign], right] :=
  (arithmeticTemplate_fits_iff token parts).mp
    (Template.fits_of_matchAll? _ arithmeticTemplate_bounded _ _ h)

/-- Nothing is found just where there are no two operands beside a sign. -/
theorem matchAll?_eq_none_iff_not_split (token : List Char) :
    arithmeticTemplate.matchAll? token = none ↔
      ∀ left right op, Grammar.operand.accepts left = true →
        Grammar.operand.accepts right = true →
        token ≠ left ++ ArithmeticOperator.sign op :: right := by
  rw [Template.matchAll?_eq_none_iff _ arithmeticTemplate_bounded]
  simp only [arithmeticTemplate_fits_iff]
  constructor
  · intro hno left right op hleft hright heq
    exact hno _ ⟨left, op, right, hleft, hright, heq, rfl⟩
  · rintro hno _ ⟨left, op, right, hleft, hright, heq, -⟩
    exact hno left right op hleft hright heq

/-- Where two operands beside a sign split at no other sign, they are found. -/
theorem matchAll?_of_split_unique (left right : List Char) (op : ArithmeticOperator)
    (hleft : Grammar.operand.accepts left = true) (hright : Grammar.operand.accepts right = true)
    (hunique : ∀ left' right' op', Grammar.operand.accepts left' = true →
      Grammar.operand.accepts right' = true →
      left ++ op.sign :: right = left' ++ ArithmeticOperator.sign op' :: right' →
      left' = left ∧ op' = op ∧ right' = right) :
    arithmeticTemplate.matchAll? (left ++ op.sign :: right) = some [left, [op.sign], right] := by
  refine Template.matchAll?_eq_some_of_unique _ arithmeticTemplate_bounded _ _
    ((arithmeticTemplate_fits_iff _ _).mpr ⟨left, op, right, hleft, hright, rfl, rfl⟩) ?_
  intro parts hfits
  obtain ⟨left', op', right', hleft', hright', heq, rfl⟩ :=
    (arithmeticTemplate_fits_iff _ _).mp hfits
  obtain ⟨rfl, rfl, rfl⟩ := hunique left' right' op' hleft' hright' heq
  rfl

/-- A literal of the grammar is an operand, or splits at a sign. -/
theorem literal_accepts_iff (token : List Char) :
    Grammar.literal.accepts token = true ↔
      Grammar.operand.accepts token = true ∨
        ∃ left op right, Grammar.operand.accepts left = true ∧
          Grammar.operand.accepts right = true ∧
          token = left ++ ArithmeticOperator.sign op :: right := by
  have hsplit : (∃ left op right, Grammar.operand.accepts left = true ∧
      Grammar.operand.accepts right = true ∧
      token = left ++ ArithmeticOperator.sign op :: right) ↔
        ∃ parts, arithmeticTemplate.Fits token parts [] := by
    simp only [arithmeticTemplate_fits_iff]
    constructor
    · rintro ⟨left, op, right, hl, hr, h⟩
      exact ⟨_, left, op, right, hl, hr, h, rfl⟩
    · rintro ⟨_, left, op, right, hl, hr, h, _⟩
      exact ⟨left, op, right, hl, hr, h⟩
  rw [hsplit]
  simp only [accepts_iff, Grammar.literal, arithmeticTemplate, Template.Fits, takes_seq,
    takes_optional]
  constructor
  · rintro ⟨u, v, rfl, hu, (⟨sign, right, rfl, hsign, hright⟩ | rfl)⟩
    · refine .inr ⟨_, u, _, _, rfl, by simpa using hu, rfl, sign, right, _, rfl, ?_, rfl, right,
        [], _, by simp, hright, rfl, rfl, rfl⟩
      simpa using hsign
    · exact .inl (by simpa using hu)
  · rintro (h | ⟨_, u, _, _, rfl, hu, _, sign, _, _, rfl, hsign, _, right, _, _, rfl, hright, _, _,
      rfl⟩)
    · exact ⟨token, [], by simp, by simpa using h, .inr rfl⟩
    · refine ⟨u, sign ++ right, by simp, by simpa using hu, .inl ⟨sign, right, rfl, ?_, hright⟩⟩
      simpa using hsign

theorem classifyAtom_isOk (token : List Char) (h : Grammar.operand.accepts token = true) :
    ∃ literal, classifyAtom token = .ok literal := by
  unfold classifyAtom
  split
  · exact ⟨_, rfl⟩
  · split
    · exact ⟨_, rfl⟩
    · exact ⟨_, rfl⟩

/-- A token in which two operands are found is read as the sign between what they are
read as. -/
theorem classifyChars_of_split (token left right : List Char) (op : ArithmeticOperator)
    (l r : Literal) (hinterval : Grammar.interval.accepts token = false)
    (hmatch : arithmeticTemplate.matchAll? token = some [left, [op.sign], right])
    (hl : classifyAtom left = .ok l) (hr : classifyAtom right = .ok r) :
    classifyChars token = .ok (.arithmetic l op r) := by
  simp only [classifyChars, hinterval, hmatch, ArithmeticOperator.ofSign?_sign, hl, hr]
  rfl

/-- A token in which they are not found is read as an operand if it is one. -/
theorem classifyChars_of_atom (token : List Char) (literal : Literal)
    (hinterval : Grammar.interval.accepts token = false)
    (hmatch : arithmeticTemplate.matchAll? token = none)
    (hatom : classifyAtom token = .ok literal) : classifyChars token = .ok literal := by
  simp [classifyChars, hinterval, hmatch, classifySimple, hatom]

theorem accepts_operand_of_not_split (token : List Char) (h : Grammar.literal.accepts token = true)
    (hmatch : arithmeticTemplate.matchAll? token = none) :
    Grammar.operand.accepts token = true := by
  rcases (literal_accepts_iff token).mp h with hoperand | ⟨left, op, right, hl, hr, htoken⟩
  · exact hoperand
  · exact absurd htoken ((matchAll?_eq_none_iff_not_split token).mp hmatch left right op hl hr)

/-- Every literal of the grammar can be classified. -/
theorem classifyChars_isOk (token : List Char) (h : Grammar.literal.accepts token = true) :
    ∃ literal, classifyChars token = .ok literal := by
  cases hinterval : Grammar.interval.accepts token with
  | true => exact ⟨.plain (.ofList token), by simp [classifyChars, hinterval]⟩
  | false =>
      cases hmatch : arithmeticTemplate.matchAll? token with
      | some parts =>
          obtain ⟨left, op, right, hleft, hright, -, rfl⟩ :=
            exists_split_of_matchAll? token parts hmatch
          obtain ⟨l, hl⟩ := classifyAtom_isOk left hleft
          obtain ⟨r, hr⟩ := classifyAtom_isOk right hright
          exact ⟨_, classifyChars_of_split token left right op l r hinterval hmatch hl hr⟩
      | none =>
          obtain ⟨literal, hatom⟩ :=
            classifyAtom_isOk token (accepts_operand_of_not_split token h hmatch)
          exact ⟨literal, classifyChars_of_atom token literal hinterval hmatch hatom⟩

end Literal

end RecordQuery
