import RecordQuery.Proofs.Literal.Rendering
import RecordQuery.Proofs.Outcome

/-!
What becomes of a token that is read, written and read again. Quotes around a
text without need are not kept, so that the second token may differ from the
first; the literal is the same. Two kinds of literals are left out: a text that
begins like a polygon may be written without the quotes it had, and a division
of times may be written as an interval.
-/

namespace RecordQuery.Literal

open Pattern Text

/-- The plain texts of the literal and of its operands. -/
def plainTexts : Literal → List String
  | .plain value => [value]
  | .call _ _ => []
  | .arithmetic left _ right => left.plainTexts ++ right.plainTexts

/-- No plain text in the literal begins with the name of a polygon. -/
def NamesNoPolygon (literal : Literal) : Prop :=
  ∀ value ∈ literal.plainTexts, ¬"POLYGON".toList <+: value.toList

/-- The literal is a division of two plain texts that look like times. -/
def DividesTimes : Literal → Prop
  | .arithmetic (.plain left) .div (.plain right) =>
    temporal.accepts left.toList = true ∧ temporal.accepts right.toList = true
  | _ => False

/-! Tokens that are read. -/

theorem accepts_operand_of_callTemplate_fits (u : List Char) (parts : List (List Char))
    (h : callTemplate.Fits u parts []) : Grammar.operand.accepts u = true := by
  have hcall := (callTemplate_fits_iff u).mp ⟨parts, h⟩
  simp only [accepts_iff, Grammar.operand, anyOf, takes_either] at hcall ⊢
  rcases hcall with h | h <;> simp [h]

theorem accepts_operand_of_classifyAtom (u : List Char) (literal : Literal)
    (h : classifyAtom u = .ok literal) : Grammar.operand.accepts u = true := by
  unfold classifyAtom at h
  split at h
  · next hstring =>
    obtain ⟨v, rfl⟩ := (Grammar.string_accepts_iff u).mp hstring
    exact Grammar.accepts_operand_quote v
  · split at h
    · next hmatch =>
      exact accepts_operand_of_callTemplate_fits u _
        (Template.fits_of_matchAll? _ callTemplate_bounded _ _ hmatch)
    · split at h
      · assumption
      · simp at h

/-- What is read is a literal of the grammar or looks like a polygon. -/
theorem accepts_or_polygon_of_classifyChars (u : List Char) (literal : Literal)
    (h : classifyChars u = .ok literal) :
    Grammar.literal.accepts u = true ∨
      (Grammar.polygon.accepts u = true ∧ literal = .plain (.ofList u)) := by
  unfold classifyChars at h
  split at h
  · next hinterval =>
    have hoperand := accepts_operand_of_simple u (simple_of_interval u hinterval)
    exact .inl (accepts_literal_of_operand u hoperand)
  · split at h
    · next hmatch =>
      obtain ⟨left, op, right, hleft, hright, htoken, -⟩ := exists_split_of_matchAll? u _ hmatch
      exact .inl ((literal_accepts_iff u).mpr (.inr ⟨left, op, right, hleft, hright, htoken⟩))
    · unfold classifySimple at h
      split at h
      · next hatom =>
        have hoperand := accepts_operand_of_classifyAtom u _ hatom
        exact .inl (accepts_literal_of_operand u hoperand)
      · split at h
        · next hpolygon => exact .inr ⟨hpolygon, (Except.ok.inj h).symm⟩
        · simp at h

theorem begins_of_polygon (v : List Char) (h : Grammar.polygon.accepts v = true) :
    "POLYGON".toList <+: v := by
  simp only [Grammar.polygon, Pattern.all] at h
  obtain ⟨_, rest, rfl, hword, _⟩ := (takes_seq _ _ _ _).mp ((accepts_iff _ _).mp h)
  rw [(takes_text _ _ _).mp hword]
  exact List.prefix_append _ _

theorem restorable_plain_of_not_prefix (value : String)
    (h : ¬"POLYGON".toList <+: value.toList) : Restorable (.plain value) := by
  rw [Restorable]
  cases hpolygon : Grammar.polygon.accepts value.toList with
  | false => rfl
  | true => exact absurd (begins_of_polygon _ hpolygon) h

theorem Atom.restorable {u : List Char} {literal : Literal} (h : Atom u literal)
    (hpolygon : literal.NamesNoPolygon) : literal.Restorable := by
  cases h with
  | quoted v => exact restorable_plain_of_not_prefix _ (hpolygon _ (by simp [plainTexts]))
  | call name argument => trivial
  | simple u _ => exact restorable_plain_of_not_prefix _ (hpolygon _ (by simp [plainTexts]))

/-! Two operands beside a sign. -/

theorem plain_of_temporal (u : List Char) (literal : Literal) (h : classifyAtom u = .ok literal)
    (htemporal : temporal.accepts u = true) : literal = .plain (.ofList u) := by
  rw [classifyAtom_of_simple u (simple_of_temporal u htemporal)] at h
  exact (Except.ok.inj h).symm

theorem not_interval_of_operands (left right : List Char) (op : ArithmeticOperator)
    (hleft : Grammar.operand.accepts left = true) (hright : Grammar.operand.accepts right = true)
    (hapart : Apart left right op) :
    Grammar.interval.accepts (left ++ op.sign :: right) = false := by
  cases hinterval : Grammar.interval.accepts (left ++ op.sign :: right) with
  | false => rfl
  | true =>
      obtain ⟨-, hop, hl, hr⟩ := division_of_simple left right op
        (simple_of_interval _ hinterval) hleft hright
      exact absurd ⟨hop, (temporal_accepts_iff left).mpr (.inr hl),
        (temporal_accepts_iff right).mpr (.inr hr)⟩ hapart

/-- Two operands beside a sign are read as the two. -/
theorem matchAll?_operands (left right : List Char) (op : ArithmeticOperator)
    (hleft : Grammar.operand.accepts left = true) (hright : Grammar.operand.accepts right = true)
    (hapart : Apart left right op) :
    arithmeticTemplate.matchAll? (left ++ op.sign :: right) = some [left, [op.sign], right] :=
  matchAll?_of_split_unique left right op hleft hright
    (split_unique_of_apart left right op hleft hright hapart)

theorem restorable_arithmetic (left right : List Char) (op : ArithmeticOperator) (l r : Literal)
    (hl : classifyAtom left = .ok l) (hr : classifyAtom right = .ok r)
    (hpolygon : (arithmetic l op r).NamesNoPolygon)
    (hdivision : ¬(arithmetic l op r).DividesTimes) : (arithmetic l op r).Restorable := by
  have hleft := accepts_operand_of_classifyAtom left l hl
  have hright := accepts_operand_of_classifyAtom right r hr
  have hlatom := atom_of_classifyAtom left l hleft hl
  have hratom := atom_of_classifyAtom right r hright hr
  have hlrestorable := hlatom.restorable fun value hvalue =>
    hpolygon value (List.mem_append_left _ hvalue)
  have hrrestorable := hratom.restorable fun value hvalue =>
    hpolygon value (List.mem_append_right _ hvalue)
  obtain ⟨hlaccepts, hlread⟩ := (hlatom.restorable_iff hleft hl).mp hlrestorable
  obtain ⟨hraccepts, hrread⟩ := (hratom.restorable_iff hright hr).mp hrrestorable
  have hapart : Apart l.renderChars r.renderChars op := by
    rintro ⟨rfl, hl', hr'⟩
    have hlplain := plain_of_temporal _ l hlread hl'
    have hrplain := plain_of_temporal _ r hrread hr'
    rw [hlplain, hrplain] at hdivision
    exact hdivision ⟨by simpa using hl', by simpa using hr'⟩
  exact ⟨hlrestorable, hrrestorable,
    not_interval_of_operands _ _ op hlaccepts hraccepts hapart,
    matchAll?_operands _ _ op hlaccepts hraccepts hapart⟩

theorem Token.restorable {u : List Char} {literal : Literal} (h : Token u literal)
    (hpolygon : literal.NamesNoPolygon) (hdivision : ¬literal.DividesTimes) :
    literal.Restorable := by
  cases h with
  | interval u hinterval =>
      exact (Atom.simple u (simple_of_interval u hinterval)).restorable hpolygon
  | split left right op l r _ hl _ hr _ _ =>
      exact restorable_arithmetic left right op l r hl hr hpolygon hdivision
  | atom u literal haccepts hread =>
      exact (atom_of_classifyAtom u literal haccepts hread).restorable hpolygon

/-- A literal is written as a token that is read as the same literal, unless one
of its plain texts begins with the name of a polygon or it divides times. -/
theorem classify_render (token : String) (literal : Literal) (h : classify token = .ok literal)
    (hpolygon : literal.NamesNoPolygon) (hdivision : ¬literal.DividesTimes) :
    classify literal.render = .ok literal := by
  rw [classify] at h
  rw [classify, render, String.toList_ofList]
  rcases accepts_or_polygon_of_classifyChars _ _ h with haccepts | ⟨hlooks, rfl⟩
  · have htoken := token_of_classifyChars _ _ haccepts h
    exact ((restorable_iff _ _ haccepts h).mp (htoken.restorable hpolygon hdivision)).2
  · exact absurd (begins_of_polygon _ hlooks) (hpolygon token (by simp [plainTexts]))

/-- The quotes around the interval and the number are not written again, and the
second slash is still the division. -/
theorem classify_render_of_interval :
    let token := "'2024-01-01T00:00:00Z/P1D'/'2'"
    let literal := Literal.arithmetic (.plain "2024-01-01T00:00:00Z/P1D") .div (.plain "2")
    classify token = .ok literal ∧ literal.NamesNoPolygon ∧ ¬literal.DividesTimes ∧
      literal.render = "2024-01-01T00:00:00Z/P1D/2" ∧ classify literal.render = .ok literal := by
  intro token literal
  have hread : classify token = .ok literal := eq_ok_of_toOption (by decide +kernel)
  have hpolygon : literal.NamesNoPolygon := by
    simp only [NamesNoPolygon, literal, plainTexts]
    decide +kernel
  have hdivision : ¬literal.DividesTimes := by
    simp only [DividesTimes, literal]
    decide +kernel
  exact ⟨hread, hpolygon, hdivision, by decide +kernel,
    classify_render token literal hread hpolygon hdivision⟩

end RecordQuery.Literal
