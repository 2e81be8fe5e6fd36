import RecordQuery.Proofs.Literal.Rereading

/-!
Arithmetic literals are read operand by operand. The signs also stand within numbers,
instants, intervals, arguments of calls and quoted texts, and which of them a literal is
split at is found by trying. Two operands of the grammar beside a sign part at this sign
and at no other, whatever they are, so that the literal is made of what each of them is
read as alone. Left out is the division of two times, of which some are intervals and
others, such as three times between two slashes, part in two ways.
-/

namespace RecordQuery.Literal

open Pattern Text

theorem classifyChars_of_calls {u name argument : List Char} (hcall : Calls u name argument)
    (h : Grammar.operand.accepts u = true) : classifyChars u = classifyAtom u := by
  have hinterval : Grammar.interval.accepts u = false := by
    cases hinterval : Grammar.interval.accepts u with
    | false => rfl
    | true =>
        have hplain := plain_of_accepts_simple u (simple_of_interval u hinterval)
        exact absurd rfl (hplain '(' (by simp [hcall.eq])).1
  have hnone : arithmeticTemplate.matchAll? u = none := by
    rw [matchAll?_eq_none_iff_not_split]
    intro left right op hleft _ heq
    obtain ⟨-, hrest⟩ := hcall.split_append [] left right op hleft ((List.append_nil u).trans heq)
    exact absurd hrest (by simp)
  obtain ⟨literal, hliteral⟩ := classifyAtom_isOk u h
  rw [classifyChars_of_atom u literal hinterval hnone hliteral, hliteral]

/-- An operand that stands alone is read like one beside a sign. -/
theorem classifyChars_of_operand (u : List Char) (h : Grammar.operand.accepts u = true) :
    classifyChars u = classifyAtom u := by
  rcases operand_cases u h with ⟨v, rfl⟩ | ⟨name, argument, hcall⟩ | hsimple
  · exact (Place.classifyChars_token .whole v).trans (Place.classifyAtom_quote v).symm
  · exact classifyChars_of_calls hcall h
  · rw [classifyChars_of_simple u hsimple, classifyAtom_of_simple u hsimple]

/-- Two operands beside a sign are read as the sign between what each of them is read as,
unless they divide times. No other two operands beside a sign make the same token. -/
theorem classify_operands (left right : String) (op : ArithmeticOperator)
    (hleft : Grammar.operand.accepts left.toList = true)
    (hright : Grammar.operand.accepts right.toList = true)
    (hapart : Apart left.toList right.toList op) :
    ∃ l r, classifyAtom left.toList = .ok l ∧ classifyAtom right.toList = .ok r ∧
      classify left = .ok l ∧ classify right = .ok r ∧
      classify (left ++ op.sign.toString ++ right) = .ok (.arithmetic l op r) ∧
      ∀ left' right' op', Grammar.operand.accepts left'.toList = true →
        Grammar.operand.accepts right'.toList = true →
        left ++ op.sign.toString ++ right =
          left' ++ (ArithmeticOperator.sign op').toString ++ right' →
        left' = left ∧ op' = op ∧ right' = right := by
  obtain ⟨l, hl⟩ := classifyAtom_isOk left.toList hleft
  obtain ⟨r, hr⟩ := classifyAtom_isOk right.toList hright
  have htoken : ∀ (left right : String) (op : ArithmeticOperator),
      (left ++ op.sign.toString ++ right).toList = left.toList ++ op.sign :: right.toList := by
    simp
  refine ⟨l, r, hl, hr, (classifyChars_of_operand _ hleft).trans hl,
    (classifyChars_of_operand _ hright).trans hr, ?_, ?_⟩
  · rw [classify, htoken]
    exact classifyChars_of_split _ _ _ op l r
      (not_interval_of_operands _ _ op hleft hright hapart)
      (matchAll?_operands _ _ op hleft hright hapart) hl hr
  · intro left' right' op' hleft' hright' heq
    have hchars := congrArg String.toList heq
    rw [htoken, htoken] at hchars
    obtain ⟨hl', hop, hr'⟩ := split_unique_of_apart _ _ op hleft hright hapart _ _ op' hleft'
      hright' hchars
    exact ⟨String.toList_inj.mp hl', hop, String.toList_inj.mp hr'⟩

/-- Of the five signs the second slash is the division. -/
theorem classify_operands_of_interval :
    let left := "2024-01-01T00:00:00Z/P1D"
    let right := "-2.5"
    Grammar.operand.accepts left.toList = true ∧ Grammar.operand.accepts right.toList = true ∧
      Apart left.toList right.toList .div ∧
      classify "2024-01-01T00:00:00Z/P1D/-2.5" =
        .ok (.arithmetic (.plain left) .div (.plain right)) := by
  intro left right
  have hleft : Grammar.operand.accepts left.toList = true := by decide +kernel
  have hright : Grammar.operand.accepts right.toList = true := by decide +kernel
  have hapart : Apart left.toList right.toList .div := by
    simp only [Apart, left, right]
    decide +kernel
  refine ⟨hleft, hright, hapart, ?_⟩
  obtain ⟨l, r, hl, hr, -, -, hboth, -⟩ := classify_operands left right .div hleft hright hapart
  have hl' : classifyAtom left.toList = .ok (.plain left) := eq_ok_of_toOption (by decide +kernel)
  have hr' : classifyAtom right.toList = .ok (.plain right) :=
    eq_ok_of_toOption (by decide +kernel)
  obtain rfl := Except.ok.inj (hl'.symm.trans hl)
  obtain rfl := Except.ok.inj (hr'.symm.trans hr)
  exact hboth

end RecordQuery.Literal
