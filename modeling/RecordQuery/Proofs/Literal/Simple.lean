import RecordQuery.Proofs.Literal.Classification

/-!
The forms of an operand: a quoted text, a call, or a text that stands for
itself. The last are intervals, instants, numbers, truth values and durations.
They have neither quotes nor parentheses, by which they are told from the
others, and few of them have a sign.
-/

namespace RecordQuery.Literal

open Pattern Text

/-- The operands that are no calls and have no quotes. -/
def simple : Pattern :=
  anyOf [Grammar.interval, Grammar.instant, Grammar.number, Grammar.boolean, Grammar.duration]

theorem simple_each : simple.Each fun s => ∀ c ∈ s, c ≠ '(' ∧ c ≠ '\'' := by
  have hdigit : ∀ c, Text.isDigit c = true → c ≠ '(' ∧ c ≠ '\'' := by
    intro c h
    constructor <;> (rintro rfl; exact absurd h (by decide))
  simp +contextual [simple, Grammar.interval, Grammar.instant, Grammar.duration, Grammar.number,
    Grammar.boolean, Grammar.component, someOf, exactly, Pattern.all, anyOf, Pattern.optional,
    Pattern.text, Each, hdigit]

theorem plain_of_accepts_simple (v : List Char) (h : simple.accepts v = true) :
    ∀ c ∈ v, c ≠ '(' ∧ c ≠ '\'' :=
  forall_of_takes _ simple simple_each v [] ((accepts_iff _ _).mp h)

/-! The forms of an operand. -/

/-- The parts of a call. -/
structure Calls (u name argument : List Char) : Prop where
  eq : u = name ++ '(' :: (argument ++ [')'])
  named : ∀ c ∈ name, Grammar.isNameChar c = true
  filled : name ≠ []
  closed : ∀ c ∈ argument, c ≠ ')'

theorem ne_close_of_takes_callOperand (v rest : List Char)
    (h : Grammar.callOperand.Takes v rest) : ∀ c ∈ v, c ≠ ')' := by
  have hdigit : ∀ c, Text.isDigit c = true → c ≠ ')' := by
    rintro c h rfl
    exact absurd h (by decide)
  have hlower : ∀ c, Grammar.isLower c = true → c ≠ ')' := by
    rintro c h rfl
    exact absurd h (by decide)
  have hpath : ∀ c, Grammar.isPathChar c = true → c ≠ ')' := by
    rintro c h rfl
    exact absurd h (by decide)
  refine forall_of_takes (· ≠ ')') _ ?_ v rest h
  simp +contextual [Grammar.callOperand, Grammar.interval, Grammar.instant, Grammar.duration,
    Grammar.number, Grammar.component, Grammar.path, exactly, someOf, Pattern.all, anyOf,
    Pattern.optional, Pattern.text, Each, hdigit, hlower, hpath]

theorem calls_of_takes_name (name argument rest : List Char)
    (hname : Grammar.functionName.Takes name rest) (hargument : ∀ c ∈ argument, c ≠ ')') :
    Calls (name ++ '(' :: (argument ++ [')'])) name argument where
  eq := rfl
  named := forall_of_takes (Grammar.isNameChar · = true) _
    (by simp [Grammar.functionName, someOf, Each]) name rest hname
  filled := ne_nil_of_takes _ (by simp [Grammar.functionName, someOf, Filled]) name rest hname
  closed := hargument

/-- An operand is a quoted text, a call, or stands for itself. -/
theorem operand_cases (u : List Char) (h : Grammar.operand.accepts u = true) :
    (∃ v, u = quote v) ∨ (∃ name argument, Calls u name argument) ∨ simple.accepts u = true := by
  have hcall : Grammar.functionCall.Takes u [] → ∃ name argument, Calls u name argument := by
    simp only [Grammar.functionCall, Pattern.all, takes_seq, takes_text]
    rintro ⟨name, _, rfl, hname, _, _, rfl, rfl, argument, _, rfl, hargument, rfl⟩
    exact ⟨name, argument, calls_of_takes_name name argument _ hname
      (ne_close_of_takes_callOperand argument _ hargument)⟩
  have hempty : Grammar.emptyCall.Takes u [] → ∃ name argument, Calls u name argument := by
    simp only [Grammar.emptyCall, takes_seq, takes_text]
    rintro ⟨name, _, rfl, hname, rfl⟩
    exact ⟨name, [], calls_of_takes_name name [] _ hname (by simp)⟩
  have hstring : Grammar.string.Takes u [] → ∃ v, u = quote v := by
    rw [← accepts_iff, Grammar.string_accepts_iff]
    exact id
  rw [accepts_iff] at h ⊢
  simp only [Grammar.operand, simple, anyOf, takes_either] at h ⊢
  rcases h with h | h | h | h | h | h | h | h
  · simp [h]
  · simp [h]
  · exact .inr (.inl (hcall h))
  · exact .inr (.inl (hempty h))
  · simp [h]
  · simp [h]
  · exact .inl (hstring h)
  · simp [h]

/-- A text without quotes and parentheses is an operand only if it is a simple one. -/
theorem simple_of_accepts_operand (u : List Char) (h : Grammar.operand.accepts u = true)
    (hplain : ∀ c ∈ u, c ≠ '(' ∧ c ≠ '\'') : simple.accepts u = true := by
  rcases operand_cases u h with ⟨v, rfl⟩ | ⟨name, argument, hcall⟩ | h
  · exact absurd rfl (hplain '\'' (by simp [quote])).2
  · exact absurd rfl (hplain '(' (by simp [hcall.eq])).1
  · exact h

theorem accepts_operand_of_simple (v : List Char) (h : simple.accepts v = true) :
    Grammar.operand.accepts v = true := by
  rw [accepts_iff] at h ⊢
  simp only [simple, Grammar.operand, anyOf, takes_either] at h ⊢
  rcases h with h | h | h | h | h <;> simp [h]

theorem simple_of_interval (u : List Char) (h : Grammar.interval.accepts u = true) :
    simple.accepts u = true := by
  rw [accepts_iff] at h ⊢
  simp [simple, anyOf, takes_either, h]

/-! Signs within simple operands. -/

def isSign (c : Char) : Bool :=
  c == '+' || c == '-' || c == '*' || c == '/'

theorem isSign_sign (op : ArithmeticOperator) : isSign op.sign = true := by
  cases op <;> rfl

theorem length_of_instant (v rest : List Char) (h : Grammar.instant.Takes v rest) :
    v.length = 20 :=
  length_of_takes Grammar.instant 20 rfl v rest h

/-- A class of characters without the arithmetic signs. -/
theorem not_isSign_of_accepts (accepts : Char → Bool)
    (haccepts : ∀ op : ArithmeticOperator, accepts op.sign = false) (c : Char)
    (h : accepts c = true) : isSign c = false := by
  cases hsign : isSign c with
  | false => rfl
  | true =>
      obtain ⟨op, rfl⟩ : ∃ op : ArithmeticOperator, op.sign = c := by
        simp only [isSign, Bool.or_eq_true, beq_iff_eq] at hsign
        rcases hsign with ((rfl | rfl) | rfl) | rfl
        · exact ⟨.add, rfl⟩
        · exact ⟨.sub, rfl⟩
        · exact ⟨.mul, rfl⟩
        · exact ⟨.div, rfl⟩
      simp [haccepts op] at h

theorem not_isSign_of_isDigit (c : Char) (h : Text.isDigit c = true) : isSign c = false :=
  not_isSign_of_accepts Text.isDigit (fun op => by cases op <;> rfl) c h

theorem not_isSign_of_isNameChar (c : Char) (h : Grammar.isNameChar c = true) :
    isSign c = false :=
  not_isSign_of_accepts Grammar.isNameChar (fun op => by cases op <;> rfl) c h

/-- The only sign of a number is its first character. -/
theorem not_split_of_number (left right : List Char) (op : ArithmeticOperator)
    (h : Grammar.number.Takes (left ++ op.sign :: right) []) (hne : left ≠ []) : False := by
  obtain ⟨minus, digits, heq, hminus, hdigits⟩ := (takes_seq _ _ _ _).mp h
  have hsigns := forall_of_takes (isSign · = false) _ (by
    simpa [someOf, Pattern.all, Pattern.optional, Pattern.text, Each, isSign]
      using not_isSign_of_isDigit) digits _ hdigits
  have hmem : op.sign ∈ digits := by
    obtain ⟨c, tail, rfl⟩ := List.exists_cons_of_ne_nil hne
    rcases (takes_optional _ _ _).mp hminus with hword | rfl
    · rw [(takes_text _ _ _).mp hword] at heq
      have htail : tail ++ op.sign :: right = digits := (List.cons.inj heq).2
      simp [← htail]
    · rw [List.nil_append] at heq
      simp [← heq]
  have := hsigns op.sign hmem
  simp [isSign_sign op] at this

end RecordQuery.Literal
