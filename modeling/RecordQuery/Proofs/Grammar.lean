import RecordQuery.Grammar
import RecordQuery.Proofs.Pattern.Takes
import RecordQuery.Proofs.Text.Quotes

/-!
The tokens of the query language. No token but a quoted text has a quote in
it, and outside quotes a literal has neither a blank nor a comma nor a
comparison sign. Whatever may stand behind a token in a clause is a break: a
character over which no token goes on, so that a token in its place is the
same as the token alone.
-/

namespace RecordQuery.Grammar

open Pattern Text

/-- A character behind which no token goes on. -/
def isBreak (c : Char) : Bool :=
  [' ', ',', ')', '=', '<', '>', '+', '-', '*', '/'].contains c

/-- A character of a property as it is written: a path, or a call around one. -/
def isPropertyChar (c : Char) : Bool :=
  isPathChar c || c == '(' || c == ')'

/-- A character of a literal outside quotes. -/
def isLiteralChar (c : Char) : Bool :=
  isPropertyChar c || ['-', ':', '/', '+', '*'].contains c

def isUpper (c : Char) : Bool :=
  'A' ≤ c && c ≤ 'Z'

theorem isBreak_eq (c : Char) (h : isBreak c = true) :
    isPathChar c = false ∧ isNameChar c = false ∧ Text.isDigit c = false ∧ c ≠ '\'' := by
  simp only [isBreak, List.contains_eq_mem, List.mem_cons, List.not_mem_nil, or_false,
    decide_eq_true_eq] at h
  rcases h with rfl | rfl | rfl | rfl | rfl | rfl | rfl | rfl | rfl | rfl <;> decide

theorem isPropertyChar_of_isLower (c : Char) (h : isLower c = true) : isPropertyChar c = true := by
  simp [isPropertyChar, isPathChar, isLetter, h]

theorem isPropertyChar_of_isNameChar (c : Char) (h : isNameChar c = true) :
    isPropertyChar c = true := by
  simp only [isNameChar, Bool.or_eq_true] at h
  rcases h with h | h <;> simp [isPropertyChar, isPathChar, h]

theorem isPropertyChar_of_isPathChar (c : Char) (h : isPathChar c = true) :
    isPropertyChar c = true := by
  simp [isPropertyChar, h]

theorem isPropertyChar_of_isDigit (c : Char) (h : Text.isDigit c = true) :
    isPropertyChar c = true := by
  simp [isPropertyChar, isPathChar, h]

theorem isPropertyChar_range (c : Char) (h : isPropertyChar c = true) : '(' ≤ c ∧ c ≤ 'z' := by
  simp only [isPropertyChar, isPathChar, isLetter, isLower, Text.isDigit, Bool.or_eq_true,
    Bool.and_eq_true, decide_eq_true_eq, beq_iff_eq] at h
  rcases h with (((((h | h) | h) | rfl) | rfl) | rfl) | rfl
  · exact ⟨Char.le_trans (by decide) h.1, h.2⟩
  · exact ⟨Char.le_trans (by decide) h.1, Char.le_trans h.2 (by decide)⟩
  · exact ⟨Char.le_trans (by decide) h.1, Char.le_trans h.2 (by decide)⟩
  all_goals decide

theorem isBlank_eq_false (c : Char) (h : isPropertyChar c = true) : Text.isBlank c = false := by
  obtain ⟨hlow, hhigh⟩ := isPropertyChar_range c h
  have hlow' : 40 ≤ c.toNat := hlow
  have hhigh' : c.toNat ≤ 122 := hhigh
  simp only [isBlank, Bool.or_eq_false_iff, Bool.and_eq_false_iff, decide_eq_false_iff_not,
    beq_eq_false_iff_ne]
  omega

theorem string_endsBefore (stop : Char → Bool) (hstop : stop '\'' = false) :
    Grammar.string.EndsBefore stop := by
  intro text rest rest' halike h
  rw [quotedLength?_eq_some_iff] at h ⊢
  obtain ⟨v, after, htext, hlen, hhead⟩ := h
  obtain ⟨rfl, rfl⟩ := List.append_inj htext hlen
  refine ⟨v, rest', rfl, rfl, ?_⟩
  rcases halike with hsame | ⟨_, hstops⟩
  · rwa [← hsame]
  · intro hquote
    have := hstops '\'' hquote
    simp [hstop] at this

theorem property_endsBefore : property.EndsBefore isBreak := by
  have hpath : ∀ c, isBreak c = true → isPathChar c = false := fun c h => (isBreak_eq c h).1
  have hname : ∀ c, isBreak c = true → isNameChar c = false := fun c h => (isBreak_eq c h).2.1
  simp +contextual [property, path, pathCall, functionName, someOf, Pattern.all, Pattern.text,
    EndsBefore, hpath, hname]

theorem operand_endsBefore : operand.EndsBefore isBreak := by
  have hpath : ∀ c, isBreak c = true → isPathChar c = false := fun c h => (isBreak_eq c h).1
  have hname : ∀ c, isBreak c = true → isNameChar c = false := fun c h => (isBreak_eq c h).2.1
  have hdigit : ∀ c, isBreak c = true → Text.isDigit c = false :=
    fun c h => (isBreak_eq c h).2.2.1
  have hstring := string_endsBefore isBreak rfl
  simp +contextual [operand, interval, instant, duration, functionCall, callOperand, emptyCall,
    number, boolean, component, path, functionName, someOf, exactly, Pattern.all, anyOf,
    Pattern.optional, Pattern.text, EndsBefore, hpath, hname, hdigit, hstring]

theorem literal_endsBefore : literal.EndsBefore isBreak := by
  simp [literal, arithmeticSign, Pattern.optional, EndsBefore, operand_endsBefore]

/-! Properties. -/

theorem property_each_isPropertyChar :
    property.Each fun s => ∀ c ∈ s, isPropertyChar c = true := by
  have hopen : isPropertyChar '(' = true := rfl
  have hclose : isPropertyChar ')' = true := rfl
  simp +contextual [property, path, pathCall, functionName, someOf, Pattern.all, Pattern.text, Each,
    isPropertyChar_of_isLower, isPropertyChar_of_isNameChar, isPropertyChar_of_isPathChar,
    hopen, hclose]

theorem isPropertyChar_of_takes_property (text rest : List Char)
    (h : property.Takes text rest) : ∀ c ∈ text, isPropertyChar c = true :=
  forall_of_takes _ property property_each_isPropertyChar text rest h

theorem property_filled : property.Filled := by
  simp [property, path, pathCall, functionName, someOf, Pattern.all, Filled]

/-- A property has a character besides upper-case letters: a path begins with a
lower-case one, and a call has a parenthesis. -/
theorem exists_not_isUpper_of_takes_property (text rest : List Char)
    (h : property.Takes text rest) : ∃ c ∈ text, isUpper c = false := by
  rw [property, takes_either] at h
  rcases h with h | h
  · obtain ⟨_, v, rfl, hone, _⟩ := (takes_seq _ _ _ _).mp h
    obtain ⟨c, rfl, hc⟩ := (takes_one _ _ _).mp hone
    refine ⟨c, by simp, ?_⟩
    simp only [isLower, isUpper, Bool.and_eq_true, decide_eq_true_eq, Bool.and_eq_false_iff,
      decide_eq_false_iff_not] at hc ⊢
    exact .inr fun hle => absurd (Char.le_trans hc.1 hle) (by decide)
  · simp only [pathCall, Pattern.all, takes_seq, takes_text] at h
    obtain ⟨name, _, rfl, _, _, v, rfl, rfl, _⟩ := h
    exact ⟨'(', by simp, rfl⟩

/-! Literals. -/

theorem isLiteralChar_of_isPropertyChar (c : Char) (h : isPropertyChar c = true) :
    isLiteralChar c = true := by
  simp [isLiteralChar, h]

theorem sealed_singleton (accepts : Char → Bool) (c : Char) (h : accepts c = true)
    (hquote : accepts '\'' = false) : Sealed accepts [c] := by
  refine Sealed.of_forall fun d hd => ?_
  obtain rfl := List.mem_singleton.mp hd
  refine ⟨h, ?_⟩
  rintro rfl
  simp [h] at hquote

theorem string_each (accepts : Char → Bool) : Grammar.string.Each (Sealed accepts) := by
  intro s n h
  obtain ⟨v, rest, rfl, rfl, _⟩ := (quotedLength?_eq_some_iff s n).mp h
  simpa using sealed_quote accepts v

theorem operand_each : operand.Each (Sealed isLiteralChar) := by
  have hproperty : ∀ c, isPropertyChar c = true → Sealed isLiteralChar [c] := fun c h =>
    sealed_singleton isLiteralChar c (isLiteralChar_of_isPropertyChar c h) rfl
  have hlower : ∀ c, isLower c = true → Sealed isLiteralChar [c] := fun c h =>
    hproperty c (isPropertyChar_of_isLower c h)
  have hpath : ∀ c, isPathChar c = true → Sealed isLiteralChar [c] := fun c h =>
    hproperty c (isPropertyChar_of_isPathChar c h)
  have hname : ∀ c, isNameChar c = true → Sealed isLiteralChar [c] := fun c h =>
    hproperty c (isPropertyChar_of_isNameChar c h)
  have hdigit : ∀ c, Text.isDigit c = true → Sealed isLiteralChar [c] := fun c h =>
    hproperty c (isPropertyChar_of_isDigit c h)
  have hstring := string_each isLiteralChar
  have hword : ∀ w : List Char, w.all (fun c => decide (isLiteralChar c = true ∧ c ≠ '\'')) = true →
      Sealed isLiteralChar w := fun w h => .of_forall (forall_mem_of_all _ w h)
  simp +contextual [operand, interval, instant, duration, functionCall, callOperand, emptyCall,
    number, boolean, component, path, functionName, someOf, exactly, Pattern.all, anyOf,
    Pattern.optional, Pattern.text, Each, hstring, hlower, hpath, hname, hdigit]
  simp (disch := decide) only [hword, and_self]

theorem sealed_of_takes_literal (text rest : List Char) (h : literal.Takes text rest) :
    Sealed isLiteralChar text := by
  have hsign : arithmeticSign.Each (Sealed isLiteralChar) := by
    intro c hc
    refine sealed_singleton isLiteralChar c ?_ rfl
    simp only [Bool.or_eq_true, beq_iff_eq] at hc
    rcases hc with ((rfl | rfl) | rfl) | rfl <;> rfl
  have hliteral : literal.Each (Sealed isLiteralChar) :=
    ⟨operand_each, ⟨hsign, operand_each⟩, trivial⟩
  exact holds_of_takes _ (.of_forall (by simp)) (fun _ _ => .append) literal hliteral text rest h

/-- The quoted tokens are the writings of texts. -/
theorem string_accepts_iff (token : List Char) :
    Grammar.string.accepts token = true ↔ ∃ v, token = quote v := by
  rw [← quotedLength?_self_iff]
  simp [Grammar.string, Pattern.accepts, ends]

/-- The operands that are not quoted. -/
def unquotedOperand : Pattern :=
  anyOf [interval, instant, functionCall, emptyCall, number, boolean, duration]

theorem unquotedOperand_each : unquotedOperand.Each fun s => ∀ c ∈ s, c ≠ '\'' := by
  have hlower : ∀ c, isLower c = true → c ≠ '\'' := by
    rintro c h rfl
    exact absurd h (by decide)
  have hpath : ∀ c, isPathChar c = true → c ≠ '\'' := by
    rintro c h rfl
    exact absurd h (by decide)
  have hname : ∀ c, isNameChar c = true → c ≠ '\'' := by
    rintro c h rfl
    exact absurd h (by decide)
  have hdigit : ∀ c, Text.isDigit c = true → c ≠ '\'' := by
    rintro c h rfl
    exact absurd h (by decide)
  simp +contextual [unquotedOperand, interval, instant, duration, functionCall, callOperand,
    emptyCall, number, boolean, component, path, functionName, someOf, exactly, Pattern.all, anyOf,
    Pattern.optional, Pattern.text, Each, hlower, hpath, hname, hdigit]

theorem ne_quote_of_takes_unquotedOperand (u rest : List Char)
    (h : unquotedOperand.Takes u rest) : ∀ c ∈ u, c ≠ '\'' :=
  forall_of_takes _ unquotedOperand unquotedOperand_each u rest h

/-- An operand is quoted as a whole or has no quotes at all. -/
theorem quote_or_of_accepts_operand (u : List Char) (h : operand.accepts u = true) :
    (∃ v, u = quote v) ∨ ∀ c ∈ u, c ≠ '\'' := by
  have hsplit : Grammar.string.Takes u [] ∨ unquotedOperand.Takes u [] := by
    rw [accepts_iff] at h
    simp only [operand, unquotedOperand, anyOf, takes_either] at h ⊢
    rcases h with h | h | h | h | h | h | h | h <;> simp [h]
  rw [← accepts_iff, string_accepts_iff] at hsplit
  exact hsplit.imp id (ne_quote_of_takes_unquotedOperand u [])

theorem ne_quote_of_accepts_interval (u : List Char) (h : interval.accepts u = true) :
    ∀ c ∈ u, c ≠ '\'' := by
  refine ne_quote_of_takes_unquotedOperand u [] ?_
  rw [accepts_iff] at h
  simp [unquotedOperand, anyOf, takes_either, h]

theorem accepts_operand_quote (v : List Char) : operand.accepts (quote v) = true := by
  have h := (accepts_iff _ _).mp ((string_accepts_iff (quote v)).mpr ⟨v, rfl⟩)
  rw [accepts_iff]
  simp only [operand, anyOf, takes_either]
  simp [h]

theorem operand_filled : operand.Filled := by
  have hstring : Grammar.string.Filled := by
    intro s h
    obtain ⟨v, rest, _, hlen, _⟩ := (quotedLength?_eq_some_iff s 0).mp h
    simp [quote] at hlen
  simp [operand, interval, instant, duration, functionCall, emptyCall, number, boolean,
    functionName, someOf, exactly, Pattern.all, anyOf, Pattern.text, Filled, hstring]

/-! Bounds. -/

theorem string_bounded : Grammar.string.Bounded := by
  intro s n h
  obtain ⟨v, rest, rfl, rfl, _⟩ := (quotedLength?_eq_some_iff s n).mp h
  simp

theorem property_bounded : property.Bounded := by
  simp [property, path, pathCall, functionName, someOf, Pattern.all, Pattern.text, Bounded]

theorem callOperand_bounded : callOperand.Bounded := by
  simp [callOperand, interval, instant, duration, number, component, path, someOf, exactly,
    Pattern.all, anyOf, Pattern.optional, Pattern.text, Bounded]

theorem operand_bounded : operand.Bounded := by
  simp [operand, interval, instant, duration, functionCall, callOperand_bounded, emptyCall,
    number, boolean, component, functionName, someOf, exactly, Pattern.all, anyOf,
    Pattern.optional, Pattern.text, Bounded, string_bounded]

theorem literal_bounded : literal.Bounded := by
  simp [literal, arithmeticSign, Pattern.optional, Bounded, operand_bounded]

theorem polygon_bounded : polygon.Bounded := by
  simp [polygon, Pattern.all, Pattern.text, Bounded]

end RecordQuery.Grammar
