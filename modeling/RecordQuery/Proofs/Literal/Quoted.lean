import RecordQuery.Proofs.Literal.Classification
import RecordQuery.Proofs.Text.Pieces

/-!
Quoted texts in literals. A quoted text stands for a whole operand, or for one
side of an arithmetic one, and the literal splits at no other sign than the one
beside it. So it is read as that text whatever it is, and no two texts are read
alike.
-/

namespace RecordQuery

open Pattern Text

theorem ArithmeticOperator.sign_inj (op op' : ArithmeticOperator) (h : op.sign = op'.sign) :
    op = op' := by
  have hsign := ofSign?_sign op
  rw [h, ofSign?_sign] at hsign
  exact (Option.some.inj hsign).symm

theorem ArithmeticOperator.sign_ne_quote (op : ArithmeticOperator) : op.sign ≠ '\'' := by
  cases op <;> decide

/-- Where a quoted text stands in an operand. -/
inductive Place where
  | whole
  /-- Left of a sign and an operand of the grammar. -/
  | leftOf (op : ArithmeticOperator) (right : List Char)
      (h : Grammar.operand.accepts right = true)
  /-- Right of an operand of the grammar and a sign. -/
  | rightOf (left : List Char) (op : ArithmeticOperator)
      (h : Grammar.operand.accepts left = true)

namespace Place

/-- The operand with this text in its place. -/
def token : Place → List Char → List Char
  | .whole, v => quote v
  | .leftOf op right _, v => quote v ++ op.sign :: right
  | .rightOf left op _, v => left ++ op.sign :: quote v

/-- What the operand stands for. -/
def literal : Place → List Char → Except QueryError Literal
  | .whole, v => .ok (.plain (.ofList v))
  | .leftOf op right _, v => do
    return .arithmetic (.plain (.ofList v)) op (← Literal.classifyAtom right)
  | .rightOf left op _, v => do
    return .arithmetic (← Literal.classifyAtom left) op (.plain (.ofList v))

theorem accepts_token (place : Place) (v : List Char) :
    Grammar.literal.accepts (place.token v) = true := by
  rw [Literal.literal_accepts_iff]
  cases place with
  | whole => exact .inl (Grammar.accepts_operand_quote v)
  | leftOf op right h => exact .inr ⟨_, op, right, Grammar.accepts_operand_quote v, h, rfl⟩
  | rightOf left op h => exact .inr ⟨left, op, _, h, Grammar.accepts_operand_quote v, rfl⟩

/-- Every quoted text of a literal stands in a place. -/
theorem exists_place (u : List Char) (h : Grammar.literal.accepts u = true) (hquote : '\'' ∈ u) :
    ∃ (place : Place) (v : List Char), u = place.token v := by
  rcases (Literal.literal_accepts_iff u).mp h with h | ⟨left, op, right, hl, hr, rfl⟩
  · rcases Grammar.quote_or_of_accepts_operand u h with ⟨v, rfl⟩ | hne
    · exact ⟨.whole, v, rfl⟩
    · exact absurd rfl (hne _ hquote)
  · rcases Grammar.quote_or_of_accepts_operand left hl with ⟨v, rfl⟩ | hleft
    · exact ⟨.leftOf op right hr, v, rfl⟩
    · rcases Grammar.quote_or_of_accepts_operand right hr with ⟨v, rfl⟩ | hright
      · exact ⟨.rightOf left op hl, v, rfl⟩
      · simp only [List.mem_append, List.mem_cons] at hquote
        rcases hquote with hmem | heq | hmem
        · exact absurd rfl (hleft _ hmem)
        · exact absurd heq.symm op.sign_ne_quote
        · exact absurd rfl (hright _ hmem)

theorem head_sign_ne (op : ArithmeticOperator) (rest : List Char) :
    (op.sign :: rest).head? ≠ some '\'' := by
  simpa using op.sign_ne_quote

/-- A text that begins with a quoted text splits behind it first. -/
theorem split_of_quote (v rest left right : List Char) (op : ArithmeticOperator)
    (hrest : rest.head? ≠ some '\'') (hleft : Grammar.operand.accepts left = true)
    (h : quote v ++ rest = left ++ op.sign :: right) :
    left = quote v ∧ rest = op.sign :: right := by
  rcases Grammar.quote_or_of_accepts_operand left hleft with ⟨w, rfl⟩ | hne
  · obtain ⟨rfl, hsame⟩ := quote_append_inj v w rest _ hrest (head_sign_ne op right) h
    exact ⟨rfl, hsame⟩
  · have hfilled := ne_nil_of_takes _ Grammar.operand_filled left [] ((accepts_iff _ _).mp hleft)
    obtain ⟨c, tail, rfl⟩ := List.exists_cons_of_ne_nil hfilled
    simp only [quote, List.cons_append, List.cons.injEq] at h
    exact absurd h.1.symm (hne c (by simp))

/-- Two operands without quotes and their signs before a quoted text are the same. -/
theorem split_before_quote (v left left' right : List Char) (op op' : ArithmeticOperator)
    (hl' : ∀ c ∈ left', c ≠ '\'') (hl : ∀ c ∈ left, c ≠ '\'')
    (hright : Grammar.operand.accepts right = true)
    (h : left' ++ op'.sign :: quote v = left ++ op.sign :: right) :
    left = left' ∧ op = op' ∧ right = quote v := by
  have hsigned : ∀ (s : List Char) (op : ArithmeticOperator), (∀ c ∈ s, c ≠ '\'') →
      ∀ c ∈ s ++ [op.sign], c ≠ '\'' := by
    intro s op hs c hc
    rcases List.mem_append.mp hc with hc | hc
    · exact hs c hc
    · rw [List.mem_singleton.mp hc]
      exact op.sign_ne_quote
  rcases Grammar.quote_or_of_accepts_operand right hright with ⟨w, rfl⟩ | hne
  · have hsplit : (left' ++ [op'.sign]) ++ '\'' :: (doubleQuotes v ++ ['\'']) =
        (left ++ [op.sign]) ++ '\'' :: (doubleQuotes w ++ ['\'']) := by
      simpa [quote] using h
    obtain ⟨hbefore, hafter⟩ := append_cons_inj '\'' _ _ _ _ (hsigned left' op' hl')
      (hsigned left op hl) hsplit
    obtain ⟨rfl, hsign⟩ := List.append_inj' hbefore rfl
    obtain rfl := ArithmeticOperator.sign_inj op' op (List.cons.inj hsign).1
    exact ⟨rfl, rfl, by rw [quote, quote, hafter]⟩
  · have hmem : '\'' ∈ left ++ op.sign :: right := by
      rw [← h]
      simp [quote]
    simp only [List.mem_append, List.mem_cons] at hmem
    rcases hmem with hmem | heq | hmem
    · exact absurd rfl (hl _ hmem)
    · exact absurd heq.symm op.sign_ne_quote
    · exact absurd rfl (hne _ hmem)

/-- An operand with a quoted text splits at no other sign than its own. -/
theorem split_unique (place : Place) (v left right : List Char) (op : ArithmeticOperator)
    (hleft : Grammar.operand.accepts left = true) (hright : Grammar.operand.accepts right = true)
    (h : place.token v = left ++ op.sign :: right) :
    match place with
    | .whole => False
    | .leftOf op' right' _ => left = quote v ∧ op = op' ∧ right = right'
    | .rightOf left' op' _ => left = left' ∧ op = op' ∧ right = quote v := by
  cases place with
  | whole =>
      have hnil : quote v ++ [] = left ++ op.sign :: right := by simpa [token] using h
      obtain ⟨_, hempty⟩ := split_of_quote v [] left right op (by simp) hleft hnil
      simp at hempty
  | leftOf op' right' h' =>
      obtain ⟨hquote, hrest⟩ := split_of_quote v _ left right op (head_sign_ne op' right') hleft h
      obtain ⟨hsign, rfl⟩ := List.cons.inj hrest
      exact ⟨hquote, (ArithmeticOperator.sign_inj op' op hsign).symm, rfl⟩
  | rightOf left' op' h' =>
      rcases Grammar.quote_or_of_accepts_operand left' h' with ⟨w, rfl⟩ | hne'
      · obtain ⟨hquote, hrest⟩ := split_of_quote w _ left right op (head_sign_ne op' _) hleft h
        obtain ⟨hsign, rfl⟩ := List.cons.inj hrest
        exact ⟨hquote, (ArithmeticOperator.sign_inj op' op hsign).symm, rfl⟩
      · rcases Grammar.quote_or_of_accepts_operand left hleft with ⟨w, rfl⟩ | hne
        · obtain ⟨rfl, _⟩ := split_of_quote w _ left' _ op' (head_sign_ne op right) h' h.symm
          have hmem : '\'' ∈ quote w := by simp [quote]
          exact absurd rfl (hne' _ hmem)
        · exact split_before_quote v left left' right op op' hne' hne hright h

theorem classifyAtom_quote (v : List Char) :
    Literal.classifyAtom (quote v) = .ok (.plain (.ofList v)) := by
  rw [Literal.classifyAtom, if_pos ((Grammar.string_accepts_iff _).mpr ⟨v, rfl⟩), unquote_quote]

theorem mem_token (place : Place) (v : List Char) : '\'' ∈ place.token v := by
  cases place <;> simp [token, quote]

theorem not_accepts_interval (place : Place) (v : List Char) :
    Grammar.interval.accepts (place.token v) = false := by
  cases h : Grammar.interval.accepts (place.token v) with
  | false => rfl
  | true => exact absurd rfl (Grammar.ne_quote_of_accepts_interval _ h '\'' (place.mem_token v))

/-- A quoted text is read as this text, and what else stands in the operand as it stands. -/
theorem classifyChars_token (place : Place) (v : List Char) :
    Literal.classifyChars (place.token v) = place.literal v := by
  have hinterval := place.not_accepts_interval v
  cases place with
  | whole =>
      have hnone : Literal.arithmeticTemplate.matchAll? (token .whole v) = none :=
        (Literal.matchAll?_eq_none_iff_not_split _).mpr (split_unique .whole v)
      exact Literal.classifyChars_of_atom _ _ hinterval hnone (classifyAtom_quote v)
  | leftOf op right h =>
      obtain ⟨r, hr⟩ := Literal.classifyAtom_isOk right h
      have hmatch := Literal.matchAll?_of_split_unique _ _ op (Grammar.accepts_operand_quote v) h
        (split_unique (.leftOf op right h) v)
      rw [literal, hr]
      exact Literal.classifyChars_of_split _ _ _ op _ r hinterval hmatch (classifyAtom_quote v) hr
  | rightOf left op h =>
      obtain ⟨l, hl⟩ := Literal.classifyAtom_isOk left h
      have hmatch := Literal.matchAll?_of_split_unique _ _ op h (Grammar.accepts_operand_quote v)
        (split_unique (.rightOf left op h) v)
      rw [literal, hl]
      exact Literal.classifyChars_of_split _ _ _ op l _ hinterval hmatch hl (classifyAtom_quote v)

theorem exists_literal (place : Place) :
    ∃ literal : List Char → Literal, ∀ v, place.literal v = .ok (literal v) := by
  cases place with
  | whole => exact ⟨fun v => .plain (.ofList v), fun v => rfl⟩
  | leftOf op right h =>
      obtain ⟨r, hr⟩ := Literal.classifyAtom_isOk right h
      exact ⟨fun v => .arithmetic (.plain (.ofList v)) op r, fun v => by rw [literal, hr]; rfl⟩
  | rightOf left op h =>
      obtain ⟨l, hl⟩ := Literal.classifyAtom_isOk left h
      exact ⟨fun v => .arithmetic l op (.plain (.ofList v)), fun v => by rw [literal, hl]; rfl⟩

end Place

namespace Literal

theorem classify_ofList_quote (v : String) :
    classify (.ofList (quote v.toList)) = .ok (.plain v) := by
  rw [classify, String.toList_ofList]
  simpa [Place.token, Place.literal] using Place.classifyChars_token .whole v.toList

/-- Any text at all, with its quotes doubled and between quotes, is read as this plain
text, and without its quotes it is the text. So two texts are never read alike. -/
theorem classify_quote (v w : String) :
    quote v.toList = '\'' ::
        (v.toList.flatMap (fun c => if c = '\'' then ['\'', '\''] else [c]) ++ ['\'']) ∧
      classify (.ofList (quote v.toList)) = .ok (.plain v) ∧
      unquote (quote v.toList) = v.toList ∧
      (classify (.ofList (quote v.toList)) = classify (.ofList (quote w.toList)) ↔ v = w) := by
  refine ⟨by rw [quote, doubleQuotes_eq_flatMap], classify_ofList_quote v,
    unquote_quote v.toList, ?_⟩
  rw [classify_ofList_quote, classify_ofList_quote, Except.ok.injEq, plain.injEq]

end Literal

end RecordQuery
