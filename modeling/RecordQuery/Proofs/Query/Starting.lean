import RecordQuery.Proofs.Query.Matching

/-!
Where clauses can start. Outside quotes a clause can start within a clause and
the separator behind it only in the property, since nothing else is followed by
the sign of an operator: behind an operand comes the separator, and a keyword
is no property. Quotes must be counted for this, for between quotes there is
any text.

Spatial clauses are left out. They have no sign behind the property, and when
the template of the spatial operator is used, no other clauses are left.
-/

namespace RecordQuery.Clause

open Pattern Text

/-- The text begins with a property and the sign of an operator. -/
def Starts (s : List Char) : Prop :=
  ∃ p operator rest, Grammar.property.accepts p = true ∧ s = p ++ (sign operator ++ rest)

/-- A clause with a sign starts where it is written. -/
theorem starts_chars (clause : Clause) (hs : clause.operator.isSpatial = false)
    (h : clause.Shaped) (rest : List Char) : Starts (clause.chars ++ rest) := by
  refine ⟨clause.property, clause.operator, clause.operandChars ++ rest, h.property, ?_⟩
  simp [chars, hs]

/-- Behind the property characters that the text begins with there is no sign. -/
def Barred (s : List Char) : Prop :=
  ∀ p operator rest, (∀ c ∈ p, Grammar.isPropertyChar c = true) →
    s ≠ p ++ (sign operator ++ rest)

theorem Barred.not_starts {s : List Char} (h : Barred s) : ¬Starts s := by
  rintro ⟨p, operator, rest, hp, heq⟩
  refine h p operator rest (fun c hc => ?_) heq
  exact Grammar.isPropertyChar_of_takes_property p [] ((accepts_iff _ _).mp hp) c hc

theorem barred_cons (c : Char) (s : List Char) (hc : Grammar.isPropertyChar c = true)
    (hs : Barred s) : Barred (c :: s) := by
  intro p operator rest hp heq
  cases p with
  | nil =>
      obtain ⟨d, tail, hsign, hd, _⟩ := sign_eq_cons operator
      simp only [hsign, List.nil_append, List.cons_append, List.cons.injEq] at heq
      rw [← heq.1, hc] at hd
      exact absurd hd (by simp)
  | cons d p =>
      simp only [List.cons_append, List.cons.injEq] at heq
      exact hs p operator rest (fun e he => hp e (by simp [he])) heq.2

theorem barred_append (s t : List Char) (hs : ∀ c ∈ s, Grammar.isPropertyChar c = true)
    (ht : Barred t) : Barred (s ++ t) := by
  induction s with
  | nil => exact ht
  | cons c s ih =>
      exact barred_cons c _ (hs c (by simp)) (ih fun d hd => hs d (by simp [hd]))

/-- A character with which a sign can begin. -/
def isSignHead (c : Char) : Bool :=
  [' ', '=', '<', '>'].contains c

theorem sign_head (operator : Operator) :
    ∃ c tail, sign operator = c :: tail ∧ isSignHead c = true ∧
      (c = ' ' → ∃ d tail', tail = d :: tail' ∧ ['B', 'N', 'L', 'I'].contains d = true) := by
  cases operator <;> refine ⟨_, _, rfl, rfl, ?_⟩ <;>
    first
    | exact fun _ => ⟨_, _, rfl, rfl⟩
    | exact fun h => absurd h (by decide)

theorem barred_of_head (c : Char) (s : List Char) (hc : Grammar.isPropertyChar c = false)
    (hhead : isSignHead c = false) : Barred (c :: s) := by
  intro p operator rest hp heq
  cases p with
  | nil =>
      obtain ⟨d, tail, hsign, hd, _⟩ := sign_head operator
      simp only [hsign, List.nil_append, List.cons_append, List.cons.injEq] at heq
      rw [← heq.1, hhead] at hd
      exact absurd hd (by simp)
  | cons d p =>
      simp only [List.cons_append, List.cons.injEq] at heq
      have := hp d (by simp)
      rw [← heq.1, hc] at this
      exact absurd this (by simp)

/-- Behind a blank that belongs to a sign there is one of four letters. -/
theorem barred_blank (d : Char) (s : List Char) (hd : ['B', 'N', 'L', 'I'].contains d = false) :
    Barred (' ' :: d :: s) := by
  intro p operator rest hp heq
  cases p with
  | nil =>
      obtain ⟨c, tail, hsign, _, hblank⟩ := sign_head operator
      simp only [hsign, List.nil_append, List.cons_append, List.cons.injEq] at heq
      obtain ⟨e, tail', rfl, he⟩ := hblank heq.1.symm
      simp only [List.cons_append, List.cons.injEq] at heq
      rw [← heq.2.1, hd] at he
      exact absurd he (by simp)
  | cons c p =>
      simp only [List.cons_append, List.cons.injEq] at heq
      have := hp c (by simp)
      rw [← heq.1] at this
      exact absurd this (by decide)

theorem barred_separator (s : List Char) : Barred (Query.separator ++ s) :=
  barred_blank 'A' _ (by decide)

/-- A sealed text goes over into what comes behind it: none of its characters
outside quotes begins a sign, and neither does a quote. -/
theorem barred_of_sealed (accepts : Char → Bool)
    (haccepts : ∀ c, accepts c = true → Grammar.isPropertyChar c = true ∨ isSignHead c = false)
    (s t : List Char) (hs : ∀ c ∈ skeleton false s, accepts c = true) (ht : Barred t) :
    Barred (s ++ t) := by
  induction s with
  | nil => exact ht
  | cons c s ih =>
      by_cases hquote : c = '\''
      · subst hquote
        exact barred_of_head _ _ (by decide) (by decide)
      · simp only [skeleton, if_neg hquote, Bool.false_eq_true, if_false, List.mem_cons,
          forall_eq_or_imp] at hs
        cases hc : Grammar.isPropertyChar c with
        | true => exact barred_cons c _ hc (ih hs.2)
        | false =>
            rcases haccepts c hs.1 with h | h
            · simp [hc] at h
            · exact barred_of_head c _ hc h

/-! Texts within which nothing starts. -/

/-- No clause starts within the text, outside quotes, when the other comes behind it. -/
def Mute (s t : List Char) : Prop :=
  ∀ before after, s = before ++ after → after ≠ [] → endsInside false before = false →
    ¬Starts (after ++ t)

theorem Mute.append {s s' t : List Char} (hs : Mute s (s' ++ t)) (hs' : Mute s' t)
    (hclosed : endsInside false s = false) : Mute (s ++ s') t := by
  intro before after heq hne hout
  rcases List.append_eq_append_iff.mp heq with ⟨more, rfl, rfl⟩ | ⟨more, rfl, rfl⟩
  · rw [endsInside_append, hclosed] at hout
    exact hs' more after rfl hne hout
  · cases more with
    | nil => exact hs' [] s' rfl (by simpa using hne) rfl
    | cons c more =>
        simpa using hs before (c :: more) rfl (by simp) hout

theorem mute_of_barred (s t : List Char)
    (h : ∀ before after, s = before ++ after → after ≠ [] → endsInside false before = false →
      Barred (after ++ t)) : Mute s t :=
  fun before after heq hne hout => (h before after heq hne hout).not_starts

theorem mute_of_property (s t : List Char) (hs : ∀ c ∈ s, Grammar.isPropertyChar c = true)
    (ht : Barred t) : Mute s t := by
  refine mute_of_barred s t fun before after heq _ _ => ?_
  exact barred_append after t (fun c hc => hs c (by simp [heq, hc])) ht

theorem mute_of_sealed (accepts : Char → Bool)
    (haccepts : ∀ c, accepts c = true → Grammar.isPropertyChar c = true ∨ isSignHead c = false)
    (s t : List Char) (hs : Sealed accepts s) (ht : Barred t) : Mute s t := by
  refine mute_of_barred s t fun before after heq _ hout => ?_
  refine barred_of_sealed accepts haccepts after t (fun c hc => hs.skeleton_mem c ?_) ht
  rw [heq, skeleton_append, hout]
  exact List.mem_append_right _ hc

/-- Characters that no property has. -/
theorem mute_of_not_property (s t : List Char)
    (hs : ∀ c ∈ s, Grammar.isPropertyChar c = false) : Mute s t := by
  rintro before after heq hne - ⟨p, operator, rest, hp, hstart⟩
  obtain ⟨c, after, rfl⟩ := List.exists_cons_of_ne_nil hne
  have hfilled := ne_nil_of_takes _ Grammar.property_filled p [] ((accepts_iff _ _).mp hp)
  obtain ⟨d, p, rfl⟩ := List.exists_cons_of_ne_nil hfilled
  have hd := Grammar.isPropertyChar_of_takes_property _ [] ((accepts_iff _ _).mp hp) d (by simp)
  simp only [List.cons_append, List.cons.injEq] at hstart
  have hc := hs c (by simp [heq])
  rw [hstart.1, hd] at hc
  exact absurd hc (by simp)

/-- Keywords: what stands before a blank there is no property, since a property
has a character besides upper-case letters. -/
theorem mute_of_keyword (s t : List Char) (hs : ∀ c ∈ s, Grammar.isUpper c = true ∨ c = ' ') :
    Mute s (' ' :: t) := by
  rintro before after heq - - ⟨p, operator, rest, hp, hstart⟩
  have hall : ∀ c ∈ after, Grammar.isUpper c = true ∨ c = ' ' :=
    fun c hc => hs c (by simp [heq, hc])
  obtain ⟨d, tail, hsign, hd, _⟩ := sign_eq_cons operator
  obtain ⟨e, he, hlower⟩ :=
    Grammar.exists_not_isUpper_of_takes_property p [] ((accepts_iff _ _).mp hp)
  have hprop := Grammar.isPropertyChar_of_takes_property p [] ((accepts_iff _ _).mp hp)
  clear heq hp
  induction p generalizing after with
  | nil => simp at he
  | cons c p ih =>
      cases after with
      | nil =>
          simp only [List.nil_append, List.cons_append, List.cons.injEq] at hstart
          have := hprop c (by simp)
          rw [← hstart.1] at this
          exact absurd this (by decide)
      | cons c' after =>
          simp only [List.cons_append, List.cons.injEq] at hstart
          obtain ⟨rfl, hstart⟩ := hstart
          rcases hall c' (by simp) with hupper | rfl
          · rcases List.mem_cons.mp he with rfl | he
            · simp [hupper] at hlower
            · exact ih after hstart (fun x hx => hall x (by simp [hx])) he
                fun x hx => hprop x (by simp [hx])
          · exact absurd (hprop ' ' (by simp)) (by decide)

/-! Within a clause. -/

theorem mute_blank (t : List Char) : Mute [' '] t :=
  mute_of_not_property _ t (forall_mem_of_all _ _ (by decide))

theorem mute_separator (t : List Char) : Mute Query.separator t :=
  Mute.append (s := " AND".toList) (mute_of_keyword _ t (forall_mem_of_all _ _ (by decide)))
    (mute_blank t) (by decide)

theorem mute_sign (operator : Operator) (t : List Char)
    (ht : operator.arity = .none → t.head? = some ' ') : Mute (sign operator) t := by
  cases hcomparison : operator.isComparison with
  | true =>
      refine mute_of_not_property _ t (forall_mem_of_all _ _ ?_)
      cases operator <;> first | decide | simp [Operator.isComparison] at hcomparison
  | false =>
      by_cases harity : operator.arity = .none
      · obtain ⟨t, rfl⟩ := List.head?_eq_some_iff.mp (ht harity)
        refine mute_of_keyword _ t (forall_mem_of_all _ _ ?_)
        cases operator <;> first | decide | simp [Operator.arity] at harity
      · have hsign : sign operator = (" " ++ operator.keyword).toList ++ [' '] := by
          simp [sign, hcomparison, harity]
        rw [hsign]
        refine Mute.append (mute_of_keyword _ t (forall_mem_of_all _ _ ?_)) (mute_blank t) ?_
        · cases operator <;> first | decide | simp [Operator.isComparison] at hcomparison
        · cases operator <;> decide

theorem endsInside_sign (operator : Operator) : endsInside false (sign operator) = false := by
  cases operator <;> decide

theorem isLiteralChar_or (c : Char) (h : Grammar.isLiteralChar c = true) :
    Grammar.isPropertyChar c = true ∨ isSignHead c = false := by
  simp only [Grammar.isLiteralChar, List.contains_eq_mem, List.mem_cons, List.not_mem_nil,
    or_false, Bool.or_eq_true, decide_eq_true_eq] at h
  rcases h with h | rfl | rfl | rfl | rfl | rfl
  · exact .inl h
  all_goals exact .inr rfl

theorem isListChar_or (c : Char) (h : isListChar c = true) :
    Grammar.isPropertyChar c = true ∨ isSignHead c = false := by
  simp only [isListChar, Bool.or_eq_true, beq_iff_eq] at h
  rcases h with h | rfl
  · exact isLiteralChar_or c h
  · exact .inr rfl

/-- An operand with the separator behind it. -/
theorem mute_operand (accepts : Char → Bool)
    (haccepts : ∀ c, accepts c = true → Grammar.isPropertyChar c = true ∨ isSignHead c = false)
    (u t : List Char) (hu : Sealed accepts u) : Mute (u ++ Query.separator) t :=
  Mute.append (mute_of_sealed accepts haccepts u _ hu (barred_separator t)) (mute_separator t)
    hu.closed

/-- No blank of a checked polygon has a letter behind it. -/
theorem barred_of_shape (shape t : List Char)
    (hshape : ∀ c ∈ shape, Polygon.isShapeChar c = true) (ht : Barred t) :
    Barred (shape ++ ')' :: t) := by
  have hletter : ∀ c, Polygon.isShapeChar c = true → ['B', 'N', 'L', 'I'].contains c = false := by
    intro c hc
    cases hcontains : ['B', 'N', 'L', 'I'].contains c with
    | false => rfl
    | true =>
        simp only [List.contains_eq_mem, List.mem_cons, List.not_mem_nil, or_false,
          decide_eq_true_eq] at hcontains
        rcases hcontains with rfl | rfl | rfl | rfl <;> exact absurd hc (by decide)
  induction shape with
  | nil => exact barred_cons ')' t rfl ht
  | cons c shape ih =>
      have htail := ih fun d hd => hshape d (by simp [hd])
      cases hprop : Grammar.isPropertyChar c with
      | true => exact barred_cons c _ hprop htail
      | false =>
          by_cases hhead : isSignHead c = true
          · have hc := hshape c (by simp)
            simp only [isSignHead, List.contains_eq_mem, List.mem_cons, List.not_mem_nil, or_false,
              decide_eq_true_eq] at hhead
            rcases hhead with rfl | rfl | rfl | rfl
            · cases shape with
              | nil => exact barred_blank ')' t (by decide)
              | cons d shape => exact barred_blank d _ (hletter d (hshape d (by simp)))
            all_goals exact absurd hc (by decide)
          · exact barred_of_head c _ hprop (by simpa using hhead)

theorem mute_shape (shape t : List Char) (hshape : ∀ c ∈ shape, Polygon.isShapeChar c = true)
    (ht : Barred t) : Mute (shape ++ [')']) t := by
  refine mute_of_barred _ t fun before after heq hne _ => ?_
  rcases List.append_eq_append_iff.mp heq with ⟨more, rfl, hclose⟩ | ⟨more, rfl, rfl⟩
  · rcases List.append_eq_singleton_iff.mp hclose.symm with ⟨_, rfl⟩ | ⟨_, rfl⟩
    · exact barred_cons ')' t rfl ht
    · exact absurd rfl hne
  · simpa using barred_of_shape more t (fun c hc => hshape c (by simp [hc])) ht

theorem isPropertyChar_ne_quote (c : Char) (h : Grammar.isPropertyChar c = true) : c ≠ '\'' := by
  rintro rfl
  exact absurd h (by decide)

theorem isShapeChar_ne_quote (c : Char) (h : Polygon.isShapeChar c = true) : c ≠ '\'' := by
  rintro rfl
  exact absurd h (by decide)

/-- A spatial clause with the separator behind it. -/
theorem mute_spatial (p u t : List Char) (hp : Grammar.property.accepts p = true)
    (hcheck : Polygon.check u = .ok ()) :
    Mute ((⟨.intersects, p, [u]⟩ : Clause).chars ++ Query.separator) t := by
  obtain ⟨shape, rfl, hshape⟩ := Polygon.shape_of_check u hcheck
  have hkeyword : ∀ c ∈ "INTERSECTS(".toList, Grammar.isPropertyChar c = true :=
    forall_mem_of_all _ _ (by decide)
  have hword : ∀ c ∈ "INTERSECTS(".toList ++ p, Grammar.isPropertyChar c = true := by
    intro c hc
    rcases List.mem_append.mp hc with hc | hc
    · exact hkeyword c hc
    · exact Grammar.isPropertyChar_of_takes_property p [] ((accepts_iff _ _).mp hp) c hc
  have hshapeOut : endsInside false (shape ++ [')']) = false := by
    refine endsInside_of_forall_ne false _ fun c hc => ?_
    rcases List.mem_append.mp hc with hc | hc
    · exact isShapeChar_ne_quote c (hshape c hc)
    · rw [List.mem_singleton.mp hc]
      decide
  have hpolygon : Mute ("POLYGON".toList ++ ((shape ++ [')']) ++ Query.separator)) t := by
    refine Mute.append (mute_of_property _ _ (forall_mem_of_all _ _ (by decide)) ?_) ?_ (by decide)
    · simpa using barred_of_shape shape _ hshape (barred_separator t)
    · exact Mute.append (mute_shape shape _ hshape (barred_separator t)) (mute_separator t)
        hshapeOut
  have hcomma : Mute ([','] ++ ("POLYGON".toList ++ ((shape ++ [')']) ++ Query.separator))) t :=
    Mute.append (mute_of_not_property _ _ (forall_mem_of_all _ _ (by decide))) hpolygon (by decide)
  have hwhole := Mute.append (mute_of_property ("INTERSECTS(".toList ++ p) _ hword
    (barred_of_head ',' _ (by decide) (by decide))) hcomma
    (endsInside_of_forall_ne false _ fun c hc => isPropertyChar_ne_quote c (hword c hc))
  simpa [chars_spatial] using hwhole

/-- A clause with a sign, from the sign on, with the separator behind it. -/
theorem mute_behind_property (clause : Clause) (hs : clause.operator.isSpatial = false)
    (h : clause.Shaped) (t : List Char) :
    Mute (sign clause.operator ++ (clause.operandChars ++ Query.separator)) t := by
  have hall := h.operands
  cases h.form with
  | single operator p u hs' ha =>
      refine Mute.append (mute_sign operator _ (by simp [ha])) ?_ (endsInside_sign operator)
      simpa [operandChars, ha] using
        mute_operand _ isLiteralChar_or u t (sealed_token operator hs u (hall u (by simp)))
  | pair operator p u v ha =>
      have hoperand := fun w hw t =>
        mute_operand _ isLiteralChar_or w t (sealed_token operator hs w (hall w hw))
      have hclosed : endsInside false (u ++ Query.separator) = false := by
        rw [endsInside_append, (sealed_token operator hs u (hall u (by simp))).closed]
        decide
      refine Mute.append (mute_sign operator _ (by simp [ha])) ?_ (endsInside_sign operator)
      have := Mute.append (hoperand u (by simp) _) (hoperand v (by simp) t) hclosed
      simpa [operandChars, ha, Text.join] using this
  | none operator p ha =>
      refine Mute.append (mute_sign operator _ ?_) ?_ (endsInside_sign operator)
      · simp [operandChars, ha, Query.separator]
      · simpa [operandChars, ha] using mute_separator t
  | many operator p elements ha hne =>
      refine Mute.append (mute_sign operator _ (by simp [ha])) ?_ (endsInside_sign operator)
      have hliteral : ∀ u ∈ elements, Grammar.literal.accepts u = true := by
        simpa [(token_of_arity_ne operator (by simp [ha])).1] using hall
      have hopen : Sealed isListChar ['('] := Grammar.sealed_singleton _ _ rfl rfl
      have hclose : Sealed isListChar [')'] := Grammar.sealed_singleton _ _ rfl rfl
      have hlist := hopen.append ((sealed_list elements hliteral).append hclose)
      simpa [operandChars, ha] using mute_operand _ isListChar_or _ t hlist
  | spatial => simp [Operator.isSpatial] at hs

/-! Clauses as a whole. -/

theorem endsInside_operandChars (clause : Clause) (hs : clause.operator.isSpatial = false)
    (h : clause.Shaped) : endsInside false clause.operandChars = false := by
  have hall := h.operands
  cases h.form with
  | single operator p u hs' ha =>
      simpa [operandChars, ha] using (sealed_token operator hs u (hall u (by simp))).closed
  | pair operator p u v ha =>
      have hu := (sealed_token operator hs u (hall u (by simp))).closed
      have hv := (sealed_token operator hs v (hall v (by simp))).closed
      simp [operandChars, ha, Text.join, endsInside_append, hu, hv, Query.separator, endsInside]
  | none operator p ha => simp [operandChars, ha, endsInside]
  | many operator p elements ha hne =>
      have hliteral : ∀ u ∈ elements, Grammar.literal.accepts u = true := by
        simpa [(token_of_arity_ne operator (by simp [ha])).1] using hall
      have hlist := (sealed_list elements hliteral).closed
      simp [operandChars, ha, endsInside, endsInside_append, hlist]
  | spatial => simp [Operator.isSpatial] at hs

theorem ne_quote_of_spatial (p u : List Char) (hp : Grammar.property.accepts p = true)
    (hcheck : Polygon.check u = .ok ()) :
    ∀ c ∈ (⟨.intersects, p, [u]⟩ : Clause).chars, c ≠ '\'' := by
  obtain ⟨shape, rfl, hshape⟩ := Polygon.shape_of_check u hcheck
  have hprop := Grammar.isPropertyChar_of_takes_property p [] ((accepts_iff _ _).mp hp)
  intro c hc
  simp only [chars_spatial, List.mem_append, List.mem_cons, List.not_mem_nil, or_false] at hc
  have hkeyword : ∀ c ∈ "INTERSECTS(".toList, c ≠ '\'' := forall_mem_of_all _ _ (by decide)
  have hword : ∀ c ∈ "POLYGON".toList, c ≠ '\'' := forall_mem_of_all _ _ (by decide)
  rcases hc with hc | hc | rfl | (hc | hc) | rfl
  · exact hkeyword c hc
  · exact isPropertyChar_ne_quote c (hprop c hc)
  · decide
  · exact hword c hc
  · exact isShapeChar_ne_quote c (hshape c hc)
  · decide

/-- A grammatical clause closes its quotes. -/
theorem Grammatical.closed {clause : Clause} (h : clause.Grammatical) :
    endsInside false clause.chars = false := by
  cases hs : clause.operator.isSpatial with
  | true =>
      obtain ⟨p, u, rfl, hp, _, hcheck⟩ := h.exists_spatial hs
      exact endsInside_of_forall_ne false _ (ne_quote_of_spatial p u hp hcheck)
  | false =>
      simp [chars, hs, endsInside_append, (sealed_property _ h.property).closed,
        endsInside_sign, endsInside_operandChars clause hs h.toShaped]

theorem endsInside_separator (inside : Bool) : endsInside inside Query.separator = inside := by
  cases inside <;> decide

/-- A clause begins with a character of a property: the property comes first, or a keyword. -/
theorem Shaped.exists_chars_eq_cons {clause : Clause} (h : clause.Shaped) :
    ∃ c tail, clause.chars = c :: tail ∧ Grammar.isPropertyChar c = true := by
  cases hs : clause.operator.isSpatial with
  | true => exact ⟨'I', _, by simp only [chars, hs, if_true]; rfl, rfl⟩
  | false =>
      have hp := (accepts_iff _ _).mp h.property
      have hfilled := ne_nil_of_takes _ Grammar.property_filled _ [] hp
      have hprop := Grammar.isPropertyChar_of_takes_property _ [] hp
      obtain ⟨c, tail, hcons⟩ := List.exists_cons_of_ne_nil hfilled
      refine ⟨c, tail ++ (sign clause.operator ++ clause.operandChars), ?_, ?_⟩
      · simp [chars, hs, hcons]
      · exact hprop c (by simp [hcons])

/-! Clauses that start in a property. -/

/-- A character of a comparison sign. -/
def isComparisonChar (c : Char) : Bool :=
  ['=', '<', '>'].contains c

/-- A sign is the beginning of another one only if what the other has more are
characters of comparison signs. -/
theorem sign_isPrefixOf : ∀ operator ∈ Operator.all, ∀ operator' ∈ Operator.all,
    (sign operator).isPrefixOf (sign operator') = true →
      operator = operator' ∨
        ((sign operator').drop (sign operator).length).head?.any isComparisonChar = true := by
  decide

theorem sign_inj (operator operator' : Operator) (s s' : List Char)
    (hs : s.head?.any isComparisonChar = false) (hs' : s'.head?.any isComparisonChar = false)
    (h : sign operator ++ s = sign operator' ++ s') : operator = operator' := by
  have hcase : ∀ (operator operator' : Operator) (s t : List Char),
      s.head?.any isComparisonChar = false → sign operator' = sign operator ++ t →
      (∃ s', s = t ++ s') → operator = operator' := by
    rintro operator operator' _ t hs hsign ⟨s', rfl⟩
    have hpre : (sign operator).isPrefixOf (sign operator') = true := by simp [hsign]
    rcases sign_isPrefixOf operator (Operator.mem_all _) operator' (Operator.mem_all _) hpre with
      h | h
    · exact h
    · rw [hsign, List.drop_left] at h
      cases t with
      | nil => simp at h
      | cons c t =>
          simp only [List.cons_append, List.head?_cons] at h hs
          rw [hs] at h
          exact absurd h (by simp)
  rcases List.append_eq_append_iff.mp h with ⟨t, hsign, hs''⟩ | ⟨t, hsign, hs''⟩
  · exact hcase operator operator' s t hs hsign ⟨s', hs''⟩
  · exact (hcase operator' operator s' t hs' hsign ⟨s, hs''⟩).symm

theorem operandChars_head (clause : Clause) (hs : clause.operator.isSpatial = false)
    (h : clause.Shaped) (t : List Char) :
    (clause.operandChars ++ (Query.separator ++ t)).head?.any isComparisonChar = false := by
  have hsealed : ∀ (accepts : Char → Bool), (∀ c, isComparisonChar c = true → accepts c = false) →
      ∀ u t, Sealed accepts u →
        (u ++ (Query.separator ++ t)).head?.any isComparisonChar = false := by
    intro accepts haccepts u t hu
    cases u with
    | nil => rfl
    | cons c u =>
        cases hc : isComparisonChar c with
        | false => simpa using hc
        | true =>
            have hquote : c ≠ '\'' := by
              rintro rfl
              exact absurd hc (by decide)
            have := hu.skeleton_mem c (by simp [skeleton, hquote])
            rw [haccepts c hc] at this
            exact absurd this (by simp)
  have hchars : ∀ c, isComparisonChar c = true → isListChar c = false := by
    intro c hc
    simp only [isComparisonChar, List.contains_eq_mem, List.mem_cons, List.not_mem_nil, or_false,
      decide_eq_true_eq] at hc
    rcases hc with rfl | rfl | rfl <;> decide
  have hliteral : ∀ c, isComparisonChar c = true → Grammar.isLiteralChar c = false := by
    intro c hc
    have := hchars c hc
    simp only [isListChar, Bool.or_eq_false_iff] at this
    exact this.1
  have hall := h.operands
  cases h.form with
  | single operator p u hs' ha =>
      simpa [operandChars, ha] using
        hsealed _ hliteral u t (sealed_token operator hs u (hall u (by simp)))
  | pair operator p u v ha =>
      simpa [operandChars, ha, Text.join] using hsealed _ hliteral u (v ++ (Query.separator ++ t))
        (sealed_token operator hs u (hall u (by simp)))
  | none operator p ha => simp [operandChars, ha, Query.separator, isComparisonChar]
  | many operator p elements ha hne => simp [operandChars, ha, isComparisonChar]
  | spatial => simp [Operator.isSpatial] at hs

/-- Where a clause with a sign starts outside quotes within another clause and
the separator behind it, it starts in the property, and the other clause is one
of the same operator. -/
theorem start_of_fits (clause clause' : Clause) (h : clause.Grammatical) (h' : clause'.Shaped)
    (hs' : clause'.operator.isSpatial = false) (before after more rest : List Char)
    (hsplit : clause.chars ++ Query.separator = before ++ after) (hne : after ≠ [])
    (hout : endsInside false before = false)
    (heq : after ++ more = clause'.chars ++ (Query.separator ++ rest)) :
    clause.operator = clause'.operator ∧ ∃ p, p ≠ [] ∧ clause.property = before ++ p := by
  have hstarts : Starts (after ++ more) := heq ▸ starts_chars clause' hs' h' _
  cases hs : clause.operator.isSpatial with
  | true =>
      obtain ⟨p, u, rfl, hp, _, hcheck⟩ := h.exists_spatial hs
      exact absurd hstarts (mute_spatial p u more hp hcheck before after hsplit hne hout)
  | false =>
      have hmute := mute_behind_property clause hs h.toShaped more
      have hsealed := sealed_property clause.property h.property
      simp only [chars, hs, hs', Bool.false_eq_true, if_false, List.append_assoc] at hsplit heq
      rcases List.append_eq_append_iff.mp hsplit with ⟨t, rfl, ht⟩ | ⟨p, hp, rfl⟩
      · rw [endsInside_append, hsealed.closed] at hout
        exact absurd hstarts (hmute t after ht hne hout)
      · by_cases hpne : p = []
        · subst hpne
          exact absurd hstarts (hmute [] _ rfl (by simpa using hne) rfl)
        · refine ⟨?_, p, hpne, hp⟩
          obtain ⟨c, tail, hsign, hc⟩ := sign_eq_cons clause.operator
          obtain ⟨c', tail', hsign', hc'⟩ := sign_eq_cons clause'.operator
          have hpsealed : Sealed Grammar.isPropertyChar p := .of_forall fun d hd => by
            have := Grammar.isPropertyChar_of_takes_property _ []
              ((accepts_iff _ _).mp h.property) d (by simp [hp, hd])
            exact ⟨this, isPropertyChar_ne_quote d this⟩
          simp only [List.append_assoc] at heq
          have hpeq : p = clause'.property := by
            rw [hsign, hsign'] at heq
            exact hpsealed.append_cons_inj (sealed_property _ h'.property) hc hc' heq
          rw [← hpeq] at heq
          exact sign_inj _ _ _ _ (operandChars_head clause hs h.toShaped more)
            (operandChars_head clause' hs' h' rest) (List.append_cancel_left heq)

end RecordQuery.Clause
