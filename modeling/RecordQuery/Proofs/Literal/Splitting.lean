import RecordQuery.Proofs.Literal.Quoted
import RecordQuery.Proofs.Literal.Simple

/-!
Two operands joined by a sign split at no other sign. A quoted text is over at
its last quote and a call at its parenthesis, and what would be left behind a
sign within an instant begins like a month, as no operand does. Only the slash
of an interval can be taken for a division, and only beside another instant,
duration or interval.
-/

namespace RecordQuery.Literal

open Pattern Text

/-- One side of an interval. -/
def endpoint : Pattern :=
  .either Grammar.instant Grammar.duration

/-- The form of an instant, a duration or an interval. -/
def temporal : Pattern :=
  .either Grammar.interval endpoint

theorem endpoint_accepts_iff (v : List Char) :
    endpoint.accepts v = true ↔
      Grammar.instant.accepts v = true ∨ Grammar.duration.accepts v = true := by
  simp only [accepts_iff, endpoint, takes_either]

theorem temporal_accepts_iff (v : List Char) :
    temporal.accepts v = true ↔
      Grammar.interval.accepts v = true ∨ endpoint.accepts v = true := by
  simp only [accepts_iff, temporal, takes_either]

theorem simple_of_temporal (v : List Char) (h : temporal.accepts v = true) :
    simple.accepts v = true := by
  simp only [accepts_iff, temporal, endpoint, simple, anyOf, takes_either] at h ⊢
  rcases h with h | h | h <;> simp [h]

theorem simple_of_endpoint (v : List Char) (h : endpoint.accepts v = true) :
    simple.accepts v = true :=
  simple_of_temporal v ((temporal_accepts_iff v).mpr (.inr h))

/-! Where the signs are. -/

/-- Of two splits at a sign, one is further left or they are the same. -/
theorem split_cases (left right left' right' : List Char) (op op' : ArithmeticOperator)
    (h : left ++ op.sign :: right = left' ++ op'.sign :: right') :
    (left = left' ∧ op = op' ∧ right = right') ∨
      (∃ more, left' = left ++ op.sign :: more ∧ right = more ++ op'.sign :: right') ∨
      ∃ more, left = left' ++ op'.sign :: more ∧ right' = more ++ op.sign :: right := by
  rcases List.append_eq_append_iff.mp h with ⟨more, rfl, hmore⟩ | ⟨more, rfl, hmore⟩
  · cases more with
    | nil =>
        obtain ⟨hsign, rfl⟩ := List.cons.inj hmore
        exact .inl ⟨by simp, ArithmeticOperator.sign_inj op op' hsign, rfl⟩
    | cons c more =>
        obtain ⟨rfl, rfl⟩ := List.cons.inj hmore
        exact .inr (.inl ⟨more, rfl, rfl⟩)
  · cases more with
    | nil =>
        obtain ⟨hsign, rfl⟩ := List.cons.inj hmore
        exact .inl ⟨by simp, (ArithmeticOperator.sign_inj op' op hsign).symm, rfl⟩
    | cons c more =>
        obtain ⟨rfl, rfl⟩ := List.cons.inj hmore
        exact .inr (.inr ⟨more, rfl, rfl⟩)

/-- A sign stands behind any text that has none. -/
theorem exists_append_of_clear (s t left right : List Char) (op : ArithmeticOperator)
    (hs : ∀ c ∈ s, isSign c = false) (h : left ++ op.sign :: right = s ++ t) :
    ∃ more, left = s ++ more ∧ more ++ op.sign :: right = t := by
  rcases List.append_eq_append_iff.mp h with ⟨more, hs', hmore⟩ | ⟨more, rfl, hmore⟩
  · cases more with
    | nil => exact ⟨[], by simpa using hs'.symm, by simpa using hmore⟩
    | cons c more =>
        obtain ⟨rfl, _⟩ := List.cons.inj hmore
        have := hs op.sign (by simp [hs'])
        simp [isSign_sign op] at this
  · exact ⟨more, rfl, hmore.symm⟩

theorem not_split_of_clear (v left right : List Char) (op : ArithmeticOperator)
    (hv : ∀ c ∈ v, isSign c = false) : v ≠ left ++ op.sign :: right := by
  rintro rfl
  have := hv op.sign (by simp)
  simp [isSign_sign op] at this

theorem duration_clear (v : List Char) (h : Grammar.duration.accepts v = true) :
    ∀ c ∈ v, isSign c = false := by
  refine forall_of_takes (isSign · = false) _ ?_ v [] ((accepts_iff _ _).mp h)
  simpa [Grammar.duration, Grammar.component, someOf, Pattern.all, Pattern.optional,
    Pattern.text, Each, isSign] using not_isSign_of_isDigit

theorem boolean_clear (v : List Char) (h : Grammar.boolean.accepts v = true) :
    ∀ c ∈ v, isSign c = false :=
  forall_of_takes (isSign · = false) _
    (by simp [Grammar.boolean, Pattern.text, Each, isSign]) v [] ((accepts_iff _ _).mp h)

/-- The text begins with two digits and a minus. -/
def BeginsLikeMonth (v : List Char) : Prop :=
  ∃ c d rest, v = c :: d :: '-' :: rest ∧ Text.isDigit c = true ∧ Text.isDigit d = true

theorem BeginsLikeMonth.append {v : List Char} (h : BeginsLikeMonth v) (rest : List Char) :
    BeginsLikeMonth (v ++ rest) := by
  obtain ⟨c, d, tail, rfl, hc, hd⟩ := h
  exact ⟨c, d, tail ++ rest, rfl, hc, hd⟩

/-- The signs of an instant are the one behind the year and the one behind the month. -/
theorem exists_date_of_instant (v : List Char) (h : Grammar.instant.accepts v = true) :
    ∃ year month after, v = year ++ '-' :: (month ++ '-' :: after) ∧ year.length = 4 ∧
      (∀ c ∈ year, Text.isDigit c = true) ∧ (∃ c d, month = [c, d]) ∧
      (∀ c ∈ month, Text.isDigit c = true) ∧ ∀ c ∈ after, isSign c = false := by
  simp only [accepts_iff, Grammar.instant, Pattern.all] at h
  obtain ⟨year, _, rfl, hyear, h⟩ := (takes_seq _ _ _ _).mp h
  obtain ⟨_, _, rfl, hminus, h⟩ := (takes_seq _ _ _ _).mp h
  obtain ⟨month, _, rfl, hmonth, h⟩ := (takes_seq _ _ _ _).mp h
  obtain ⟨_, after, rfl, hminus', hafter⟩ := (takes_seq _ _ _ _).mp h
  obtain rfl := (takes_text _ _ _).mp hminus
  obtain rfl := (takes_text _ _ _).mp hminus'
  refine ⟨year, month, after, rfl, length_of_takes _ 4 rfl year _ hyear, ?_, ?_, ?_, ?_⟩
  · exact forall_of_takes (Text.isDigit · = true) _ (by simp [exactly, Each]) year _ hyear
  · simp only [exactly, takes_seq, takes_one] at hmonth
    obtain ⟨_, _, rfl, ⟨c, rfl, _⟩, d, rfl, _⟩ := hmonth
    exact ⟨c, d, rfl⟩
  · exact forall_of_takes (Text.isDigit · = true) _ (by simp [exactly, Each]) month _ hmonth
  · refine forall_of_takes (isSign · = false) _ ?_ after _ hafter
    simpa [exactly, Pattern.text, Each, isSign] using not_isSign_of_isDigit

theorem instant_endsBefore (stop : Char → Bool) : Grammar.instant.EndsBefore stop := by
  simp [Grammar.instant, exactly, Pattern.all, Pattern.text, EndsBefore]

theorem duration_endsBefore : Grammar.duration.EndsBefore Grammar.isBreak := by
  have hdigit : ∀ c, Grammar.isBreak c = true → Text.isDigit c = false :=
    fun c h => (Grammar.isBreak_eq c h).2.2.1
  simpa [Grammar.duration, Grammar.component, someOf, Pattern.all, Pattern.optional,
    Pattern.text, EndsBefore] using hdigit

theorem exists_of_takes_beside_slash (first second : Pattern) (v : List Char)
    (hends : first.EndsBefore Grammar.isBreak)
    (h : (Pattern.all [first, .text "/", second]).Takes v []) :
    ∃ u w, v = u ++ '/' :: w ∧ first.accepts u = true ∧ second.accepts w = true := by
  simp only [Pattern.all] at h
  obtain ⟨u, _, rfl, hu, h⟩ := (takes_seq _ _ _ _).mp h
  obtain ⟨_, w, rfl, hslash, hw⟩ := (takes_seq _ _ _ _).mp h
  obtain rfl := (takes_text _ _ _).mp hslash
  have hstop : StopsAt Grammar.isBreak ("/".toList ++ w) := by
    intro c hc
    obtain rfl : '/' = c := by simpa using hc
    rfl
  refine ⟨u, w, rfl, ?_, (accepts_iff _ _).mpr hw⟩
  rwa [List.append_nil, takes_iff_accepts _ _ hends _ _ hstop] at hu

/-- An interval is two instants, or an instant and a duration, beside a slash. -/
theorem exists_endpoints_of_interval (v : List Char) (h : Grammar.interval.accepts v = true) :
    ∃ first second, v = first ++ '/' :: second ∧ endpoint.accepts first = true ∧
      endpoint.accepts second = true ∧
      (Grammar.instant.accepts first = true ∨ Grammar.instant.accepts second = true) := by
  simp only [accepts_iff, Grammar.interval, anyOf, takes_either] at h
  simp only [endpoint_accepts_iff]
  rcases h with h | h | h
  · obtain ⟨u, w, hv, hu, hw⟩ := exists_of_takes_beside_slash _ _ v (instant_endsBefore _) h
    exact ⟨u, w, hv, .inl hu, .inl hw, .inl hu⟩
  · obtain ⟨u, w, hv, hu, hw⟩ := exists_of_takes_beside_slash _ _ v (instant_endsBefore _) h
    exact ⟨u, w, hv, .inl hu, .inr hw, .inl hu⟩
  · obtain ⟨u, w, hv, hu, hw⟩ := exists_of_takes_beside_slash _ _ v duration_endsBefore h
    exact ⟨u, w, hv, .inr hu, .inl hw, .inr hw⟩

theorem exists_tail_of_duration (v : List Char) (h : Grammar.duration.accepts v = true) :
    ∃ rest, v = 'P' :: rest := by
  obtain ⟨_, rest, rfl, hletter, _⟩ := (takes_seq _ _ _ _).mp ((accepts_iff _ _).mp h)
  obtain rfl := (takes_text _ _ _).mp hletter
  exact ⟨rest, rfl⟩

theorem not_mem_slash_of_endpoint (v : List Char) (h : endpoint.accepts v = true) :
    ∀ c ∈ v, c ≠ '/' := by
  have hdigit : ∀ c, Text.isDigit c = true → c ≠ '/' := by
    rintro c h rfl
    exact absurd h (by decide)
  refine forall_of_takes (· ≠ '/') _ ?_ v [] ((accepts_iff _ _).mp h)
  simpa [endpoint, Grammar.instant, Grammar.duration, Grammar.component, exactly, someOf,
    Pattern.all, Pattern.optional, Pattern.text, Each] using hdigit

/-! Signs behind the first character. -/

/-- Only an interval and an instant have a sign behind their first character. -/
theorem interval_or_instant_of_split (left right : List Char) (op : ArithmeticOperator)
    (h : simple.accepts (left ++ op.sign :: right) = true) (hne : left ≠ []) :
    Grammar.interval.accepts (left ++ op.sign :: right) = true ∨
      Grammar.instant.accepts (left ++ op.sign :: right) = true := by
  have hclear := not_split_of_clear (left ++ op.sign :: right) left right op
  rw [accepts_iff] at h
  simp only [simple, anyOf, takes_either] at h
  rcases h with h | h | h | h | h
  · exact .inl ((accepts_iff _ _).mpr h)
  · exact .inr ((accepts_iff _ _).mpr h)
  · exact (not_split_of_number left right op h hne).elim
  · exact absurd rfl (hclear (boolean_clear _ ((accepts_iff _ _).mpr h)))
  · exact absurd rfl (hclear (duration_clear _ ((accepts_iff _ _).mpr h)))

theorem length_of_interval (v : List Char) (h : Grammar.interval.accepts v = true) :
    20 ≤ v.length := by
  obtain ⟨first, second, rfl, -, -, h | h⟩ := exists_endpoints_of_interval v h
  all_goals
    have := length_of_instant _ [] ((accepts_iff _ _).mp h)
    simp only [List.length_append, List.length_cons]
    omega

/-- A text that is shorter than an instant has no sign but as its first character. -/
theorem not_split_of_short (left right : List Char) (op : ArithmeticOperator) (hne : left ≠ [])
    (hshort : (left ++ op.sign :: right).length < 20) :
    simple.accepts (left ++ op.sign :: right) = false := by
  cases h : simple.accepts (left ++ op.sign :: right) with
  | false => rfl
  | true =>
      rcases interval_or_instant_of_split left right op h hne with h | h
      · have := length_of_interval _ h
        omega
      · have := length_of_instant _ [] ((accepts_iff _ _).mp h)
        omega

theorem ne_nil_of_operand (u : List Char) (h : Grammar.operand.accepts u = true) : u ≠ [] :=
  ne_nil_of_takes _ Grammar.operand_filled u [] ((accepts_iff _ _).mp h)

theorem isSign_eq_false_of_digits (v : List Char) (h : ∀ c ∈ v, Text.isDigit c = true) :
    ∀ c ∈ v, isSign c = false :=
  fun c hc => not_isSign_of_isDigit c (h c hc)

/-- Behind an operand at the start of an instant and a sign there is the month: a
year and a month are no operand together. -/
theorem beginsLikeMonth_of_instant (left right : List Char) (op : ArithmeticOperator)
    (h : Grammar.instant.accepts (left ++ op.sign :: right) = true)
    (hleft : Grammar.operand.accepts left = true)
    (hplain : ∀ c ∈ left, c ≠ '(' ∧ c ≠ '\'') : BeginsLikeMonth right := by
  obtain ⟨year, month, after, hdate, hlength, hyear, ⟨c, d, rfl⟩, hmonth, hafter⟩ :=
    exists_date_of_instant _ h
  obtain ⟨more, rfl, hmore⟩ := exists_append_of_clear year _ left right op
    (isSign_eq_false_of_digits year hyear) hdate
  cases more with
  | nil =>
      rw [(List.cons.inj hmore).2]
      exact ⟨c, d, after, rfl, hmonth c (by simp), hmonth d (by simp)⟩
  | cons e more =>
      obtain ⟨rfl, hmonth'⟩ := List.cons.inj hmore
      obtain ⟨more, rfl, hrest⟩ := exists_append_of_clear [c, d] ('-' :: after) more right op
        (isSign_eq_false_of_digits _ hmonth) hmonth'
      cases more with
      | nil =>
          have hyear : year ≠ [] := by
            rintro rfl
            simp at hlength
          have hsimple := simple_of_accepts_operand _ hleft hplain
          have hnot : simple.accepts (year ++ '-' :: [c, d]) = false :=
            not_split_of_short year [c, d] .sub hyear (by simp [hlength])
          simp [hnot] at hsimple
      | cons e more =>
          have := hafter op.sign (by simp [← (List.cons.inj hrest).2])
          simp [isSign_sign op] at this

/-! Calls. -/

theorem Calls.append_eq {u name argument : List Char} (hcall : Calls u name argument)
    (rest : List Char) : u ++ rest = name ++ '(' :: (argument ++ ')' :: rest) := by
  simp [hcall.eq]

theorem Calls.ne_open {u name argument : List Char} (hcall : Calls u name argument) :
    ∀ c ∈ name, c ≠ '(' := by
  rintro c hc rfl
  exact absurd (hcall.named '(' hc) (by decide)

/-- A text that begins with a call has no sign before the parenthesis. -/
theorem Calls.ne_split {u name argument : List Char} (hcall : Calls u name argument)
    (rest left right : List Char) (op : ArithmeticOperator) (hleft : ∀ c ∈ left, c ≠ '(') :
    u ++ rest ≠ left ++ op.sign :: right := by
  intro h
  have hname : ∀ c ∈ name, isSign c = false := fun c hc =>
    not_isSign_of_isNameChar c (hcall.named c hc)
  obtain ⟨more, rfl, hmore⟩ := exists_append_of_clear name _ left right op hname
    (h.symm.trans (hcall.append_eq rest))
  cases more with
  | nil => cases op <;> exact absurd (List.cons.inj hmore).1 (by decide)
  | cons c more =>
      obtain ⟨rfl, _⟩ := List.cons.inj hmore
      exact absurd rfl (hleft '(' (by simp))

/-! Operands that split. -/

/-- No operand begins with two digits and a minus. -/
theorem not_beginsLikeMonth_of_operand (u : List Char) (h : Grammar.operand.accepts u = true) :
    ¬BeginsLikeMonth u := by
  rintro ⟨c, d, rest, rfl, hc, hd⟩
  have hdate : ∀ v tail, Grammar.instant.accepts v = true → v ++ tail ≠ c :: d :: '-' :: rest := by
    intro v tail hv heq
    obtain ⟨year, month, after, rfl, hlength, hyear, -⟩ :=
      exists_date_of_instant v hv
    obtain ⟨more, hmore, -⟩ := exists_append_of_clear year _ [c, d] rest .sub
      (isSign_eq_false_of_digits year hyear) (heq.symm.trans (List.append_assoc _ _ _))
    have := congrArg List.length hmore
    simp only [List.length_cons, List.length_nil, List.length_append] at this
    omega
  rcases operand_cases _ h with ⟨v, hv⟩ | ⟨name, argument, hcall⟩ | hsimple
  · obtain ⟨rfl, _⟩ := List.cons.inj hv
    exact absurd hc (by decide)
  · refine hcall.ne_split [] [c, d] rest .sub ?_ (List.append_nil _)
    intro e he
    rintro rfl
    have hopen : Text.isDigit '(' = true := by
      rcases List.mem_cons.mp he with rfl | he
      · exact hc
      · rwa [List.mem_singleton.mp he]
    exact absurd hopen (by decide)
  · rcases interval_or_instant_of_split [c, d] rest .sub hsimple (by simp) with h | h
    · obtain ⟨first, second, heq, hfirst, -⟩ := exists_endpoints_of_interval _ h
      rcases (endpoint_accepts_iff first).mp hfirst with hfirst | hfirst
      · exact hdate first _ hfirst heq.symm
      · obtain ⟨tail, rfl⟩ := exists_tail_of_duration first hfirst
        obtain ⟨rfl, _⟩ := List.cons.inj heq
        exact absurd hc (by decide)
    · exact hdate _ [] h (by simp [ArithmeticOperator.sign])

theorem operand_of_endpoint (v : List Char) (h : endpoint.accepts v = true) :
    Grammar.operand.accepts v = true :=
  accepts_operand_of_simple v (simple_of_endpoint v h)

/-- What follows the slash behind one side of an interval is the other side. -/
theorem endpoint_of_slash (first second : List Char)
    (h : simple.accepts (first ++ '/' :: second) = true)
    (hfirst : endpoint.accepts first = true) : endpoint.accepts second = true := by
  have hfilled := ne_nil_of_operand first (operand_of_endpoint first hfirst)
  rcases interval_or_instant_of_split first second .div h hfilled with hinterval | hinstant
  · obtain ⟨first', second', heq, hfirst', hsecond', -⟩ := exists_endpoints_of_interval _ hinterval
    obtain ⟨_, rfl⟩ := Text.append_cons_inj '/' first first' second second'
      (not_mem_slash_of_endpoint first hfirst) (not_mem_slash_of_endpoint first' hfirst') heq
    exact hsecond'
  · have hwhole := (endpoint_accepts_iff _).mpr (.inl hinstant)
    exact absurd rfl (not_mem_slash_of_endpoint _ hwhole '/' (by simp [ArithmeticOperator.sign]))

/-- A simple text splits behind an operand only where what is left begins like a
month, or between the two sides of an interval. -/
theorem split_of_simple (left right : List Char) (op : ArithmeticOperator)
    (h : simple.accepts (left ++ op.sign :: right) = true)
    (hleft : Grammar.operand.accepts left = true) :
    BeginsLikeMonth right ∨
      (Grammar.interval.accepts (left ++ op.sign :: right) = true ∧ op = .div ∧
        endpoint.accepts left = true ∧ endpoint.accepts right = true) := by
  have hplain : ∀ c ∈ left, c ≠ '(' ∧ c ≠ '\'' := fun c hc =>
    plain_of_accepts_simple _ h c (by simp [hc])
  -- A duration has no sign, so that a side which splits is an instant.
  have hside : ∀ u w : List Char, ∀ op : ArithmeticOperator,
      endpoint.accepts (u ++ op.sign :: w) = true → Grammar.operand.accepts u = true →
        BeginsLikeMonth w := by
    intro u w op hsplit hu
    have hsimple := simple_of_endpoint _ hsplit
    rcases (endpoint_accepts_iff _).mp hsplit with hinstant | hduration
    · exact beginsLikeMonth_of_instant u w op hinstant hu fun c hc =>
        plain_of_accepts_simple _ hsimple c (by simp [hc])
    · exact absurd rfl (not_split_of_clear _ u w op (duration_clear _ hduration))
  rcases interval_or_instant_of_split left right op h (ne_nil_of_operand left hleft) with
    hinterval | hinstant
  · obtain ⟨first, second, heq, hfirst, hsecond, -⟩ := exists_endpoints_of_interval _ hinterval
    rcases split_cases left right first second op .div heq with
      ⟨rfl, rfl, rfl⟩ | ⟨more, rfl, rfl⟩ | ⟨more, rfl, rfl⟩
    · exact .inr ⟨hinterval, rfl, hfirst, hsecond⟩
    · exact .inl ((hside left more op hfirst hleft).append _)
    · -- The left side goes on behind the slash, so it is an interval itself.
      have hmore := endpoint_of_slash first more (simple_of_accepts_operand _ hleft hplain) hfirst
      exact .inl (hside more right op hsecond (operand_of_endpoint more hmore))
  · exact .inl (beginsLikeMonth_of_instant left right op hinstant hleft hplain)

/-- With an operand on either side, only an interval splits, and at its slash. -/
theorem division_of_simple (left right : List Char) (op : ArithmeticOperator)
    (h : simple.accepts (left ++ op.sign :: right) = true)
    (hleft : Grammar.operand.accepts left = true) (hright : Grammar.operand.accepts right = true) :
    Grammar.interval.accepts (left ++ op.sign :: right) = true ∧ op = .div ∧
      endpoint.accepts left = true ∧ endpoint.accepts right = true :=
  (split_of_simple left right op h hleft).resolve_left (not_beginsLikeMonth_of_operand right hright)

theorem not_split_of_simple (v left right : List Char) (op : ArithmeticOperator)
    (h : simple.accepts v = true) (hinterval : Grammar.interval.accepts v = false)
    (hleft : Grammar.operand.accepts left = true) (hright : Grammar.operand.accepts right = true) :
    v ≠ left ++ op.sign :: right := by
  rintro rfl
  have hsplit := (division_of_simple left right op h hleft hright).1
  simp [hinterval] at hsplit

/-! Two operands beside a sign. -/

/-- An operand that goes on behind a simple text and a sign is simple as well. -/
theorem simple_of_operand_split (left right : List Char) (op : ArithmeticOperator)
    (h : Grammar.operand.accepts (left ++ op.sign :: right) = true)
    (hleft : Grammar.operand.accepts left = true) (hsimple : simple.accepts left = true) :
    simple.accepts (left ++ op.sign :: right) = true := by
  have hplain := plain_of_accepts_simple left hsimple
  rcases operand_cases _ h with ⟨v, hquote⟩ | ⟨name, argument, hcall⟩ | h
  · obtain ⟨c, tail, rfl⟩ := List.exists_cons_of_ne_nil (ne_nil_of_operand left hleft)
    obtain ⟨rfl, _⟩ := List.cons.inj hquote
    exact absurd rfl (hplain _ (by simp)).2
  · exact absurd (List.append_nil _) (hcall.ne_split [] left right op fun c hc => (hplain c hc).1)
  · exact h

/-- Two operands that overlap in a text between two signs are intervals with that
text as one side. -/
theorem intervals_of_overlap (left middle right : List Char) (op op' : ArithmeticOperator)
    (hfirst : simple.accepts (left ++ op.sign :: middle) = true)
    (hleft : Grammar.operand.accepts left = true)
    (hsecond : Grammar.operand.accepts (middle ++ op'.sign :: right) = true)
    (hright : Grammar.operand.accepts right = true) :
    (op = .div ∧ endpoint.accepts left = true ∧
        Grammar.interval.accepts (left ++ op.sign :: middle) = true) ∧
      op' = .div ∧ endpoint.accepts right = true ∧
        Grammar.interval.accepts (middle ++ op'.sign :: right) = true := by
  have hmonth : ¬BeginsLikeMonth middle := fun h =>
    not_beginsLikeMonth_of_operand _ hsecond (h.append _)
  obtain ⟨hinterval, hop, hleft', hmiddle⟩ :=
    (split_of_simple left middle op hfirst hleft).resolve_left hmonth
  have hmiddle' := operand_of_endpoint middle hmiddle
  have hsimple := simple_of_operand_split middle right op' hsecond hmiddle'
    (simple_of_endpoint middle hmiddle)
  obtain ⟨hinterval', hop', -, hright'⟩ :=
    division_of_simple middle right op' hsimple hmiddle' hright
  exact ⟨⟨hop, hleft', hinterval⟩, hop', hright', hinterval'⟩

/-- A text that begins with a call splits behind it first. -/
theorem Calls.split_append {u name argument : List Char} (hcall : Calls u name argument)
    (rest left right : List Char) (op : ArithmeticOperator)
    (hleft : Grammar.operand.accepts left = true) (h : u ++ rest = left ++ op.sign :: right) :
    left = u ∧ rest = op.sign :: right := by
  rcases operand_cases left hleft with ⟨v, rfl⟩ | ⟨name', argument', hcall'⟩ | hsimple
  · obtain ⟨c, tail, rfl⟩ := List.exists_cons_of_ne_nil hcall.filled
    rw [hcall.append_eq, quote, List.cons_append, List.cons_append] at h
    obtain ⟨rfl, -⟩ := List.cons.inj h
    exact absurd (hcall.named _ List.mem_cons_self) (by decide)
  · have hboth := h
    rw [hcall.append_eq, hcall'.append_eq] at hboth
    obtain ⟨rfl, htail⟩ := Text.append_cons_inj '(' name name' _ _ hcall.ne_open hcall'.ne_open
      hboth
    obtain ⟨rfl, hrest⟩ := Text.append_cons_inj ')' argument argument' _ _ hcall.closed
      hcall'.closed htail
    exact ⟨hcall'.eq.trans hcall.eq.symm, hrest⟩
  · exact absurd h (hcall.ne_split rest left right op fun c hc =>
      (plain_of_accepts_simple left hsimple c hc).1)

/-- Two operands beside a sign, without quotes, split there and nowhere else, but
for what is divided like an interval. -/
theorem split_unique_of_unquoted (left right left' right' : List Char) (op op' : ArithmeticOperator)
    (hleft : Grammar.operand.accepts left = true) (hright : Grammar.operand.accepts right = true)
    (hleft' : Grammar.operand.accepts left' = true)
    (hright' : Grammar.operand.accepts right' = true)
    (hquote : ∀ c ∈ left ++ op.sign :: right, c ≠ '\'')
    (h : left ++ op.sign :: right = left' ++ op'.sign :: right') :
    (left = left' ∧ op = op' ∧ right = right') ∨
      (op = .div ∧ temporal.accepts left = true ∧ temporal.accepts right = true) := by
  rcases operand_cases left hleft with ⟨v, rfl⟩ | ⟨name, argument, hcall⟩ | hsimple
  · exact absurd rfl (hquote '\'' (by simp [quote]))
  · obtain ⟨rfl, hrest⟩ := hcall.split_append _ left' right' op' hleft' h
    obtain ⟨hsign, rfl⟩ := List.cons.inj hrest
    exact .inl ⟨rfl, ArithmeticOperator.sign_inj op op' hsign, rfl⟩
  · simp only [temporal_accepts_iff]
    rcases split_cases left right left' right' op op' h with
      hsame | ⟨more, rfl, rfl⟩ | ⟨more, rfl, rfl⟩
    · exact .inl hsame
    · have hwhole := simple_of_operand_split left more op hleft' hleft hsimple
      obtain ⟨⟨hop, hends, -⟩, -, -, hinterval⟩ :=
        intervals_of_overlap left more right' op op' hwhole hleft hright hright'
      exact .inr ⟨hop, .inr hends, .inl hinterval⟩
    · obtain ⟨⟨-, -, hinterval⟩, hop, hends, -⟩ :=
        intervals_of_overlap left' more right op' op hsimple hleft' hright' hright
      exact .inr ⟨hop, .inl hinterval, .inr hends⟩

/-- The two operands do not divide times. -/
def Apart (left right : List Char) (op : ArithmeticOperator) : Prop :=
  ¬(op = .div ∧ temporal.accepts left = true ∧ temporal.accepts right = true)

/-- Two operands beside a sign split there and nowhere else, but for what is divided
like an interval. -/
theorem split_unique_of_apart (left right : List Char) (op : ArithmeticOperator)
    (hleft : Grammar.operand.accepts left = true) (hright : Grammar.operand.accepts right = true)
    (hapart : Apart left right op) (left' right' : List Char) (op' : ArithmeticOperator)
    (hleft' : Grammar.operand.accepts left' = true)
    (hright' : Grammar.operand.accepts right' = true)
    (h : left ++ op.sign :: right = left' ++ op'.sign :: right') :
    left' = left ∧ op' = op ∧ right' = right := by
  rcases Grammar.quote_or_of_accepts_operand left hleft with ⟨v, rfl⟩ | hl
  · exact Place.split_unique (.leftOf op right hright) v left' right' op' hleft' hright' h
  · rcases Grammar.quote_or_of_accepts_operand right hright with ⟨v, rfl⟩ | hr
    · exact Place.split_unique (.rightOf left op hleft) v left' right' op' hleft' hright' h
    · have hquote : ∀ c ∈ left ++ op.sign :: right, c ≠ '\'' := by
        intro c hc
        rcases List.mem_append.mp hc with hc | hc
        · exact hl c hc
        · rcases List.mem_cons.mp hc with rfl | hc
          · exact op.sign_ne_quote
          · exact hr c hc
      obtain ⟨rfl, rfl, rfl⟩ := (split_unique_of_unquoted left right left' right' op op' hleft
        hright hleft' hright' hquote h).resolve_right hapart
      exact ⟨rfl, rfl, rfl⟩

end RecordQuery.Literal
