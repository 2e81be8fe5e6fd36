import RecordQuery.Proofs.Evaluator.Derivation
import RecordQuery.Proofs.Like

/-!
Text patterns without regard to case. A character that is the same as another is the same
but for case, so that all that `LIKE` matches is matched by `ILIKE`; and a letter of ASCII
folds to what its lower case folds to, so that `ILIKE` cannot tell two patterns or two texts
apart that differ in the case of such letters. Both are shown for one match, one character
of the pattern after another.

A filter asks its pattern of the leaves of a value, one by one, and one leaf is enough. With
a function around the property no leaf that is a text is asked for at all.
-/

namespace RecordQuery

namespace Text

/-- What is true of all characters of ASCII, and of all that are their own lower case, is true
of every character and its lower case. -/
theorem forall_toLower (holds : Char → Char → Prop)
    (hascii : ∀ n, n < 128 → holds (Char.ofNat n) (Char.ofNat n).toLower)
    (hother : ∀ c, c.toLower = c → holds c c) (c : Char) : holds c c.toLower := by
  by_cases hc : c.toNat < 128
  · have hholds := hascii c.toNat hc
    rwa [Char.ofNat_toNat] at hholds
  · have hupper : ¬(c.val ≥ 'A'.val ∧ c.val ≤ 'Z'.val) := fun h =>
      hc (Nat.lt_of_le_of_lt (UInt32.le_iff_toNat_le.mp h.2) (by decide))
    have hlower : c.toLower = c := dif_neg hupper
    rw [hlower]
    exact hother c hlower

theorem foldChar_toLower (c : Char) : foldChar c.toLower = foldChar c :=
  forall_toLower (fun c lower => foldChar lower = foldChar c) (by decide +kernel)
    (fun _ _ => rfl) c

theorem toLower_toLower (c : Char) : c.toLower.toLower = c.toLower :=
  forall_toLower (fun _ lower => lower.toLower = lower) (by decide +kernel) (fun _ h => h) c

theorem toLower_eq_percent_iff (c : Char) : c.toLower = '%' ↔ c = '%' :=
  forall_toLower (fun c lower => lower = '%' ↔ c = '%') (by decide +kernel)
    (fun _ _ => .rfl) c

theorem toLower_eq_lineFeed_iff (c : Char) : c.toLower = '\n' ↔ c = '\n' :=
  forall_toLower (fun c lower => lower = '\n' ↔ c = '\n') (by decide +kernel)
    (fun _ _ => .rfl) c

theorem sameChar_caseless {c d : Char} (h : sameChar false c d = true) :
    sameChar true c d = true := by
  obtain rfl : c = d := by simpa [sameChar] using h
  simp [sameChar]

theorem sameChar_toLower (c d : Char) :
    sameChar true c.toLower d.toLower = sameChar true c d := by
  simp only [sameChar, if_true, foldChar_toLower]

/-- The text with its letters of ASCII in lower case. -/
def lowered (s : String) : String :=
  .ofList (s.toList.map Char.toLower)

theorem lowered_eq_iff (s t : String) :
    lowered s = lowered t ↔ s.toList.map Char.toLower = t.toList.map Char.toLower :=
  String.ofList_inj

end Text

namespace Like

/-- What is matched is matched without regard to case. -/
theorem accepts_caseless (pattern text : List Char) (h : accepts false pattern text = true) :
    accepts true pattern text = true := by
  induction pattern generalizing text with
  | nil =>
      rw [accepts_nil] at h ⊢
      exact h
  | cons c pattern ih =>
      by_cases hc : c = '%'
      · subst hc
        rw [accepts_percent_iff] at h ⊢
        obtain ⟨gap, rest, htext, hgap, hrest⟩ := h
        exact ⟨gap, rest, htext, hgap, ih rest hrest⟩
      · cases text with
        | nil =>
            rw [accepts_char_nil false hc] at h
            cases h
        | cons d text =>
            rw [accepts_char_cons _ hc, Bool.and_eq_true] at h ⊢
            exact ⟨Text.sameChar_caseless h.1, ih text h.2⟩

/-- Without regard to case, letters may be put into lower case in the pattern and in the text. -/
theorem accepts_toLower (pattern text : List Char) :
    accepts true (pattern.map Char.toLower) (text.map Char.toLower) =
      accepts true pattern text := by
  induction pattern generalizing text with
  | nil => cases text <;> rfl
  | cons c pattern ih =>
      by_cases hc : c = '%'
      · subst hc
        rw [List.map_cons, (Text.toLower_eq_percent_iff '%').mpr rfl]
        induction text with
        | nil => exact ih []
        | cons d text ihtext =>
            have hline : (d.toLower != '\n') = (d != '\n') := by
              rw [Bool.eq_iff_iff, bne_iff_ne, bne_iff_ne, ne_eq, Text.toLower_eq_lineFeed_iff]
            have hhere := ih (d :: text)
            rw [List.map_cons] at hhere ⊢
            rw [accepts_percent_cons, accepts_percent_cons, hhere, hline, ihtext]
      · have hlower : c.toLower ≠ '%' := fun h => hc ((Text.toLower_eq_percent_iff c).mp h)
        rw [List.map_cons]
        cases text with
        | nil => rw [List.map_nil, accepts_char_nil true hlower, accepts_char_nil true hc]
        | cons d text =>
            rw [List.map_cons, accepts_char_cons true hlower, accepts_char_cons true hc,
              Text.sameChar_toLower, ih]

end Like

namespace Scalar

/-- The scalar with its letters of ASCII in lower case if it is a text. -/
def lowered : Scalar → Scalar
  | .text value => .text (Text.lowered value)
  | other => other

/-- What a function gives is no text, and to a text none applies. -/
theorem applyTo?_lowered (function : Function) (leaf : Scalar) :
    function.applyTo? leaf.lowered = (function.applyTo? leaf).map lowered := by
  cases function <;> cases leaf <;> rfl

/-- As it is written, the scalar has changed at most in the case of its letters. -/
theorem toLower_render_lowered (leaf : Scalar) :
    leaf.lowered.render.toList.map Char.toLower = leaf.render.toList.map Char.toLower := by
  cases leaf with
  | text value =>
      simp only [lowered, render, Text.lowered, String.toList_ofList, List.map_map]
      exact List.map_congr_left fun c _ => Text.toLower_toLower c
  | _ => rfl

end Scalar

namespace Value

mutual

/-- The value with the letters of ASCII in all its texts, at any depth, in lower case. -/
def lowered : Value → Value
  | .scalar leaf => .scalar leaf.lowered
  | .undefined => .undefined
  | .defined value => .defined value.lowered
  | .list items => .list (loweredAll items)

def loweredAll : List Value → List Value
  | [] => []
  | item :: rest => item.lowered :: loweredAll rest

end

mutual

theorem leaves_lowered (value : Value) : value.lowered.leaves = value.leaves.map Scalar.lowered := by
  cases value with
  | scalar leaf => rfl
  | undefined => rfl
  | defined value => rw [lowered, leaves, leaves, leaves_lowered value]
  | list items => rw [lowered, leaves, leaves, leavesOfAll_loweredAll items]

theorem leavesOfAll_loweredAll (items : List Value) :
    leavesOfAll (loweredAll items) = (leavesOfAll items).map Scalar.lowered := by
  cases items with
  | nil => rfl
  | cons item rest =>
      rw [loweredAll, leavesOfAll, leavesOfAll, leaves_lowered item, leavesOfAll_loweredAll rest,
        List.map_append]

end

end Value

namespace Predicate

theorem test_like_caseless (pattern : String) (leaf : Scalar)
    (h : (Predicate.like false false pattern).test leaf = true) :
    (Predicate.like false true pattern).test leaf = true := by
  simp only [test, Bool.bne_false] at h ⊢
  exact Like.accepts_caseless _ _ h

theorem test_notLike_of_caseless (pattern : String) (leaf : Scalar)
    (h : (Predicate.like true true pattern).test leaf = true) :
    (Predicate.like true false pattern).test leaf = true := by
  simp only [test, Bool.bne_true, Bool.not_eq_true'] at h ⊢
  rw [Bool.eq_false_iff] at h ⊢
  exact fun hlike => h (Like.accepts_caseless _ _ hlike)

/-- Without regard to case, the case of letters in the scalar does not matter. -/
theorem test_lowered (negated : Bool) (pattern : String) (leaf : Scalar) :
    (Predicate.like negated true pattern).test leaf.lowered =
      (Predicate.like negated true pattern).test leaf := by
  simp only [test]
  rw [← Like.accepts_toLower _ leaf.lowered.render.toList, leaf.toLower_render_lowered,
    Like.accepts_toLower]

/-- Nor does the case of letters in the pattern. -/
theorem test_eq_of_lowered_eq {pattern other : String}
    (h : Text.lowered pattern = Text.lowered other) (negated : Bool) (leaf : Scalar) :
    (Predicate.like negated true pattern).test leaf =
      (Predicate.like negated true other).test leaf := by
  simp only [test]
  rw [← Like.accepts_toLower pattern.toList, (Text.lowered_eq_iff _ _).mp h, Like.accepts_toLower]

end Predicate

namespace Schema.Subject

variable {α : Type}

/-- What a filter on the subject tests, in lower case, is what it tests on leaves in lower
case. -/
theorem map_lowered_scalars (subject : Schema.Subject α) (item : α) :
    (subject.scalars item).map Scalar.lowered =
      (((subject.property.value? item).map Value.lowered).elim [] Value.leaves).filterMap
        fun leaf => subject.function.elim (some leaf) (·.applyTo? leaf) := by
  have hasked (leaf : Scalar) :
      (subject.function.elim (some leaf) (·.applyTo? leaf)).map Scalar.lowered =
        subject.function.elim (some leaf.lowered) (·.applyTo? leaf.lowered) := by
    cases subject.function with
    | none => rfl
    | some function => exact (Scalar.applyTo?_lowered function leaf).symm
  rw [scalars, List.map_filterMap]
  simp only [hasked]
  cases subject.property.value? item with
  | none => rfl
  | some value =>
      simp only [Option.map_some, Option.elim_some, Value.leaves_lowered, List.filterMap_map]
      rfl

/-- Values that are the same in lower case are not told apart without regard to case. -/
theorem any_test_eq_of_lowered_eq (subject : Schema.Subject α) {item other : α}
    (h : (subject.property.value? item).map Value.lowered =
      (subject.property.value? other).map Value.lowered) (negated : Bool) (pattern : String) :
    (subject.scalars item).any (Predicate.like negated true pattern).test =
      (subject.scalars other).any (Predicate.like negated true pattern).test := by
  have hlowered (item : α) : (subject.scalars item).any (Predicate.like negated true pattern).test =
      ((subject.scalars item).map Scalar.lowered).any
        (Predicate.like negated true pattern).test := by
    rw [List.any_map]
    exact congrArg _ (funext fun leaf => (Predicate.test_lowered negated pattern leaf).symm)
  rw [hlowered item, hlowered other, map_lowered_scalars, map_lowered_scalars, h]

end Schema.Subject

namespace Evaluator

variable {α : Type}

/-- A filter with a text pattern that is compiled asks for a scalar that passes the test of
the pattern, and it is compiled if it has a subject. -/
theorem verdict_pattern (schema : Schema α) (ref : PropertyRef) (item : α) (pattern : String)
    {operator : Operator} {h : operator.arity.accepts [Literal.plain pattern].length = true}
    (habout : operator.isAboutLeaves = true) (negated caseless : Bool)
    (hform : ∀ target, Filter.predicate ⟨operator, ref, [.plain pattern], h⟩ target =
      .ok (.like negated caseless pattern)) :
    verdict schema ⟨operator, ref, [.plain pattern], h⟩ item = do
      let subject ← concreteSubject schema ref
      return (subject.scalars item).any (Predicate.like negated caseless pattern).test := by
  rw [verdict_eq _ _ habout]
  simp only [hform, ok_bind]

/-- Of two filters with a pattern one passes where the other does if its test is passed by
more scalars. -/
theorem concur_patterns (schema : Schema α) (ref : PropertyRef) (item : α) (pattern : String)
    {operator wider : Operator} {h : operator.arity.accepts [Literal.plain pattern].length = true}
    {hwider : wider.arity.accepts [Literal.plain pattern].length = true}
    (habout : operator.isAboutLeaves = true ∧ wider.isAboutLeaves = true)
    (negated caseless caseless' : Bool)
    (hform : ∀ target, Filter.predicate ⟨operator, ref, [.plain pattern], h⟩ target =
      .ok (.like negated caseless pattern))
    (hwiderForm : ∀ target, Filter.predicate ⟨wider, ref, [.plain pattern], hwider⟩ target =
      .ok (.like negated caseless' pattern))
    (htest : ∀ scalar, (Predicate.like negated caseless pattern).test scalar = true →
      (Predicate.like negated caseless' pattern).test scalar = true) :
    Concur (fun passed also => passed = true → also = true)
      (verdict schema ⟨operator, ref, [.plain pattern], h⟩ item)
      (verdict schema ⟨wider, ref, [.plain pattern], hwider⟩ item) := by
  rw [verdict_pattern schema ref item pattern habout.1 negated caseless hform,
    verdict_pattern schema ref item pattern habout.2 negated caseless' hwiderForm]
  refine .bind_same fun subject _ => .ok fun hpassed => ?_
  obtain ⟨scalar, hscalar, hpasses⟩ := List.any_eq_true.mp hpassed
  exact List.any_eq_true.mpr ⟨scalar, hscalar, htest scalar hpasses⟩

/-- Two records with values that are the same in lower case get one verdict from patterns
that are. -/
theorem verdict_eq_of_lowered_eq (schema : Schema α) (ref : PropertyRef) {item other : α}
    (hvalues : ∀ subject, schema.subject ref = .ok subject →
      (subject.property.value? item).map Value.lowered =
        (subject.property.value? other).map Value.lowered)
    {pattern pattern' : String} (hpattern : Text.lowered pattern = Text.lowered pattern')
    {operator : Operator} (h : operator.arity = .single) (habout : operator.isAboutLeaves = true)
    (negated : Bool)
    (hform : ∀ pattern h target, Filter.predicate ⟨operator, ref, [.plain pattern], h⟩ target =
      .ok (.like negated true pattern)) :
    verdict schema ⟨operator, ref, [.plain pattern], by rw [h]; rfl⟩ item =
      verdict schema ⟨operator, ref, [.plain pattern'], by rw [h]; rfl⟩ other := by
  rw [verdict_pattern schema ref item pattern habout negated true (hform pattern _),
    verdict_pattern schema ref other pattern' habout negated true (hform pattern' _)]
  cases hsubject : concreteSubject schema ref with
  | error e => rfl
  | ok subject =>
      have hsame := hvalues subject (subject_of_concreteSubject schema ref subject hsubject)
      refine congrArg Except.ok ?_
      rw [subject.any_test_eq_of_lowered_eq hsame]
      exact congrArg _ (funext (Predicate.test_eq_of_lowered_eq hpattern negated))

/-- On a record that `LIKE` passes, `ILIKE` passes with the same pattern, and `NOT LIKE`
passes where `NOT ILIKE` does. The case of letters of ASCII, in the pattern and in the texts
of the property's value at any depth, makes no difference to `ILIKE` and `NOT ILIKE`. All of
this is for any function around the property, and where one of two filters fails, the other
fails with the same error. -/
theorem ilike_extends_like (schema : Schema α) (ref : PropertyRef) (pattern : String) (item : α) :
    Concur (fun like ilike => like = true → ilike = true)
        (verdict schema ⟨.like, ref, [.plain pattern], rfl⟩ item)
        (verdict schema ⟨.ilike, ref, [.plain pattern], rfl⟩ item) ∧
      Concur (fun notIlike notLike => notIlike = true → notLike = true)
        (verdict schema ⟨.notIlike, ref, [.plain pattern], rfl⟩ item)
        (verdict schema ⟨.notLike, ref, [.plain pattern], rfl⟩ item) ∧
      ∀ pattern' item', Text.lowered pattern = Text.lowered pattern' →
        (∀ subject, schema.subject ref = .ok subject →
          (subject.property.value? item).map Value.lowered =
            (subject.property.value? item').map Value.lowered) →
        verdict schema ⟨.ilike, ref, [.plain pattern], rfl⟩ item =
            verdict schema ⟨.ilike, ref, [.plain pattern'], rfl⟩ item' ∧
          verdict schema ⟨.notIlike, ref, [.plain pattern], rfl⟩ item =
            verdict schema ⟨.notIlike, ref, [.plain pattern'], rfl⟩ item' := by
  refine ⟨?_, ?_, fun pattern' item' hpattern hvalues => ⟨?_, ?_⟩⟩
  · exact concur_patterns schema ref item pattern ⟨rfl, rfl⟩ false false true (fun _ => rfl)
      (fun _ => rfl) (Predicate.test_like_caseless pattern)
  · exact concur_patterns schema ref item pattern ⟨rfl, rfl⟩ true true false (fun _ => rfl)
      (fun _ => rfl) (Predicate.test_notLike_of_caseless pattern)
  · exact verdict_eq_of_lowered_eq schema ref hvalues hpattern rfl rfl false fun _ _ _ => rfl
  · exact verdict_eq_of_lowered_eq schema ref hvalues hpattern rfl rfl true fun _ _ _ => rfl

/-- A name in a list, which is matched without regard to the case of its letters. -/
theorem ilike_extends_like_of_name :
    let schema : Schema Value := .ofValues "names" .text
    let item : Value := .list [.undefined, .defined (.scalar (.text "Straße 7"))]
    let other : Value := .list [.undefined, .defined (.scalar (.text "sTRAße 7"))]
    Text.lowered "STR%7" = Text.lowered "str%7" ∧ item.lowered = other.lowered ∧
      verdict schema ⟨.ilike, ⟨"names"⟩, [.plain "STR%7"], rfl⟩ item = .ok true ∧
      verdict schema ⟨.ilike, ⟨"names"⟩, [.plain "str%7"], rfl⟩ other = .ok true := by
  intro schema item other
  have hpattern : Text.lowered "STR%7" = Text.lowered "str%7" := by decide
  have htexts : Text.lowered "Straße 7" = Text.lowered "sTRAße 7" := by decide
  have hvalues : item.lowered = other.lowered :=
    congrArg (fun text => Value.list [.undefined, .defined (.scalar (.text text))]) htexts
  have hitem : verdict schema ⟨.ilike, ⟨"names"⟩, [.plain "STR%7"], rfl⟩ item = .ok true :=
    eq_ok_of_toOption (by decide +kernel)
  obtain ⟨_, _, hsame⟩ := ilike_extends_like schema ⟨"names"⟩ "STR%7" item
  refine ⟨hpattern, hvalues, hitem, ?_⟩
  rw [← (hsame "str%7" other hpattern ?_).1, hitem]
  intro subject hsubject
  obtain rfl := Except.ok.inj hsubject
  exact congrArg some hvalues

end Evaluator

end RecordQuery
