import RecordQuery.Proofs.Outcome
import RecordQuery.Resolution

/-!
The types that literals resolve to. The type of the value is known before the
literal is resolved: it depends on the functions that are called, on the signs,
and on which operands are written as durations or instants.

It need not be the type that was asked for. The start and the end of an interval
are instants whatever the target is, and arithmetic on instants and durations
gives one or the other of them. Nothing but an instant or a duration can take
the place of the target, and no scalar of the target type is comparable with it.
-/

namespace RecordQuery

namespace ValueType

/-- Whether the type is that of a point or a length of time. -/
def isTemporal : ValueType → Bool
  | .instant | .duration => true
  | _ => false

end ValueType

namespace ArithmeticOperator

/-- The type of the result on operands of two types, if there can be one. -/
def resultType? : ArithmeticOperator → ValueType → ValueType → Option ValueType
  | _, .integer, .integer => some .integer
  | _, .integer, .decimal | _, .decimal, .integer | _, .decimal, .decimal => some .decimal
  | .add, .instant, .duration | .sub, .instant, .duration => some .instant
  | .add, .duration, .instant => some .instant
  | .add, .duration, .duration | .sub, .duration, .duration => some .duration
  | .sub, .instant, .instant => some .duration
  | _, _, _ => none

theorem type_of_finite? {op : ArithmeticOperator} {a b : Float} {result : Scalar}
    (h : op.finite? a b = some result) : result.type = .decimal := by
  obtain ⟨_, hresult⟩ := Option.ite_none_right_eq_some.mp h
  obtain rfl := Option.some.inj hresult
  rfl

/-- What an operator gives on two scalars has the type that goes with their types. -/
theorem type_of_combine? {op : ArithmeticOperator} {a b result : Scalar}
    (h : op.combine? a b = some result) : op.resultType? a.type b.type = some result.type := by
  fun_cases combine? op a b with
  | case1 =>
      simp only [combine?, Option.bind_eq_bind, Option.bind_eq_some_iff] at h
      obtain ⟨_, _, word, _, hresult⟩ := h
      obtain rfl := Option.some.inj hresult
      simp [resultType?, Scalar.type]
  | case2 | case3 | case4 =>
      rw [type_of_finite? h]
      simp [resultType?, Scalar.type]
  | case5 | case6 | case8 =>
      obtain ⟨t, _, rfl⟩ := Option.map_eq_some_iff.mp h
      rfl
  | case10 | case11 | case13 =>
      obtain rfl := Option.some.inj h
      rfl
  | case7 | case9 | case12 | case14 | case15 => simp_all [combine?]

/-- Instants and durations are combined with nothing else, and nothing else comes out. -/
theorem isTemporal_of_resultType? (op : ArithmeticOperator) {a b result : ValueType}
    (h : op.resultType? a b = some result) :
    b.isTemporal = a.isTemporal ∧ result.isTemporal = a.isTemporal := by
  cases op <;> cases a <;> cases b <;> cases h <;> exact ⟨rfl, rfl⟩

/-- Operands of one type that is not temporal give a result of this type. -/
theorem resultType?_same (op : ArithmeticOperator) {type result : ValueType}
    (htype : type.isTemporal = false) (h : op.resultType? type type = some result) :
    result = type := by
  cases op <;> cases type <;> cases h <;> first
    | rfl
    | exact absurd htype (by decide)

end ArithmeticOperator

/-- Scalars of different types are comparable only if both are numbers. -/
theorem Scalar.compare_eq_none_of_type {a b : Scalar} (hne : a.type ≠ b.type)
    (hb : b.type.isNumeric = false) : a.compare b = none := by
  cases a <;> cases b <;> simp_all [type, compare, ValueType.isNumeric]

namespace Literal

/-- The type of the value of the literal where a type is asked for. There is no
value if there is no type. -/
def typeAt? : Literal → ValueType → Option ValueType
  | .plain _, target => some target
  | .call name _, target =>
    match Function.ofName name with
    | .ok function =>
      if function.accepts (function.inputType target) then some (function.outputType?.getD target)
      else none
    | .error _ => none
  | .arithmetic left op right, target => do
    let a ← left.typeAt? (operandTarget target left)
    let b ← right.typeAt? (operandTarget target right)
    op.resultType? a b

/-- Whether every operand of the literal is the start or the end of an interval. -/
def isMadeOfEnds : Literal → Bool
  | .plain _ => false
  | .call name _ => name == Function.startOf.name || name == Function.endOf.name
  | .arithmetic left _ right => left.isMadeOfEnds && right.isMadeOfEnds

theorem typeAt?_arithmetic_eq_some_iff (left right : Literal) (op : ArithmeticOperator)
    (target type : ValueType) :
    (arithmetic left op right).typeAt? target = some type ↔
      ∃ a b, left.typeAt? (operandTarget target left) = some a ∧
        right.typeAt? (operandTarget target right) = some b ∧ op.resultType? a b = some type := by
  simp only [typeAt?, Option.bind_eq_bind, Option.bind_eq_some_iff]
  constructor
  · rintro ⟨a, ha, b, hb, h⟩
    exact ⟨a, b, ha, hb, h⟩
  · rintro ⟨a, b, ha, hb, h⟩
    exact ⟨a, ha, b, hb, h⟩

theorem typeAt?_call_eq_some_iff (name : String) (argument : Option String)
    (target type : ValueType) :
    (call name argument).typeAt? target = some type ↔
      ∃ function, Function.ofName name = .ok function ∧
        function.accepts (function.inputType target) = true ∧
        function.outputType?.getD target = type := by
  rw [typeAt?]
  cases Function.ofName name with
  | error e => simp
  | ok function => simp

theorem resolve_call_eq_ok_iff (name : String) (argument : Option String) (target : ValueType)
    (value : Scalar) :
    (call name argument).resolve target = .ok value ↔
      ∃ function text input, Function.ofName name = .ok function ∧ argument = some text ∧
        convert text (function.inputType target) = .ok input ∧
        function.applyTo? input = some value := by
  rw [resolve, bind_eq_ok_iff]
  refine exists_congr fun function => ?_
  cases argument with
  | none => simp [throw_ne_ok]
  | some text => simp [bind_eq_ok_iff, Function.apply_scalar_eq_ok_iff]

theorem resolve_arithmetic_eq_ok_iff (left right : Literal) (op : ArithmeticOperator)
    (target : ValueType) (value : Scalar) :
    (arithmetic left op right).resolve target = .ok value ↔
      ∃ a b, left.resolve (operandTarget target left) = .ok a ∧
        right.resolve (operandTarget target right) = .ok b ∧ op.combine? a b = some value := by
  simp only [resolve, bind_eq_ok_iff, ArithmeticOperator.combine_scalars_eq_ok_iff]
  constructor
  · rintro ⟨a, ha, b, hb, h⟩
    exact ⟨a, b, ha, hb, h⟩
  · rintro ⟨a, b, ha, hb, h⟩
    exact ⟨a, ha, b, hb, h⟩

/-- A resolved literal has the type that its form tells, whatever is asked for. -/
theorem typeAt?_of_resolve (literal : Literal) (target : ValueType) (value : Scalar)
    (h : literal.resolve target = .ok value) : literal.typeAt? target = some value.type := by
  induction literal generalizing target value with
  | plain text => rw [typeAt?, Scalar.type_of_read? ((convert_eq_ok_iff _ _ _).mp h)]
  | call name argument =>
      obtain ⟨function, text, input, hname, rfl, hinput, hvalue⟩ :=
        (resolve_call_eq_ok_iff _ _ _ _).mp h
      have htype := Scalar.type_of_read? ((convert_eq_ok_iff _ _ _).mp hinput)
      have haccepts : function.accepts input.type = true := by
        rw [← Function.isSome_applyTo?, hvalue]
        rfl
      refine (typeAt?_call_eq_some_iff _ _ _ _).mpr ⟨function, hname, htype ▸ haccepts, ?_⟩
      rw [Function.type_of_applyTo? hvalue, htype]
      cases function <;> rfl
  | arithmetic left op right ihleft ihright =>
      obtain ⟨a, b, ha, hb, hvalue⟩ := (resolve_arithmetic_eq_ok_iff _ _ _ _ _).mp h
      exact (typeAt?_arithmetic_eq_some_iff _ _ _ _ _).mpr ⟨a.type, b.type, ihleft _ _ ha,
        ihright _ _ hb, ArithmeticOperator.type_of_combine? hvalue⟩

theorem isTemporal_operandTarget (target : ValueType) (operand : Literal) :
    (operandTarget target operand).isTemporal = target.isTemporal := by
  fun_cases operandTarget target operand with
  | case1 value h => rcases h.1 with rfl | rfl <;> rfl
  | case2 value h h' =>
      obtain ⟨rfl, _⟩ := h'
      rfl
  | case3 | case4 => rfl

theorem operandTarget_of_not_temporal (target : ValueType) (operand : Literal)
    (htarget : target.isTemporal = false) : operandTarget target operand = target := by
  fun_cases operandTarget target operand with
  | case1 value h => rcases h.1 with rfl | rfl <;> exact absurd htarget (by decide)
  | case2 value h h' =>
      obtain ⟨rfl, _⟩ := h'
      exact absurd htarget (by decide)
  | case3 | case4 => rfl

/-- Where an instant or a duration is asked for, nothing but these comes out. -/
theorem isTemporal_of_typeAt? (literal : Literal) (target type : ValueType)
    (htarget : target.isTemporal = true) (h : literal.typeAt? target = some type) :
    type.isTemporal = true := by
  induction literal generalizing target type with
  | plain text =>
      obtain rfl := Option.some.inj h
      exact htarget
  | call name argument =>
      obtain ⟨function, _, haccepts, rfl⟩ := (typeAt?_call_eq_some_iff _ _ _ _).mp h
      cases function with
      | round => exact htarget
      | startOf | endOf => rfl
  | arithmetic left op right ihleft _ =>
      obtain ⟨a, b, ha, _, hresult⟩ := (typeAt?_arithmetic_eq_some_iff _ _ _ _ _).mp h
      rw [(op.isTemporal_of_resultType? hresult).2]
      exact ihleft _ _ ((isTemporal_operandTarget target left).trans htarget) ha

/-- Where another type is asked for, it comes out, except from a literal that is made
of nothing but ends of intervals. -/
theorem typeAt?_of_not_temporal (literal : Literal) (target type : ValueType)
    (htarget : target.isTemporal = false) (h : literal.typeAt? target = some type) :
    type.isTemporal = literal.isMadeOfEnds ∧ (literal.isMadeOfEnds = false → type = target) := by
  induction literal generalizing type with
  | plain text =>
      obtain rfl := Option.some.inj h
      exact ⟨htarget, fun _ => rfl⟩
  | call name argument =>
      obtain ⟨function, hname, _, rfl⟩ := (typeAt?_call_eq_some_iff _ _ _ _).mp h
      obtain rfl : name = function.name := Function.name_of_ofName hname
      cases function with
      | round => exact ⟨htarget, fun _ => rfl⟩
      | startOf | endOf => exact ⟨rfl, fun hends => by simp [isMadeOfEnds] at hends⟩
  | arithmetic left op right ihleft ihright =>
      obtain ⟨a, b, ha, hb, hresult⟩ := (typeAt?_arithmetic_eq_some_iff _ _ _ _ _).mp h
      rw [operandTarget_of_not_temporal _ _ htarget] at ha hb
      obtain ⟨hleft, hleft'⟩ := ihleft a ha
      obtain ⟨hright, hright'⟩ := ihright b hb
      obtain ⟨hsame, htype⟩ := op.isTemporal_of_resultType? hresult
      -- Both operands are made of ends or neither is, or they could not be combined.
      have hends : right.isMadeOfEnds = left.isMadeOfEnds := by rw [← hleft, ← hright, hsame]
      rw [isMadeOfEnds, hends, Bool.and_self]
      refine ⟨htype.trans hleft, fun hnot => ?_⟩
      obtain rfl := hleft' hnot
      obtain rfl := hright' (hends.trans hnot)
      exact op.resultType?_same htarget hresult

/-- What takes the place of the target is an instant or a duration. -/
theorem isTemporal_of_type_ne (literal : Literal) (target : ValueType) (value : Scalar)
    (h : literal.resolve target = .ok value) (hne : value.type ≠ target) :
    value.type.isTemporal = true := by
  have htype := typeAt?_of_resolve literal target value h
  cases htarget : target.isTemporal with
  | true => exact isTemporal_of_typeAt? literal target value.type htarget htype
  | false =>
      obtain ⟨hends, hsame⟩ := typeAt?_of_not_temporal literal target value.type htarget htype
      cases hmade : literal.isMadeOfEnds with
      | true => rw [hends, hmade]
      | false => exact absurd (hsame hmade) hne

/-- The value of a literal is of the type that was asked for if and only if the form
of the literal tells so; where neither an instant nor a duration was asked for, if and
only if the literal is not made of ends of intervals alone. Otherwise the value is an
instant or a duration, and no scalar of the type that was asked for is comparable
with it. -/
theorem type_of_resolve_iff (literal : Literal) (target : ValueType) (value : Scalar)
    (h : literal.resolve target = .ok value) :
    (value.type = target ↔ literal.typeAt? target = some target) ∧
      (target.isTemporal = false → (value.type = target ↔ literal.isMadeOfEnds = false)) ∧
      (value.type ≠ target → value.type.isTemporal = true ∧
        ∀ leaf : Scalar, leaf.type = target → leaf.compare value = none) := by
  have htype := typeAt?_of_resolve literal target value h
  refine ⟨?_, fun htarget => ?_, fun hne => ?_⟩
  · rw [htype, Option.some.injEq]
  · obtain ⟨hends, hsame⟩ := typeAt?_of_not_temporal literal target value.type htarget htype
    refine ⟨?_, hsame⟩
    rintro rfl
    rw [← hends, htarget]
  · have htemporal := isTemporal_of_type_ne literal target value h hne
    have hnumeric : value.type.isNumeric = false := by
      cases hvalue : value.type <;> simp_all [ValueType.isTemporal, ValueType.isNumeric]
    refine ⟨htemporal, ?_⟩
    rintro leaf rfl
    exact Scalar.compare_eq_none_of_type (Ne.symm hne) hnumeric

/-- The end of an interval less a day, as an instant. -/
theorem type_of_resolve_iff_of_end :
    let literal := arithmetic (call "end" (some "2020-01-01T00:00:00Z/P2D")) .sub (plain "P1D")
    let value := Scalar.instant ⟨1577923200, 0⟩
    literal.resolve .instant = .ok value ∧
      (value.type = .instant ↔ literal.typeAt? .instant = some .instant) ∧
      (ValueType.isTemporal .instant = false →
        (value.type = .instant ↔ literal.isMadeOfEnds = false)) ∧
      (value.type ≠ .instant → value.type.isTemporal = true ∧
        ∀ leaf : Scalar, leaf.type = .instant → leaf.compare value = none) := by
  intro literal value
  have hresolve : literal.resolve .instant = .ok value := rfl
  exact ⟨hresolve, type_of_resolve_iff literal .instant value hresolve⟩

/-- An instant where a text is asked for, a duration where an instant is asked for,
and an instant where a duration is asked for. -/
theorem another_type_is_resolved :
    (classify "start(2020-01-01T00:00:00Z/P1D)" >>= fun literal =>
        literal.resolve .text).toOption.map Scalar.type = some .instant ∧
      (classify "P1D+P1D" >>= fun literal =>
        literal.resolve .instant).toOption.map Scalar.type = some .duration ∧
      (classify "2020-01-01T00:00:00Z+P1D" >>= fun literal =>
        literal.resolve .duration).toOption.map Scalar.type = some .instant := by
  decide +kernel

end Literal

end RecordQuery
