import RecordQuery.Value

/-!
Elements of values. Lists in lists count as one list, and optional layers do not
count, so a value has a flat list of elements, each of which is a scalar or
undefined. The leaves are the scalars among them. A value is null if it is
undefined, or if it is a list that has no elements, and so no null value has a
leaf. The converse does not hold: a list with an undefined element is not null.
-/

namespace RecordQuery.Value

mutual

/-- The elements of the value with lists in lists flattened, none for one that is
undefined. -/
def elements : Value → List (Option Scalar)
  | .scalar value => [some value]
  | .undefined => [none]
  | .defined value => value.elements
  | .list items => elementsOfAll items

def elementsOfAll : List Value → List (Option Scalar)
  | [] => []
  | item :: rest => item.elements ++ elementsOfAll rest

end

/-- The value is undefined, or a list without elements. -/
def IsAbsent (value : Value) : Prop :=
  value.unwrapped? = none ∨
    ∃ items, value.unwrapped? = some (.list items) ∧ elementsOfAll items = []

mutual

theorem leaves_eq_filterMap (value : Value) : value.leaves = value.elements.filterMap id := by
  cases value with
  | scalar value => simp [leaves, elements]
  | undefined => simp [leaves, elements]
  | defined value => simp [leaves, elements, leaves_eq_filterMap value]
  | list items => simp [leaves, elements, leavesOfAll_eq_filterMap items]

theorem leavesOfAll_eq_filterMap (items : List Value) :
    leavesOfAll items = (elementsOfAll items).filterMap id := by
  cases items with
  | nil => rfl
  | cons item rest =>
      simp [leavesOfAll, elementsOfAll, leaves_eq_filterMap item, leavesOfAll_eq_filterMap rest]

end

mutual

/-- The check for an empty list looks for the first element. -/
theorem isEmptyList_iff (value : Value) : value.isEmptyList = true ↔ value.elements = [] := by
  cases value with
  | scalar value => simp [isEmptyList, elements]
  | undefined => simp [isEmptyList, elements]
  | defined value => simp [isEmptyList, elements, isEmptyList_iff value]
  | list items => simp [isEmptyList, elements, allEmptyLists_iff items]

theorem allEmptyLists_iff (items : List Value) :
    allEmptyLists items = true ↔ elementsOfAll items = [] := by
  cases items with
  | nil => simp [allEmptyLists, elementsOfAll]
  | cons item rest =>
      simp [allEmptyLists, elementsOfAll, isEmptyList_iff item, allEmptyLists_iff rest]

end

theorem elements_of_unwrapped?_eq_none (value : Value) (h : value.unwrapped? = none) :
    value.elements = [none] := by
  fun_induction unwrapped? value with
  | case1 | case4 => cases h
  | case2 => rfl
  | case3 value ih => exact ih h

/-- Under its optional layers a value is a scalar or a list, with the same elements. -/
theorem unwrapped?_eq_some (value inner : Value) (h : value.unwrapped? = some inner) :
    inner.elements = value.elements ∧
      ((∃ leaf, inner = .scalar leaf) ∨ ∃ items, inner = .list items) := by
  fun_induction unwrapped? value with
  | case1 leaf =>
      obtain rfl := Option.some.inj h
      exact ⟨rfl, .inl ⟨leaf, rfl⟩⟩
  | case2 => cases h
  | case3 value ih => exact ih h
  | case4 items =>
      obtain rfl := Option.some.inj h
      exact ⟨rfl, .inr ⟨items, rfl⟩⟩

theorem isNull_iff (value : Value) : value.isNull = true ↔ value.IsAbsent := by
  unfold isNull IsAbsent
  cases hinner : value.unwrapped? with
  | none => simp
  | some inner =>
      obtain ⟨_, ⟨leaf, rfl⟩ | ⟨items, rfl⟩⟩ := unwrapped?_eq_some value inner hinner
      · simp [isEmptyList]
      · simp [isEmptyList, allEmptyLists_iff]

theorem leaves_of_isAbsent (value : Value) (h : value.IsAbsent) : value.leaves = [] := by
  rw [leaves_eq_filterMap]
  rcases h with hnone | ⟨items, hlist, hempty⟩
  · rw [elements_of_unwrapped?_eq_none value hnone]
    rfl
  · rw [← (unwrapped?_eq_some value _ hlist).1, elements, hempty]
    rfl

end RecordQuery.Value
