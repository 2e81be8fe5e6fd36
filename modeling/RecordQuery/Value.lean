import RecordQuery.Scalar

/-!
Values of properties. A property may be undefined, hold one scalar, or hold a
list, whose elements may again be undefined or lists. Conditions are about the
leaves of a value, the defined scalars in it at any depth.
-/

namespace RecordQuery

/-- The value of a property. -/
inductive Value where
  | scalar (value : Scalar)
  /-- An optional value that is not there. -/
  | undefined
  /-- An optional value that is there. -/
  | defined (value : Value)
  | list (items : List Value)

namespace Value

/-- The value without its optional layers, none if one of them is undefined. -/
def unwrapped? : Value → Option Value
  | .scalar value => some (.scalar value)
  | .undefined => none
  | .defined value => value.unwrapped?
  | .list items => some (.list items)

/-- The type of a scalar; other values have none. -/
def type? : Value → Option ValueType
  | .scalar value => some value.type
  | _ => none

def text? : Value → Option String
  | .scalar (.text value) => some value
  | _ => none

mutual

/-- The defined scalars of the value, from left to right. -/
def leaves : Value → List Scalar
  | .scalar value => [value]
  | .undefined => []
  | .defined value => value.leaves
  | .list items => leavesOfAll items

def leavesOfAll : List Value → List Scalar
  | [] => []
  | item :: rest => item.leaves ++ leavesOfAll rest

end

mutual

/-- Whether the value is a list without elements, lists in lists counting as one. -/
def isEmptyList : Value → Bool
  | .scalar _ => false
  | .undefined => false
  | .defined value => value.isEmptyList
  | .list items => allEmptyLists items

def allEmptyLists : List Value → Bool
  | [] => true
  | item :: rest => item.isEmptyList && allEmptyLists rest

end

/-- Whether the value is undefined or an empty list. A list with an undefined
element is neither. -/
def isNull (value : Value) : Bool :=
  match value.unwrapped? with
  | none => true
  | some inner => inner.isEmptyList

/-- The natural order of two scalars; other values have none. -/
def compare : Value → Value → Option Ordering
  | .scalar a, .scalar b => a.compare b
  | _, _ => none

mutual

def same : Value → Value → Bool
  | .scalar a, .scalar b => a.same b
  | .undefined, .undefined => true
  | .defined a, .defined b => a.same b
  | .list as, .list bs => sameAll as bs
  | _, _ => false

def sameAll : List Value → List Value → Bool
  | [], [] => true
  | a :: as, b :: bs => a.same b && sameAll as bs
  | _, _ => false

end

mutual

def render : Value → String
  | .scalar value => value.render
  | .undefined => "null"
  | .defined value => value.render
  | .list items => "[" ++ ", ".intercalate (renderAll items) ++ "]"

def renderAll : List Value → List String
  | [] => []
  | item :: rest => item.render :: renderAll rest

end

mutual

def toJson : Value → Json
  | .scalar value => value.toJson
  | .undefined => .null
  | .defined value => value.toJson
  | .list items => .array (toJsonAll items)

def toJsonAll : List Value → List Json
  | [] => []
  | item :: rest => item.toJson :: toJsonAll rest

end

end Value

end RecordQuery
