import RecordQuery.Text.Lowercase

/-!
The types that a property can be declared with. A literal compared with a
property is converted to the property's type.
-/

namespace RecordQuery

/-- The type of a scalar value. -/
inductive ValueType where
  | text
  | integer
  | decimal
  | boolean
  | instant
  | duration
  | interval
  | geometry
  deriving DecidableEq, Repr

namespace ValueType

/-- All types, in the order in which they are presented. -/
def all : List ValueType :=
  [.text, .integer, .decimal, .boolean, .instant, .duration, .interval, .geometry]

/-- The name of the type in declarations and messages. -/
def name : ValueType → String
  | .text => "text"
  | .integer => "integer"
  | .decimal => "decimal"
  | .boolean => "boolean"
  | .instant => "instant"
  | .duration => "duration"
  | .interval => "interval"
  | .geometry => "geometry"

def isNumeric : ValueType → Bool
  | .integer | .decimal => true
  | _ => false

/-- The type with this name, whatever the case of its letters. -/
def ofText? (text : String) : Option ValueType :=
  all.find? fun type => type.name.toList == Text.lowercase text.toList

/-- What is said of a name that no type has. -/
def unknownMessage (text : String) : String :=
  "unknown value type: " ++ text

end ValueType

end RecordQuery
