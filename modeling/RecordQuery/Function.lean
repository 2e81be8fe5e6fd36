import RecordQuery.Error
import RecordQuery.PropertyRef

/-!
The functions of the query language. A function stands around a property or
around a literal; what it computes is in `RecordQuery.Application`.
-/

namespace RecordQuery

/-- A function of the query language. -/
inductive Function where
  /-- Cuts a decimal off toward zero. -/
  | round
  /-- The start of an interval. -/
  | startOf
  /-- The end of an interval. -/
  | endOf
  deriving DecidableEq, Repr

namespace Function

def all : List Function :=
  [.round, .startOf, .endOf]

def name : Function → String
  | .round => "round"
  | .startOf => "start"
  | .endOf => "end"

def ofName (name : String) : Except QueryError Function :=
  match all.find? (·.name == name) with
  | some function => .ok function
  | none => .error (.unknownFunction name)

/-- The text between the parentheses of a call to a known function; any other
text stands for itself. -/
def argument (token : String) : Except QueryError String :=
  match callParts? token.toList with
  | some (name, argument) => do
    let _ ← ofName (.ofList name)
    return .ofList argument
  | none => .ok token

/-- The type of the result, if it is not that of the argument. -/
def outputType? : Function → Option ValueType
  | .round => none
  | .startOf | .endOf => some .instant

/-- Whether the function applies to values of the type. -/
def accepts : Function → ValueType → Bool
  | .round, type => type.isNumeric
  | .startOf, type | .endOf, type => type == .interval

/-- The type that an argument must have for a result of the given type. -/
def inputType : Function → ValueType → ValueType
  | .round, result => result
  | .startOf, _ | .endOf, _ => .interval

theorem name_of_ofName {name : String} {function : Function} (h : ofName name = .ok function) :
    name = function.name := by
  unfold ofName at h
  split at h
  · next found hfound =>
    have hname := List.find?_some hfound
    obtain rfl := Except.ok.inj h
    exact (eq_of_beq hname).symm
  · cases h

end Function

end RecordQuery
