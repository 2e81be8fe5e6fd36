import RecordQuery.Entries
import RecordQuery.Function
import RecordQuery.Text.Distance
import RecordQuery.Value

/-!
Schemas: the properties that records of some kind have, with their types, in
the order of their declaration. The value of a concrete property is read from a
record; a resolvable one is kept elsewhere and cannot be read here.

A name that no property has is an error, with the most similar name as a
suggestion.
-/

namespace RecordQuery

/-- Where the value of a property comes from. -/
inductive Source (α : Type) where
  | concrete (read : α → Value)
  | resolvable

/-- A property of records of type `α`. -/
structure Property (α : Type) where
  name : String
  type : ValueType
  source : Source α

namespace Property

variable {α : Type}

def isResolvable (property : Property α) : Bool :=
  match property.source with
  | .resolvable => true
  | .concrete _ => false

def isGeometry (property : Property α) : Bool :=
  property.type == .geometry

/-- The value of the property, if it can be read from the record. -/
def value? (property : Property α) (item : α) : Option Value :=
  match property.source with
  | .concrete read => some (read item)
  | .resolvable => none

end Property

/-- The declared properties, by name. -/
structure Schema (α : Type) where
  entries : List (String × Property α)

namespace Schema

variable {α : Type}

def empty : Schema α :=
  ⟨[]⟩

/-- The schema with a property; one of the same name is replaced in its place. -/
def add (schema : Schema α) (property : Property α) : Schema α :=
  ⟨Entries.put property.name property schema.entries⟩

def ofProperties (properties : List (Property α)) : Schema α :=
  properties.foldl add empty

def properties (schema : Schema α) : List (Property α) :=
  schema.entries.map (·.2)

def names (schema : Schema α) : List String :=
  Entries.keys schema.entries

def size (schema : Schema α) : Nat :=
  schema.entries.length

def find? (schema : Schema α) (name : String) : Option (Property α) :=
  Entries.get? name schema.entries

/-- The names of the properties declared as geometries. -/
def geometries (schema : Schema α) : List String :=
  schema.names.filter fun name => (schema.find? name).any Property.isGeometry

def suggestionDistance : Nat := 3

/-- The entry with the least number, the first of several. -/
def leastBy (distance : String → Nat) : List String → Option String
  | [] => none
  | name :: rest =>
    match leastBy distance rest with
    | some best => if distance best < distance name then some best else some name
    | none => some name

/-- The distance of two names but for case. -/
def nameDistance (a b : String) : Nat :=
  Text.distance (Text.lowercase a.toList) (Text.lowercase b.toList)

/-- The most similar of some names, if it is near enough and not the same but for case. -/
def suggest (name : String) (candidates : List String) : Option String := do
  let best ← leastBy (nameDistance name) (candidates.filter (· ≠ ""))
  let distance := nameDistance name best
  if 0 < distance ∧ distance ≤ suggestionDistance then some best else none

/-- The property that a reference names by its whole text. -/
def require (schema : Schema α) (ref : PropertyRef) : Except QueryError (Property α) :=
  match schema.find? ref.text with
  | some property => .ok property
  | none => .error (.propertyNotFound ref.text (suggest ref.text schema.names))

/-- What a reference in a filter means: the property, the function around it, and
the type of the result, to which literals are converted. -/
structure Subject (α : Type) where
  property : Property α
  function : Option Function
  type : ValueType

end Schema

/-- A way to reach the properties of records: the property that a reference names by its
whole text, or an error, and the names of those that are geometries. -/
structure Accessor (α : Type) where
  require : PropertyRef → Except QueryError (Property α)
  geometries : List String

namespace Accessor

variable {α : Type}

/-- The meaning of a reference. A function must be known and apply to the type of
the property. -/
def subject (accessor : Accessor α) (ref : PropertyRef) :
    Except QueryError (Schema.Subject α) :=
  match ref.call? with
  | none => do
    let property ← accessor.require ref
    return ⟨property, none, property.type⟩
  | some (name, _) => do
    let function ← Function.ofName name
    let property ← accessor.require ref.property
    if function.accepts property.type then
      return ⟨property, some function, function.outputType?.getD property.type⟩
    else throw (.unsupportedFunction function.name ref.property.text)

def checkGeometry (accessor : Accessor α) (ref : PropertyRef) : Except QueryError Unit :=
  if accessor.geometries.contains ref.text then .ok ()
  else .error (.geometryRequired ref.text accessor.geometries)

end Accessor

namespace Schema

variable {α : Type}

/-- The schema as a way to reach the properties declared in it. -/
def accessor (schema : Schema α) : Accessor α :=
  ⟨schema.require, schema.geometries⟩

def subject (schema : Schema α) (ref : PropertyRef) : Except QueryError (Subject α) :=
  schema.accessor.subject ref

def checkGeometry (schema : Schema α) (ref : PropertyRef) : Except QueryError Unit :=
  schema.accessor.checkGeometry ref

end Schema

end RecordQuery
