import RecordQuery.Conversion
import RecordQuery.Json.Writer
import RecordQuery.Schema
import RecordQuery.Text.Blank

/-!
Structured values as records. A declared property is read along its dotted path
through nested objects, and what is found there is converted to the declared
type. Null and missing fields are undefined, arrays become lists of the same
length. Anything that does not fit the type is kept as text, which no value of
another type compares with.
-/

namespace RecordQuery

/-- The declaration of a property. Blanks around the name do not count. -/
structure Declaration where
  name : String
  type : ValueType
  resolvable : Bool
  deriving DecidableEq, Repr

namespace Json

/-- The value at a path of field names. Only objects have fields. -/
def at? : List String → Json → Option Json
  | [], json => some json
  | name :: rest, .object fields => (Entries.get? name fields).bind (at? rest)
  | _ :: _, _ => none

end Json

namespace Scalar

/-- The scalar of the type that a whole number stands for. Instants are counted in
seconds. -/
def ofInteger? (n : Int) : ValueType → Option Scalar
  | .integer => (Word.ofInt? n).map .integer
  | .decimal => some (.decimal (Decimal.ofInt n))
  | .instant => (Instant.checked ⟨n, 0⟩).map .instant
  | _ => none

/-- The scalar of the type that a floating-point number stands for. -/
def ofDecimal? (x : Float) : ValueType → Option Scalar
  | .decimal => some (.decimal x)
  | _ => none

/-- The scalar of the type that an element other than null and arrays stands for. -/
def ofJson? : Json → ValueType → Option Scalar
  | .boolean value, .boolean => some (.boolean value)
  | .integer n, type => ofInteger? n type
  | .decimal x, type => ofDecimal? x type
  | .string content, type => read? content type
  | _, _ => none

theorem type_of_ofInteger? {n : Int} {type : ValueType} {scalar : Scalar}
    (h : ofInteger? n type = some scalar) : scalar.type = type := by
  cases type with
  | integer | instant =>
      obtain ⟨_, _, rfl⟩ := Option.map_eq_some_iff.mp h
      rfl
  | decimal =>
      obtain rfl := Option.some.inj h
      rfl
  | _ => cases h

/-- What an element stands for has the type that was asked for. -/
theorem type_of_ofJson? {json : Json} {type : ValueType} {scalar : Scalar}
    (h : ofJson? json type = some scalar) : scalar.type = type := by
  fun_cases ofJson? json type with
  | case1 value =>
      obtain rfl := Option.some.inj h
      rfl
  | case2 n => exact type_of_ofInteger? h
  | case3 x =>
      cases type with
      | decimal =>
          obtain rfl := Option.some.inj h
          rfl
      | _ => cases h
  | case4 content => exact type_of_read? h
  | case5 => simp_all [ofJson?]

end Scalar

namespace Json

/-- The text of a string, or else the value as it is written. -/
def plainText : Json → String
  | .string text => text
  | json => json.compact

/-- Neither null nor an array: what can stand for one scalar. -/
def isElement : Json → Bool
  | .null | .array _ => false
  | _ => true

/-- The scalar of the type that an element stands for, or its text. -/
def toScalar (json : Json) (type : ValueType) : Scalar :=
  (Scalar.ofJson? json type).getD (.text json.plainText)

end Json

namespace Value

mutual

/-- The value of a property of the type. -/
def ofJson (type : ValueType) : Json → Value
  | .null => .undefined
  | .array items => .list (ofJsonAll type items)
  | json => .scalar (json.toScalar type)

def ofJsonAll (type : ValueType) : List Json → List Value
  | [] => []
  | item :: rest => ofJson type item :: ofJsonAll type rest

end

/-- An element is read as one scalar. -/
theorem ofJson_of_isElement (type : ValueType) {json : Json}
    (h : json.isElement = true) : Value.ofJson type json = .scalar (json.toScalar type) := by
  cases json with
  | null | array _ => cases h
  | _ => rw [ofJson] <;> exact nofun

end Value

namespace Declaration

def path (declaration : Declaration) : List Char :=
  Text.trim declaration.name.toList

/-- The field names on the way to the value. -/
def segments (declaration : Declaration) : List String :=
  (Text.pieces '.' declaration.path).map .ofList

/-- The value of the property in a record. -/
def read (declaration : Declaration) (record : Json) : Value :=
  match record.at? declaration.segments with
  | some json => .ofJson declaration.type json
  | none => .undefined

def asProperty (declaration : Declaration) : Property Json :=
  ⟨.ofList declaration.path, declaration.type,
    if declaration.resolvable then .resolvable else .concrete declaration.read⟩

end Declaration

namespace Schema

/-- The schema of the declared properties, in their order. -/
def ofDeclarations (declarations : List Declaration) : Schema Json :=
  ofProperties (declarations.map (·.asProperty))

end Schema

end RecordQuery
