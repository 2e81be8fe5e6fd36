import RecordQuery.ValueType

/-!
What can be wrong with a query: its text, the properties it names, or the
literals it compares them with. Every error has a kind, which tells these
three apart, a stable code and a message.
-/

namespace RecordQuery

/-- The part of a request that an error is about. -/
inductive QueryError.Kind where
  /-- The text of the query. -/
  | grammar
  /-- A property that the query names. -/
  | resolution
  /-- A literal that does not give a value of the property's type. -/
  | evaluation
  deriving DecidableEq, Repr

/-- The cause of a failure to read, resolve or compile a query. -/
inductive QueryError where
  | invalidLiteral (literal : String)
  | unknownFunction (name : String)
  | unsupportedFunction (function property : String)
  | illegalFilter (residue : String)
  | illegalPolygon (polygon : String)
  | illegalPoint (point : String)
  | unclosedPolygon (first last : String)
  | propertyNotFound (property : String) (suggestion : Option String)
  | resolvableProperty (property : String)
  | geometryRequired (property : String) (geometries : List String)
  | conversion (value : String) (target : ValueType)
  | unsupportedArithmetic (left : String) (sign : Char) (right : String)
  | invalidArity (operator expected : String) (actual : Nat)
  deriving DecidableEq, Repr

namespace QueryError

def kind : QueryError → Kind
  | .invalidLiteral _ | .unknownFunction _ | .illegalFilter _ | .illegalPolygon _
  | .illegalPoint _ | .unclosedPolygon _ _ | .invalidArity _ _ _ => .grammar
  | .propertyNotFound _ _ | .resolvableProperty _ | .geometryRequired _ _ => .resolution
  | .unsupportedFunction _ _ | .conversion _ _ | .unsupportedArithmetic _ _ _ => .evaluation

def code : QueryError → String
  | .invalidLiteral _ => "INVALID_LITERAL"
  | .unknownFunction _ => "UNKNOWN_FUNCTION"
  | .unsupportedFunction _ _ => "UNSUPPORTED_FUNCTION_FOR_PROPERTY"
  | .illegalFilter _ => "ILLEGAL_FILTER"
  | .illegalPolygon _ => "ILLEGAL_POLYGON"
  | .illegalPoint _ => "ILLEGAL_POINT"
  | .unclosedPolygon _ _ => "UNCLOSED_POLYGON"
  | .propertyNotFound _ _ => "FILTER_PROPERTY_NOT_FOUND"
  | .resolvableProperty _ => "CANNOT_FILTER_BY_RESOLVABLE"
  | .geometryRequired _ _ => "SPATIAL_FILTERING_REQUIRES_GEOMETRY_PROPERTY"
  | .conversion _ _ => "CONVERSION_ERROR"
  | .unsupportedArithmetic _ _ _ => "UNSUPPORTED_ARITHMETIC"
  | .invalidArity _ _ _ => "INVALID_ARITY"

def message : QueryError → String
  | .invalidLiteral literal => "invalid literal: " ++ literal
  | .unknownFunction name => "unknown function: " ++ name
  | .unsupportedFunction function property =>
    "function " ++ function ++ " cannot be used with property " ++ property
  | .illegalFilter residue => "illegal filter: " ++ residue
  | .illegalPolygon polygon => "illegal polygon: " ++ polygon
  | .illegalPoint point => "illegal point: " ++ point
  | .unclosedPolygon first last =>
    "first coordinate (" ++ first ++ ") must equal last coordinate (" ++ last ++ ")"
  | .propertyNotFound property suggestion =>
    "filter property not found: " ++ property ++
      match suggestion with
      | some name => " (did you mean '" ++ name ++ "'?)"
      | none => ""
  | .resolvableProperty property => "cannot filter by resolvable property: " ++ property
  | .geometryRequired property geometries =>
    "spatial filtering requires a geometry property, got " ++ property ++
      " (geometry properties: " ++ ", ".intercalate geometries ++ ")"
  | .conversion value target => "cannot convert '" ++ value ++ "' to " ++ target.name
  | .unsupportedArithmetic left sign right =>
    "unsupported arithmetic: " ++ left ++ " " ++ sign.toString ++ " " ++ right
  | .invalidArity operator expected actual =>
    operator ++ " expects " ++ expected ++ " value(s), got " ++ toString actual

end QueryError

end RecordQuery
