import RecordQuery.Decimal.Reading
import RecordQuery.Decimal.Text
import RecordQuery.Json.Basic
import RecordQuery.Time.Interval
import RecordQuery.ValueType

/-!
Scalar values: what a literal resolves to and what a single element of a
property holds. Numbers of both kinds are compared with each other; other
scalars only with those of their own type.
-/

namespace RecordQuery

/-- A value of one of the types. -/
inductive Scalar where
  | text (value : String)
  | integer (value : Int64)
  | decimal (value : Float)
  | boolean (value : Bool)
  | instant (value : Instant)
  | duration (value : Duration)
  | interval (value : Interval)
  /-- Well-known text, compared as text. -/
  | geometry (value : String)

namespace Scalar

def type : Scalar → ValueType
  | .text _ => .text
  | .integer _ => .integer
  | .decimal _ => .decimal
  | .boolean _ => .boolean
  | .instant _ => .instant
  | .duration _ => .duration
  | .interval _ => .interval
  | .geometry _ => .geometry

def render : Scalar → String
  | .text value | .geometry value => value
  | .integer value => .ofList (Text.intDigits value.toInt)
  | .decimal value => Decimal.render value
  | .boolean true => "true"
  | .boolean false => "false"
  | .instant value => .ofList value.renderChars
  | .duration value => .ofList value.renderChars
  | .interval value => .ofList value.renderChars

/-- The order of two floating-point numbers, none if one of them is no number. -/
def compareFloats (a b : Float) : Option Ordering :=
  if a < b then some .lt
  else if b < a then some .gt
  else if a == b then some .eq
  else none

/-- The order of two texts by code points. -/
def compareTexts (a b : String) : Ordering :=
  compareOfLessAndEq a b

def compareBooleans (a b : Bool) : Ordering :=
  match a, b with
  | false, true => .lt
  | true, false => .gt
  | _, _ => .eq

/-- The natural order of two scalars, none if they are not comparable. -/
def compare : Scalar → Scalar → Option Ordering
  | .text a, .text b => some (compareTexts a b)
  | .integer a, .integer b => some (Duration.compareWords a b)
  | .decimal a, .decimal b => compareFloats a b
  | .integer a, .decimal b => compareFloats (Decimal.ofInt a.toInt) b
  | .decimal a, .integer b => compareFloats a (Decimal.ofInt b.toInt)
  | .boolean a, .boolean b => some (compareBooleans a b)
  | .instant a, .instant b => some (a.compare b)
  | .duration a, .duration b => some (a.compare b)
  | .interval a, .interval b => some (a.compare b)
  | .geometry a, .geometry b => some (compareTexts a b)
  | _, _ => none

/-- Equality of type and content. A decimal that is no number equals nothing. -/
def same : Scalar → Scalar → Bool
  | .text a, .text b => a == b
  | .integer a, .integer b => a == b
  | .decimal a, .decimal b => a == b
  | .boolean a, .boolean b => a == b
  | .instant a, .instant b => a == b
  | .duration a, .duration b => a == b
  | .interval a, .interval b => a == b
  | .geometry a, .geometry b => a == b
  | _, _ => false

/-- The scalar as a structured value: numbers and truth values as such, all
other scalars as text, instants with the fraction of their second. -/
def toJson : Scalar → Json
  | .integer value => .integer value.toInt
  | .decimal value => .decimal value
  | .boolean value => .boolean value
  | .instant value => .string (.ofList value.exactChars)
  | other => .string other.render

end Scalar

end RecordQuery
