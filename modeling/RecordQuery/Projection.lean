import RecordQuery.Json.Basic
import RecordQuery.PropertyRef
import RecordQuery.Text.Blank

/-!
Projections keep some fields of a record. A projection lists paths to include
and paths to exclude. An excluded field goes with everything under it. Of the
other fields all are kept if nothing is included by name; else those at or under
an included path, and on the way to one the objects and arrays that lead there.

The path of a field is its key, behind the path of the object that it is in and
a dot. The elements of an array have the path of the array.
-/

namespace RecordQuery

/-- The paths to include and the paths to exclude. -/
structure Projection where
  includes : List PropertyRef
  excludes : List PropertyRef
  deriving DecidableEq, Repr

namespace Projection

/-- The entries of a list with commas, without blanks around them and without
empty ones. -/
def entries (fields : String) : List PropertyRef :=
  let trimmed := (Text.pieces ',' fields.toList).map Text.trim
  (trimmed.filter (!·.isEmpty)).map fun entry => ⟨.ofList entry⟩

/-- The projection of a list with commas; a leading minus sign excludes. -/
def ofText (fields : String) : Projection :=
  ⟨(entries fields).filter (!·.isExclusion), (entries fields).filterMap (·.excluded?)⟩

def isEmpty (projection : Projection) : Bool :=
  projection.includes.isEmpty && projection.excludes.isEmpty

/-- The path of a field in an object with the given path. -/
def childPath (path : List Char) (key : String) : List Char :=
  if path.isEmpty then key.toList else path ++ '.' :: key.toList

/-- Whether a value can have fields under it. -/
def isContainer : Json → Bool
  | .object _ | .array _ => true
  | _ => false

def drops (projection : Projection) (path : List Char) : Bool :=
  projection.excludes.any (·.isAbove path)

/-- Whether a path and what lies under it is included. -/
def covers (projection : Projection) (path : List Char) : Bool :=
  projection.includes.isEmpty || projection.includes.any (·.isAbove path)

/-- Whether an included path lies under a path. -/
def leads (projection : Projection) (path : List Char) : Bool :=
  projection.includes.any (·.isUnder path)

/-- Whether a field with the path and the value is kept. -/
def keeps (projection : Projection) (path : List Char) (value : Json) : Bool :=
  !projection.drops path &&
    (projection.covers path || (projection.leads path && isContainer value))

mutual

/-- The part of a value at a path that is kept. -/
def project (projection : Projection) (path : List Char) : Json → Json
  | .object fields => .object (projectFields projection path fields)
  | .array items => .array (projectItems projection path items)
  | json => json

def projectFields (projection : Projection) (path : List Char) :
    List (String × Json) → List (String × Json)
  | [] => []
  | (key, value) :: rest =>
    let child := childPath path key
    let others := projectFields projection path rest
    if projection.keeps child value then (key, project projection child value) :: others
    else others

def projectItems (projection : Projection) (path : List Char) : List Json → List Json
  | [] => []
  | item :: rest => project projection path item :: projectItems projection path rest

end

/-- The part of a record that is kept. -/
def apply (projection : Projection) (record : Json) : Json :=
  projection.project [] record

/-- What lies under an excluded path is kept nowhere. -/
theorem keeps_eq_false_of_drops {projection : Projection} {path : List Char} {value : Json}
    (h : projection.drops path = true) : projection.keeps path value = false := by
  simp [keeps, h]

end Projection

end RecordQuery
