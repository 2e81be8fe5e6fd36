import RecordQuery.Text.Pieces

/-!
Paths of files. A path is kept as it was given, since that is how it is shown; the
names between its slashes say where it leads. One dot stands for the directory
itself and two for the one above it. Repeated slashes count as one, and dots other
than at the start of a relative path add nothing.
-/

namespace RecordQuery

/-- A path, as written. -/
structure Path where
  text : String
  deriving DecidableEq, Repr

namespace Path

def isAbsolute (path : Path) : Bool :=
  path.text.toList.head? == some '/'

/-- Whether the path ends with a slash and so can only be a directory. -/
def endsWithSlash (path : Path) : Bool :=
  path.text.toList.getLast? == some '/'

def segments (path : Path) : List String :=
  ((Text.pieces '/' path.text.toList).filter (!·.isEmpty)).map .ofList

/-- The names that count when paths are compared or shortened. -/
def parts (path : Path) : List String :=
  match path.segments with
  | [] => []
  | first :: rest =>
    let rest := rest.filter (· != ".")
    if first == "." && path.isAbsolute then rest else first :: rest

/-- The path of some names, from the root or from the working directory. -/
def ofParts (absolute : Bool) (parts : List String) : Path :=
  ⟨(if absolute then "/" else "") ++ "/".intercalate parts⟩

/-- The path to a name in the directory. -/
def join (path : Path) (name : String) : Path :=
  if path.text.isEmpty || path.endsWithSlash then ⟨path.text ++ name⟩
  else ⟨path.text ++ "/" ++ name⟩

/-- Whether two paths are spelled alike but for repeated slashes and single dots. -/
def same (a b : Path) : Bool :=
  a.isAbsolute == b.isAbsolute && a.parts == b.parts

end Path

end RecordQuery
