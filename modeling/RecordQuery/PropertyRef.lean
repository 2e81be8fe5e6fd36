import RecordQuery.Text.Pieces

/-!
References to properties. A reference is a dotted path such as `address.city`,
a call around a path such as `round(price)`, or either of them with a leading
minus sign, with which a projection leaves a field out. The reference is its
text; its parts are read from the text on demand.

One path lies under another when the other's segments begin its own. With a
dot after each path this is a question of how texts begin.
-/

namespace RecordQuery

/-- The name and the argument of a text of the form `name(argument)`. The name
is not empty, and the argument has no closing parenthesis. -/
def callParts? (token : List Char) : Option (List Char × List Char) :=
  match Text.splitFirst? '(' token with
  | some (name, rest) =>
    match Text.splitFirst? ')' rest with
    | some (argument, []) => if name.isEmpty then none else some (name, argument)
    | _ => none
  | none => none

/-- A reference to a property, as written. -/
structure PropertyRef where
  text : String
  deriving DecidableEq, Repr

namespace PropertyRef

def chars (ref : PropertyRef) : List Char :=
  ref.text.toList

/-- The function name and the argument, if the reference is a call. -/
def call? (ref : PropertyRef) : Option (String × String) :=
  (callParts? ref.chars).map fun (name, argument) => (.ofList name, .ofList argument)

/-- Whether the reference has the form of a call. -/
def isCall (ref : PropertyRef) : Bool :=
  (callParts? ref.chars).isSome

/-- The path that the reference is about: the argument of a call, or all of it. -/
def path (ref : PropertyRef) : List Char :=
  match callParts? ref.chars with
  | some (_, argument) => argument
  | none => ref.chars

/-- The property to which a call is applied, or the reference itself. -/
def property (ref : PropertyRef) : PropertyRef :=
  ⟨.ofList ref.path⟩

def isEmpty (ref : PropertyRef) : Bool :=
  ref.path.isEmpty

/-- Whether the reference begins with a minus sign. -/
def isExclusion (ref : PropertyRef) : Bool :=
  ref.chars.head? == some '-'

def excluded? (ref : PropertyRef) : Option PropertyRef :=
  (Text.afterStart? ['-'] ref.chars).map fun rest => ⟨.ofList rest⟩

/-- Whether the longer path is this one or lies under it. -/
def isAbove (ref : PropertyRef) (longer : List Char) : Bool :=
  (ref.path ++ ['.']).isPrefixOf (longer ++ ['.'])

/-- Whether this path is the given one or lies under it. -/
def isUnder (ref : PropertyRef) (shorter : List Char) : Bool :=
  (shorter ++ ['.']).isPrefixOf (ref.path ++ ['.'])

/-- The path relative to the given one, if it lies under it, else the path. -/
def relativePath (ref : PropertyRef) (base : List Char) : List Char :=
  if ref.path = base then []
  else (Text.afterStart? (base ++ ['.']) ref.path).getD ref.path

/-- The reference relative to the given path. A call around the path is kept. -/
def relativeTo (ref : PropertyRef) (base : List Char) : PropertyRef :=
  let rest := ref.relativePath base
  match callParts? ref.chars with
  | some (name, _) => ⟨.ofList (name ++ '(' :: (rest ++ [')']))⟩
  | none => ⟨.ofList rest⟩

/-- References are ordered as their texts, by code points. -/
def compare (a b : PropertyRef) : Ordering :=
  compareOfLessAndEq a.text b.text

end PropertyRef

end RecordQuery
