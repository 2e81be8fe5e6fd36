import RecordQuery.Files.Content
import RecordQuery.Files.Path

/-!
A tree of files and directories with a working directory. Reading looks a path up;
making directories and writing change one place each. A place is a list of names
from the root, so two paths that lead to one place share its content.

What fails changes nothing at the place where it fails. The content of a file
changes only when that file is written.

Symbolic links are left out: a tree holds files and directories only. Checking
whether a path exists, reading it and writing it would all follow a link.
-/

namespace RecordQuery

/-- Why a path cannot be read or written. -/
inductive FileError where
  | notFound
  | alreadyExists
  | notDirectory
  | isDirectory
  | nameTooLong
  /-- A path with a null character. -/
  | invalidName
  /-- Content that is no text. -/
  | notText
  deriving DecidableEq, Repr

namespace FileError

/-- The sentence shown to the user, with the number that the system gives the error. -/
def message : FileError → String
  | .notFound => "No such file or directory (os error 2)"
  | .alreadyExists => "File exists (os error 17)"
  | .notDirectory => "Not a directory (os error 20)"
  | .isDirectory => "Is a directory (os error 21)"
  | .nameTooLong => "File name too long (os error 36)"
  | .invalidName => "file name contained an unexpected NUL byte"
  | .notText => "stream did not contain valid UTF-8"

end FileError

/-- The text of a file or of another input. -/
def Content.read (content : Content) : Except FileError String :=
  match content.text? with
  | some text => .ok text
  | none => .error .notText

/-- The names on the way from the root. -/
abbrev Location := List String

/-- What is at a location. -/
inductive Node where
  | directory
  | file (content : Content)
  deriving DecidableEq, Repr

/-- Files and directories by location. The root is always a directory. -/
structure Files where
  nodes : List (Location × Node)
  /-- Where relative paths start. -/
  current : Location
  deriving DecidableEq, Repr

namespace Files

/-- The node at a location among those listed. -/
def lookup (location : Location) : List (Location × Node) → Option Node
  | [] => none
  | (place, node) :: rest => if place = location then some node else lookup location rest

/-- The nodes with one put at a location, in place of what was there. -/
def insert (location : Location) (node : Node) : List (Location × Node) → List (Location × Node)
  | [] => [(location, node)]
  | (place, old) :: rest =>
    if place = location then (location, node) :: rest
    else (place, old) :: insert location node rest

def node? (files : Files) (location : Location) : Option Node :=
  if location.isEmpty then some .directory else lookup location files.nodes

/-- The content of the file at a location. -/
def content? (files : Files) (location : Location) : Option Content :=
  match files.node? location with
  | some (.file content) => some content
  | _ => none

/-- The files with a node put at a location. -/
def put (files : Files) (location : Location) (node : Node) : Files :=
  ⟨insert location node files.nodes, files.current⟩

/-- The most bytes that a name can have. -/
def maxNameSize : Nat := 255

/-- The most bytes that a path can have. -/
def maxPathSize : Nat := 4095

/-- What a name in a directory stands for; the name must not be too long. -/
def entry? (files : Files) (directory : Location) (name : String) :
    Except FileError (Option Node) :=
  if maxNameSize < name.utf8ByteSize then .error .nameTooLong
  else .ok (files.node? (directory ++ [name]))

/-- The directory that a name in a directory leads to. -/
def enter (files : Files) (directory : Location) (name : String) : Except FileError Location :=
  if name = "." then .ok directory
  else if name = ".." then .ok directory.dropLast
  else do
    match ← files.entry? directory name with
    | none => throw .notFound
    | some (.file _) => throw .notDirectory
    | some .directory => return directory ++ [name]

/-- The directory that some names lead to, one after the other. -/
def descend (files : Files) : Location → List String → Except FileError Location
  | directory, [] => .ok directory
  | directory, name :: rest => do descend files (← files.enter directory name) rest

/-- Where a path ends: at a directory that it only passes through, or at a name in
a directory, which may or may not be there. -/
inductive Place where
  | directory (location : Location)
  | entry (directory : Location) (name : String) (node : Option Node)

def place (files : Files) (path : Path) : Except FileError Place := do
  if path.text.isEmpty then throw .notFound
  else if path.text.toList.contains '\x00' then throw .invalidName
  else if maxPathSize < path.text.utf8ByteSize then throw .nameTooLong
  else
    let start := if path.isAbsolute then [] else files.current
    let names := path.segments
    match names.getLast? with
    | none => return .directory start
    | some name =>
      if name = "." ∨ name = ".." then return .directory (← files.descend start names)
      else
        let directory ← files.descend start names.dropLast
        return .entry directory name (← files.entry? directory name)

def find (files : Files) (path : Path) : Except FileError Node := do
  match ← files.place path with
  | .directory _ => return .directory
  | .entry _ _ none => throw .notFound
  | .entry _ _ (some .directory) => return .directory
  | .entry _ _ (some (.file content)) =>
    if path.endsWithSlash then throw .notDirectory else return .file content

def has (files : Files) (path : Path) : Bool :=
  (files.find path).isOk

def hasDirectory (files : Files) (path : Path) : Bool :=
  match files.find path with
  | .ok .directory => true
  | _ => false

/-- The text in the file that a path leads to. -/
def read (files : Files) (path : Path) : Except FileError String := do
  match ← files.find path with
  | .directory => throw .isDirectory
  | .file content => content.read

/-- The files with a new directory at a path. -/
def makeDirectory (files : Files) (path : Path) : Except FileError Files := do
  match ← files.place path with
  | .directory _ => throw .alreadyExists
  | .entry _ _ (some _) => throw .alreadyExists
  | .entry directory name none => return files.put (directory ++ [name]) .directory

/-- The files with a content written at a path, in place of the file there. -/
def write (files : Files) (path : Path) (content : Content) : Except FileError Files := do
  match ← files.place path with
  | .directory _ => throw .isDirectory
  | .entry _ _ (some .directory) => throw .isDirectory
  | .entry directory name _ =>
    if path.endsWithSlash then throw .isDirectory
    else return files.put (directory ++ [name]) (.file content)

/-- The files without the one at a path. -/
def remove (files : Files) (path : Path) : Except FileError Files := do
  match ← files.place path with
  | .directory _ => throw .isDirectory
  | .entry _ _ (some .directory) => throw .isDirectory
  | .entry _ _ none => throw .notFound
  | .entry directory name (some (.file _)) =>
    if path.endsWithSlash then throw .notDirectory
    else return ⟨files.nodes.filter (·.1 != directory ++ [name]), files.current⟩

/-- The names on the way from a location to one below it. -/
def below? : Location → Location → Option (List String)
  | [], names => some names
  | name :: rest, other :: names => if name = other then below? rest names else none
  | _ :: _, [] => none

/-- The path from the working directory to a file, if it is one below it. -/
def relative? (files : Files) : Location × Node → Option String
  | (location, .file _) => (below? files.current location).map "/".intercalate
  | (_, .directory) => none

/-- The paths of all files below the working directory, in the order of their texts. -/
def listing (files : Files) : List String :=
  (files.nodes.filterMap files.relative?).mergeSort (· ≤ ·)

/-- The files after an attempt to make a directory that may be there already, and
whether it failed. -/
def ensureDirectory (files : Files) (path : Path) : Except FileError Files :=
  match files.makeDirectory path with
  | .ok files => .ok files
  | .error .alreadyExists =>
    if files.hasDirectory path then .ok files else .error .alreadyExists
  | .error e => .error e

/-- Makes the directory of some names, given from the last to the first, and those
above it where they are missing. What was made before a failure stays. -/
def ensureDirectories (absolute : Bool) : List String → Files → Except FileError Unit × Files
  | [], files => (.ok (), files)
  | name :: above, files =>
    let path := Path.ofParts absolute (name :: above).reverse
    match files.ensureDirectory path with
    | .ok files => (.ok (), files)
    | .error .notFound =>
      match ensureDirectories absolute above files with
      | (.ok (), files) =>
        match files.ensureDirectory path with
        | .ok files => (.ok (), files)
        | .error e => (.error e, files)
      | (.error e, files) => (.error e, files)
    | .error e => (.error e, files)

/-- Makes the directories on the way to a path. -/
def ensureParents (files : Files) (path : Path) : Except FileError Unit × Files :=
  ensureDirectories path.isAbsolute path.parts.dropLast.reverse files

theorem lookup_insert_self (location : Location) (node : Node) (nodes : List (Location × Node)) :
    lookup location (insert location node nodes) = some node := by
  induction nodes with
  | nil => simp [insert, lookup]
  | cons head rest ih =>
    obtain ⟨place, old⟩ := head
    by_cases h : place = location <;> simp [insert, lookup, h, ih]

theorem lookup_insert_of_ne {location other : Location} (node : Node)
    (nodes : List (Location × Node)) (h : other ≠ location) :
    lookup other (insert location node nodes) = lookup other nodes := by
  induction nodes with
  | nil => simp [insert, lookup, Ne.symm h]
  | cons head rest ih =>
    obtain ⟨place, old⟩ := head
    by_cases hp : place = location
    · subst hp
      simp [insert, lookup, Ne.symm h]
    · simp [insert, lookup, hp, ih]

theorem node?_put_self (files : Files) {location : Location} (node : Node) (h : location ≠ []) :
    (files.put location node).node? location = some node := by
  rw [node?, if_neg (by simpa using h)]
  exact lookup_insert_self location node files.nodes

/-- Putting a node changes what is at its own location only. -/
theorem node?_put_of_ne (files : Files) {location other : Location} (node : Node)
    (h : other ≠ location) : (files.put location node).node? other = files.node? other := by
  unfold node? put
  split
  · rfl
  · exact lookup_insert_of_ne node files.nodes h

end Files

end RecordQuery
