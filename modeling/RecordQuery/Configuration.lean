import RecordQuery.Failure
import RecordQuery.Record
import RecordQuery.Toml.Reader

/-!
The configuration: whether output is coloured, and the properties that records
have. It is kept in a file, whose place is given on the command line or by the
environment; no file at all counts as an empty configuration.

Declared names must not be blank, and no two may be the same without the blanks
around them, so every declaration adds a property of its own to the schema.
-/

namespace RecordQuery

structure Configuration where
  /-- Whether output is coloured, if the configuration says so. -/
  color : Option Bool
  declarations : List Declaration
  deriving DecidableEq, Repr

namespace Configuration

/-- The version of the format, whatever version a file names. -/
def version : Nat := 1

def empty : Configuration :=
  ⟨none, []⟩

/-- The value under a key that may be missing. A value of another form is an error. -/
def optional {β : Type} (key : String) (read : Toml → Option β) (entries : Toml.Table) :
    Option (Option β) :=
  match Entries.get? key entries with
  | none => some none
  | some value => (read value).map some

/-- The entries of a table, however it was written. -/
def readTable : Toml → Option Toml.Table
  | .table _ entries => some entries
  | _ => none

def readBoolean : Toml → Option Bool
  | .boolean value => some value
  | _ => none

def readString : Toml → Option String
  | .string value => some value
  | _ => none

def readVersion : Toml → Option Nat
  | .integer n => if 0 ≤ n ∧ n < 4294967296 then some n.toNat else none
  | _ => none

def readType (value : Toml) : Option ValueType := do
  let name ← readString value
  ValueType.all.find? (·.name == name)

/-- The declaration in a table. Name and type must be there. -/
def readDeclaration (entries : Toml.Table) : Option Declaration := do
  let name ← readString (← Entries.get? "name" entries)
  let type ← readType (← Entries.get? "type" entries)
  let resolvable ← optional "resolvable" readBoolean entries
  return ⟨name, type, resolvable.getD false⟩

/-- The declarations in an array or in a series of tables. -/
def readDeclarations : Toml → Option (List Declaration)
  | .tables items => items.mapM readDeclaration
  | .array items => items.mapM fun item => (readTable item).bind readDeclaration
  | _ => none

/-- The configuration in a document. Other keys may be there as well. -/
def ofTable (entries : Toml.Table) : Option Configuration := do
  let _ ← optional "version" readVersion entries
  let output ← optional "output" readTable entries
  let color ← optional "color" readBoolean (output.getD [])
  let declarations ← optional "schema" readDeclarations entries
  return ⟨color, declarations.getD []⟩

/-- Checks the names of declarations against those before and among each other. -/
def checkNames : (seen : List (List Char)) → List Declaration → Except ConfigurationError Unit
  | _, [] => .ok ()
  | seen, declaration :: rest =>
    if declaration.path.isEmpty then .error .emptyName
    else if seen.contains declaration.path then
      .error (.duplicate (.ofList declaration.path))
    else checkNames (declaration.path :: seen) rest

/-- Checks that no declared name is blank or declared twice. -/
def validate (declarations : List Declaration) : Except ConfigurationError Unit :=
  checkNames [] declarations

def ofText (text : String) : Except ConfigurationError Configuration := do
  match (Toml.read? text).bind ofTable with
  | none => throw .malformed
  | some configuration =>
    validate configuration.declarations
    return configuration

def load (files : Files) (path : Path) : Except ConfigurationError Configuration :=
  if files.has path then
    match files.read path with
    | .ok text => ofText text
    | .error e => .error (.unreadable e)
  else .ok empty

/-- The schema that the configuration at a path declares, which must not be empty. -/
def schemaAt (files : Files) (path : Path) : Except ConfigurationError (Schema Json) := do
  let configuration ← load files path
  if configuration.declarations.isEmpty then throw (.noProperties path)
  else return .ofDeclarations configuration.declarations

/-- Whether the configuration at a path asks for colours. One that cannot be loaded
asks for nothing. -/
def wantsColor? (files : Files) (path : Path) : Option Bool :=
  match load files path with
  | .ok configuration => configuration.color
  | .error _ => none

/-- The lines of the configuration to start with. -/
def starterLines : List String :=
  [ "# cqlf - CQL filter CLI configuration",
    "",
    "# Config schema version (do not modify)",
    "version = 1",
    "",
    "# Output preferences",
    "[output]",
    "# color = true              # Enable colors (respects --no-color)",
    "",
    "# Record properties available to filters. Dotted names reach into nested",
    "# objects. Types: text, integer, decimal, boolean, instant, duration,",
    "# interval, geometry.",
    "[[schema]]",
    "name = \"name\"",
    "type = \"text\"",
    "",
    "[[schema]]",
    "name = \"size\"",
    "type = \"integer\"",
    "",
    "# [[schema]]",
    "# name = \"location\"",
    "# type = \"geometry\"",
    "",
    "# Properties stored elsewhere can be declared but not filtered in memory.",
    "# [[schema]]",
    "# name = \"owner\"",
    "# type = \"text\"",
    "# resolvable = true" ]

def starter : String :=
  .ofList (starterLines.flatMap fun line => line.toList ++ ['\n'])

def declarationJson (declaration : Declaration) : Json :=
  let resolvable := if declaration.resolvable then [("resolvable", .boolean true)] else []
  .object ([("name", .string declaration.name)] ++ resolvable ++
    [("type", .string declaration.type.name)])

/-- The configuration as a structured value, without what is not said. -/
def toJson (configuration : Configuration) : Json :=
  let color := match configuration.color with
    | some color => [("color", .boolean color)]
    | none => []
  .object [("output", .object color),
    ("schema", .array (configuration.declarations.map declarationJson)),
    ("version", .integer version)]

end Configuration

/-- What the environment says about the place of the configuration. -/
structure Environment where
  /-- The path of the configuration. -/
  configuration : Option String
  /-- The directory of the user's configurations. -/
  configurationHome : Option String
  /-- The user's directory. -/
  home : Option String
  deriving DecidableEq, Repr

namespace Environment

/-- The path of the configuration: the one asked for, or else the first that the
environment gives. -/
def configurationPath (environment : Environment) (asked : Option Path) :
    Except ConfigurationError Path :=
  let within (directory : Path) := (directory.join "cqlf").join "config.toml"
  match asked, environment.configuration, environment.configurationHome, environment.home with
  | some path, _, _, _ => .ok path
  | none, some path, _, _ => .ok ⟨path⟩
  | none, none, some directory, _ => .ok (within ⟨directory⟩)
  | none, none, none, some home => .ok (within ((Path.mk home).join ".config"))
  | none, none, none, none => .error .noLocation

end Environment

end RecordQuery
