import RecordQuery.Files.Path

/-!
Command lines. A command line has levels: options and the name of a command, then
options and arguments of that command, and for the configuration one level more.
General options may stand on every level; the deepest path given counts.

At one level an option is given once at most, and not both more and less output may
be asked for. Behind a double dash everything is an argument.
-/

namespace RecordQuery

/-- The options of all commands. -/
inductive CommandOption where
  | verbose
  | quiet
  | json
  | noColor
  | schema
  | input
  | grouped
  | fields
  | force
  deriving DecidableEq, Repr

namespace CommandOption

def all : List CommandOption :=
  [.verbose, .quiet, .json, .noColor, .schema, .input, .grouped, .fields, .force]

def name : CommandOption → String
  | .verbose => "verbose"
  | .quiet => "quiet"
  | .json => "json"
  | .noColor => "no-color"
  | .schema => "schema"
  | .input => "input"
  | .grouped => "grouped"
  | .fields => "fields"
  | .force => "force"

def letter? : CommandOption → Option Char
  | .verbose => some 'v'
  | .quiet => some 'q'
  | .input => some 'i'
  | .grouped => some 'g'
  | _ => none

def takesValue : CommandOption → Bool
  | .schema | .input | .fields => true
  | _ => false

/-- Whether the value may begin with a dash when it is an argument of its own. -/
def takesDashes : CommandOption → Bool
  | .fields => true
  | _ => false

/-- Whether a value is allowed. Paths must not be empty. -/
def accepts (option : CommandOption) (value : String) : Bool :=
  option == .fields || !value.isEmpty

def general : List CommandOption :=
  [.verbose, .quiet, .json, .noColor, .schema]

end CommandOption

/-- An option that was given, with its value if it has one. -/
abbrev GivenOption := CommandOption × Option String

/-- What stands on one level: options, arguments, and behind the name of a command
what belongs to it. -/
structure Level where
  options : List GivenOption
  arguments : List String
  command : Option (String × List String)
  deriving DecidableEq, Repr

namespace Level

def empty : Level :=
  ⟨[], [], none⟩

/-- What a level may hold: options, names of commands, and how many arguments. -/
structure Shape where
  options : List CommandOption
  commands : List String
  arguments : Nat

/-- What an argument with a dash says: some options, the last of which may still lack
its value. -/
structure Dashed where
  given : List GivenOption
  pending : Option CommandOption

def readLong? (shape : Shape) (s : List Char) : Option Dashed := do
  let (name, value) :=
    match Text.splitFirst? '=' s with
    | some (name, value) => (name, some (String.ofList value))
    | none => (s, none)
  let option ← shape.options.find? (·.name.toList == name)
  match option.takesValue, value with
  | true, some value => return ⟨[(option, some value)], none⟩
  | true, none => return ⟨[], some option⟩
  | false, none => return ⟨[(option, none)], none⟩
  | false, some _ => none

/-- Letters behind one dash. The value of an option may follow its letter at once or
behind an equals sign. -/
def readLetters? (shape : Shape) : List Char → Option Dashed
  | [] => some ⟨[], none⟩
  | letter :: rest => do
    let option ← shape.options.find? (·.letter? == some letter)
    if option.takesValue then
      match rest with
      | [] => return ⟨[], some option⟩
      | '=' :: value => return ⟨[(option, some (.ofList value))], none⟩
      | value => return ⟨[(option, some (.ofList value))], none⟩
    else
      let ⟨given, pending⟩ ← readLetters? shape rest
      return ⟨(option, none) :: given, pending⟩

/-- The level with more options before those it has. -/
def withOptions (given : List GivenOption) (level : Level) : Level :=
  { level with options := given ++ level.options }

/-- Splits arguments into what stands on this level and what belongs to a command.
`pending` is an option that waits for its value. -/
def scan? (shape : Shape) : (pending : Option CommandOption) → List String → Option Level
  | none, [] => some empty
  | some _, [] => none
  | pending, argument :: rest =>
    let value (option : CommandOption) : Option Level :=
      (scan? shape none rest).map (withOptions [(option, some argument)])
    match pending, argument.toList with
    | some option, '-' :: _ :: _ => if option.takesDashes then value option else none
    | some option, _ => value option
    | none, ['-', '-'] => some ⟨[], rest, none⟩
    | none, '-' :: '-' :: name => do
      let ⟨given, pending⟩ ← readLong? shape name
      return withOptions given (← scan? shape pending rest)
    | none, '-' :: letter :: letters => do
      let ⟨given, pending⟩ ← readLetters? shape (letter :: letters)
      return withOptions given (← scan? shape pending rest)
    | none, _ =>
      if shape.commands.contains argument then some ⟨[], [], some (argument, rest)⟩
      else (scan? shape none rest).map fun level =>
        { level with arguments := argument :: level.arguments }

def has (level : Level) (option : CommandOption) : Bool :=
  level.options.any (·.1 == option)

def value? (level : Level) (option : CommandOption) : Option String :=
  (level.options.find? (·.1 == option)).bind (·.2)

def valuesAllowed (level : Level) : Bool :=
  level.options.all fun (option, value) => value.all option.accepts

/-- Whether what was found may stand on one level together. -/
def isValid (shape : Shape) (level : Level) : Bool :=
  (level.options.map (·.1)).Nodup && !(level.has .verbose && level.has .quiet) &&
    level.valuesAllowed && level.arguments.length == shape.arguments

/-- The level at the start of some arguments. -/
def read? (shape : Shape) (arguments : List String) : Option Level :=
  (scan? shape none arguments).filter (isValid shape)

end Level

/-- What the general options say. -/
structure Settings where
  verbose : Bool
  quiet : Bool
  json : Bool
  noColor : Bool
  /-- The path of the configuration. -/
  schema : Option Path
  deriving DecidableEq, Repr

namespace Settings

def ofLevel (level : Level) : Settings :=
  ⟨level.has .verbose, level.has .quiet, level.has .json, level.has .noColor,
    (level.value? .schema).map Path.mk⟩

/-- Both settings together; the path of the second, deeper one counts. -/
def merge (outer inner : Settings) : Settings :=
  ⟨outer.verbose || inner.verbose, outer.quiet || inner.quiet, outer.json || inner.json,
    outer.noColor || inner.noColor, inner.schema.or outer.schema⟩

end Settings

/-- What can be done with the configuration. -/
inductive ConfigurationAction where
  | display
  | locate
  | create (force : Bool)
  deriving DecidableEq, Repr

/-- What can be done. -/
inductive Command where
  | overview
  | parse (query : String)
  | filter (query : String) (input : Option Path) (grouped : Bool) (fields : Option String)
  | constraints (query : String)
  | configuration (action : ConfigurationAction)
  deriving DecidableEq, Repr

/-- A command with the general options. -/
structure Invocation where
  settings : Settings
  command : Command
  deriving DecidableEq, Repr

namespace Invocation

/-- The shape of a level with general options and more. -/
def shape (options : List CommandOption) (commands : List String) (arguments : Nat) :
    Level.Shape :=
  ⟨CommandOption.general ++ options, commands, arguments⟩

/-- The invocation on a level that names no further command. -/
def final (outer : Settings) (level : Level) (command : Command) : Invocation :=
  ⟨outer.merge (.ofLevel level), command⟩

/-- A command with a query and further options. -/
def readQuery? (outer : Settings) (options : List CommandOption)
    (command : Level → String → Command) (arguments : List String) : Option Invocation := do
  let level ← Level.read? (shape options [] 1) arguments
  let query ← level.arguments.head?
  return final outer level (command level query)

/-- An action on the configuration, from behind its name. -/
def readAction? (outer : Settings) (options : List CommandOption)
    (action : Level → ConfigurationAction) (arguments : List String) : Option Invocation := do
  let level ← Level.read? (shape options [] 0) arguments
  return final outer level (.configuration (action level))

def readConfiguration? (outer : Settings) (arguments : List String) : Option Invocation := do
  let level ← Level.read? (shape [] ["show", "path", "init"] 0) arguments
  let settings := outer.merge (.ofLevel level)
  match level.command with
  | none => return ⟨settings, .configuration .display⟩
  | some ("show", rest) => readAction? settings [] (fun _ => .display) rest
  | some ("path", rest) => readAction? settings [] (fun _ => .locate) rest
  | some (_, rest) => readAction? settings [.force] (fun level => .create (level.has .force)) rest

def filterCommand (level : Level) (query : String) : Command :=
  .filter query ((level.value? .input).map Path.mk) (level.has .grouped) (level.value? .fields)

/-- The invocation that a command line asks for, if it is a proper one. -/
def ofArguments? (arguments : List String) : Option Invocation := do
  let names := ["parse", "p", "filter", "f", "constraints", "c", "config"]
  let level ← Level.read? (shape [] names 0) arguments
  let settings := Settings.ofLevel level
  match level.command with
  | none => return ⟨settings, .overview⟩
  | some (name, rest) =>
    if name = "parse" ∨ name = "p" then readQuery? settings [] (fun _ => .parse) rest
    else if name = "filter" ∨ name = "f" then
      readQuery? settings [.input, .grouped, .fields] filterCommand rest
    else if name = "constraints" ∨ name = "c" then
      readQuery? settings [] (fun _ => .constraints) rest
    else readConfiguration? settings rest

end Invocation

end RecordQuery
