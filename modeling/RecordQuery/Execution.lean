import RecordQuery.Arguments
import RecordQuery.Batch
import RecordQuery.Configuration
import RecordQuery.Listing
import RecordQuery.Session

/-!
Execution of command lines. A command first finds and reads all that it needs and
prints its result at the end, so one that fails prints nothing. Only the creation of
a configuration writes a file, the one at the path of the configuration.
-/

namespace RecordQuery

namespace Configuration

def declarationLine (declaration : Declaration) : String :=
  "  " ++ Listing.padded 24 declaration.name ++ " " ++ declaration.type.name ++
    (if declaration.resolvable then " (resolvable)" else "") ++ "\n"

def contentText (configuration : Configuration) : String :=
  let color :=
    match configuration.color with
    | some color => "  color: " ++ (Scalar.boolean color).render ++ "\n"
    | none => ""
  let properties :=
    if configuration.declarations.isEmpty then "  (no properties)\n"
    else .join (configuration.declarations.map declarationLine)
  "[output]\n" ++ color ++ "\n[schema]\n" ++ properties

/-- A configuration and its place for readers. `present` tells whether there is
something at the path. -/
def describe (colored : Bool) (path : Path) (present : Bool) (configuration : Configuration) :
    String :=
  let title := Style.bold.paint colored (Style.green.paint colored "Configuration")
  let content :=
    if present then configuration.contentText
    else "(No config file exists. Run 'cqlf config init' to create one.)\n"
  title ++ "\n\nFile: " ++ path.text ++ "\nExists: " ++
    (Scalar.boolean present).render ++ "\n\n" ++ content

def display (display : Display) (path : Path) : Action Unit := do
  let files ← Action.files
  let configuration ← Action.lift .configuration (load files path)
  let present := files.has path
  display.present
    (.object [("config", configuration.toJson), ("exists", .boolean present),
      ("path", .string path.text)])
    (configuration.describe display.colored path present)

/-- Shows the path of the configuration, also when all is quiet. -/
def locate (display : Display) (path : Path) : Action Unit := do
  let files ← Action.files
  Display.present { display with quiet := false }
    (.object [("exists", .boolean (files.has path)), ("path", .string path.text)])
    (path.text ++ "\n")

/-- Writes the starter configuration at a path. What is there already is kept unless
`force` is set. -/
def create (display : Display) (path : Path) (force : Bool) : Action Unit := do
  let files ← Action.files
  if files.has path && !force then throw (.configuration (.alreadyThere path))
  else
    Action.makeParents path
    Action.writeFile path starter
    display.present
      (.object [("path", .string path.text), ("status", .string "success")])
      ("Created config at: " ++ path.text ++ "\n")

end Configuration

namespace Command

/-- The input of a command: a file, or the standard input if no file or a dash is
given. -/
def inputText (files : Files) (standardInput : Content) :
    Option Path → Except FileError String
  | none => standardInput.read
  | some path => if path.same ⟨"-"⟩ then standardInput.read else files.read path

def runParse (display : Display) (text : String) : Action Unit := do
  let query ← Action.lift .query (Query.parse text)
  display.present (query.report text) (query.table display.colored)

/-- Shows the constraints of a query on the schema of the configuration. -/
def runConstraints (display : Display) (path : Path) (text : String) : Action Unit := do
  let schema ← Action.lift .configuration (Configuration.schemaAt (← Action.files) path)
  let query ← Action.lift .query (Query.parse text)
  let constraints ← Action.lift .query (Constraints.group schema query)
  display.present constraints.toJson (constraints.table display.colored)

/-- Shows the records of the input that a query keeps. -/
def runFilter (display : Display) (path : Path) (standardInput : Content) (text : String)
    (input : Option Path) (grouped : Bool) (fields : Option String) : Action Unit := do
  let files ← Action.files
  let schema ← Action.lift .configuration (Configuration.schemaAt files path)
  let content ← Action.lift .file (inputText files standardInput input)
  let batch ← Action.lift id (Batch.read grouped content)
  let projection := Projection.ofText (fields.getD "")
  let kept ← Action.lift .query (batch.select schema text projection)
  display.present kept.toJson (kept.render display.colored)

/-- What is printed where no command is named. -/
def overviewText : String :=
  "cqlf - CQL filter CLI\nUse --help for usage information\n"

/-- Carries out a command with the configuration at a path. -/
def run (display : Display) (path : Path) (standardInput : Content) : Command → Action Unit
  | .overview => if display.quiet then pure () else Action.print overviewText
  | .parse text => runParse display text
  | .filter text input grouped fields =>
    runFilter display path standardInput text input grouped fields
  | .constraints text => runConstraints display path text
  | .configuration .display => Configuration.display display path
  | .configuration .locate => Configuration.locate display path
  | .configuration (.create force) => Configuration.create display path force

end Command

/-- What the execution of a command line leaves behind. -/
structure Outcome where
  /-- The error, if it failed. -/
  error : Option Failure
  output : String
  files : Files

namespace Outcome

def exitCode (outcome : Outcome) : Nat :=
  match outcome.error with
  | some error => error.exitCode
  | none => 0

end Outcome

def Failure.toJson (error : Failure) : Json :=
  .object [("error",
    .object [("code", .string error.code), ("message", .string error.message)])]

namespace Invocation

/-- How the results of an invocation are shown. Colours are used unless the options or
the configuration at the path forbid them. -/
def display (invocation : Invocation) (files : Files) (path : Path) : Display :=
  ⟨invocation.settings.json, invocation.settings.quiet,
    !invocation.settings.noColor && (Configuration.wantsColor? files path).getD true⟩

def act (invocation : Invocation) (environment : Environment) (standardInput : Content) :
    Action Unit := do
  let path ← Action.lift .configuration
    (environment.configurationPath invocation.settings.schema)
  let display := invocation.display (← Action.files) path
  invocation.command.run display path standardInput

def execute (invocation : Invocation) (environment : Environment) (standardInput : Content)
    (files : Files) : Outcome :=
  match (invocation.act environment standardInput).run ⟨files, ""⟩ with
  | (.ok (), session) => ⟨none, session.output, session.files⟩
  | (.error e, session) => ⟨some e, session.output, session.files⟩

def errorText (invocation : Invocation) (outcome : Outcome) : String :=
  match outcome.error with
  | none => ""
  | some error =>
    if invocation.settings.json then error.toJson.pretty ++ "\n"
    else "Error: " ++ error.message ++ "\n"

end Invocation

end RecordQuery
