import RecordQuery.Failure
import RecordQuery.Json.Writer

/-!
Actions of commands on files and output. An action that fails keeps what was printed
and changed before. Files change only by `makeParents` and `writeFile`.
-/

namespace RecordQuery

/-- Files and what has been printed. -/
structure Session where
  files : Files
  output : String

/-- A step that may fail with an error. -/
abbrev Action (α : Type) := ExceptT Failure (StateM Session) α

namespace Action

/-- A result that may be an error of some kind. -/
def lift {ε α : Type} (cause : ε → Failure) : Except ε α → Action α
  | .ok a => pure a
  | .error e => throw (cause e)

def files : Action Files := do
  return (← get).files

def print (text : String) : Action Unit :=
  modify fun session => { session with output := session.output ++ text }

/-- Makes the directories on the way to a path. -/
def makeParents (path : Path) : Action Unit := do
  let (result, files) := (← get).files.ensureParents path
  modify fun session => { session with files := files }
  lift (fun e => .configuration (.directoryFailed e)) result

def writeFile (path : Path) (content : Content) : Action Unit := do
  let files ← lift (fun e => .configuration (.unwritable e))
    ((← get).files.write path content)
  modify fun session => { session with files := files }

end Action

/-- How results are shown. -/
structure Display where
  json : Bool
  quiet : Bool
  colored : Bool
  deriving DecidableEq, Repr

namespace Display

/-- Prints a result, as a structured value or else for readers unless all is quiet. -/
def present (display : Display) (json : Json) (text : String) : Action Unit :=
  if display.json then Action.print (json.pretty ++ "\n")
  else if display.quiet then pure ()
  else Action.print text

end Display

end RecordQuery
