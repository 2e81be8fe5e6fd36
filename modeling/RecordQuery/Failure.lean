import RecordQuery.Error
import RecordQuery.Files.Basic

/-!
Why a command fails: the query, the records that it is applied to, the configuration
or the files. Every failure has a code, a message and an exit status. The status of
a failed query tells its kind, 1 to 3; input that cannot be read or has the wrong
shape has 4, and a bad configuration 5.
-/

namespace RecordQuery

/-- What is wrong with the shape of the input. -/
inductive InputError where
  | expectedGroups
  | expectedRecords
  | groupNotArray (key : String)
  deriving DecidableEq, Repr

namespace InputError

def message : InputError → String
  | .expectedGroups => "expected an object of arrays with --grouped"
  | .expectedRecords => "expected an array of records (use --grouped for an object)"
  | .groupNotArray key => "group '" ++ key ++ "' is not an array"

end InputError

/-- What is wrong with the configuration or with making one. -/
inductive ConfigurationError where
  | noLocation
  | unreadable (cause : FileError)
  | malformed
  | emptyName
  | duplicate (name : String)
  | noProperties (path : Path)
  | alreadyThere (path : Path)
  | directoryFailed (cause : FileError)
  | unwritable (cause : FileError)
  deriving DecidableEq, Repr

namespace ConfigurationError

def message : ConfigurationError → String
  | .noLocation => "Could not determine config directory"
  | .unreadable cause => "Failed to read config: " ++ cause.message
  | .malformed => "Failed to parse config"
  | .emptyName => "Schema property with empty name"
  | .duplicate name => "Schema property '" ++ name ++ "' is declared twice"
  | .noProperties path =>
    "No schema properties in " ++ path.text ++
      " (run 'cqlf config init' to create a starter config)"
  | .alreadyThere path =>
    "Config already exists at " ++ path.text ++ " (use --force to overwrite)"
  | .directoryFailed cause => "Failed to create config directory: " ++ cause.message
  | .unwritable cause => "Failed to write config: " ++ cause.message

end ConfigurationError

/-- The cause of a failure of a command. -/
inductive Failure where
  | query (cause : QueryError)
  | input (cause : InputError)
  | configuration (cause : ConfigurationError)
  | file (cause : FileError)
  /-- Input that is no structured text. -/
  | malformedInput
  deriving DecidableEq, Repr

namespace Failure

def code : Failure → String
  | .query cause => cause.code
  | .input _ => "INPUT_ERROR"
  | .configuration _ => "CONFIG_ERROR"
  | .file _ => "IO_ERROR"
  | .malformedInput => "JSON_ERROR"

def message : Failure → String
  | .query cause => "filter error: " ++ cause.message
  | .input cause => "invalid input: " ++ cause.message
  | .configuration cause => "configuration error: " ++ cause.message
  | .file cause => "I/O error: " ++ cause.message
  | .malformedInput => "serialization error"

def exitCode : Failure → Nat
  | .query cause =>
    match cause.kind with
    | .grammar => 1
    | .resolution => 2
    | .evaluation => 3
  | .input _ | .file _ | .malformedInput => 4
  | .configuration _ => 5

end Failure

end RecordQuery
