import RecordQuery.Execution

/-!
The program. It takes the files that a command line is about from the disk, executes
the command line on them, writes what has changed back and prints the results.
-/

namespace RecordQuery.Terminal

def trail : Location → List String → List Location
  | _, [] => []
  | location, name :: rest =>
    let next :=
      if name = "." then location
      else if name = ".." then location.dropLast
      else location ++ [name]
    next :: trail next rest

def pathOf (location : Location) : String :=
  (Path.ofParts true location).text

/-- What is at a location on the disk. -/
def nodeAt (location : Location) : IO (Option Node) := do
  let path := (← IO.currentDir) / pathOf location
  if ← path.isDir then return some .directory
  else if ← path.pathExists then return some (.file ⟨← IO.FS.readBinFile path⟩)
  else return none

/-- The files with what is at a location on the disk. -/
def addNode (files : Files) (location : Location) : IO Files := do
  match ← nodeAt location with
  | some node => return files.put location node
  | none => return files

/-- The files and directories on the way to some paths. -/
def snapshot (paths : List Path) : IO Files := do
  let directory ← IO.currentDir
  let current := (Path.mk directory.toString).segments
  let locations := paths.flatMap fun path =>
    trail (if path.isAbsolute then [] else current) path.segments
  locations.foldlM addNode ⟨[], current⟩

/-- Writes one node to the disk unless it was there before. -/
def store (before : Files) : Location × Node → IO Unit
  | (location, node) => do
    if before.node? location == some node then return
    match node with
    | .directory => IO.FS.createDirAll (pathOf location)
    | .file content => IO.FS.writeBinFile (pathOf location) content.bytes

def environment : IO Environment := do
  return ⟨← IO.getEnv "CQLF_CONFIG", ← IO.getEnv "XDG_CONFIG_HOME", ← IO.getEnv "HOME"⟩

def pathsOf (environment : Environment) (invocation : Invocation) : List Path :=
  let configuration := (environment.configurationPath invocation.settings.schema).toOption
  let input :=
    match invocation.command with
    | .filter _ input _ _ => input
    | _ => none
  configuration.toList ++ input.toList

/-- Whether an invocation takes its records from the standard input. -/
def readsStandardInput (invocation : Invocation) : Bool :=
  match invocation.command with
  | .filter _ input _ _ => input.all (·.same ⟨"-"⟩)
  | _ => false

/-- All bytes that are left of a stream. -/
partial def readAll (stream : IO.FS.Stream) (before : ByteArray) : IO ByteArray := do
  let bytes ← stream.read 65536
  if bytes.isEmpty then return before else readAll stream (before ++ bytes)

/-- What an invocation gives on the files of the disk. -/
def outcomeOf (invocation : Invocation) : IO (Files × Outcome) := do
  let environment ← environment
  let files ← snapshot (pathsOf environment invocation)
  let input ← if readsStandardInput invocation then readAll (← IO.getStdin) .empty else pure .empty
  return (files, invocation.execute environment ⟨input⟩ files)

def report (part : String) (e : IO.Error) : IO Unit :=
  IO.eprintln ("Error: " ++ part ++ ": " ++ toString e)

/-- Writes the changed files, prints what there is to print and gives the status. -/
def finish (invocation : Invocation) (files : Files) (outcome : Outcome) : IO UInt32 := do
  outcome.files.nodes.forM (store files)
  IO.print outcome.output
  IO.eprint (invocation.errorText outcome)
  return UInt32.ofNat outcome.exitCode

/-- Executes a command line. One that is not proper has status 2. A disk that cannot be
read has status 4, and one that cannot be written 5, since only a configuration is. -/
def run (arguments : List String) : IO UInt32 := do
  match Invocation.ofArguments? arguments with
  | none =>
    IO.eprint Command.overviewText
    return 2
  | some invocation =>
    match ← (outcomeOf invocation).toBaseIO with
    | .error e =>
      report "I/O error" e
      return 4
    | .ok (files, outcome) =>
      try finish invocation files outcome
      catch e =>
        report "configuration error" e
        return 5

end RecordQuery.Terminal

def main (arguments : List String) : IO UInt32 :=
  RecordQuery.Terminal.run arguments
