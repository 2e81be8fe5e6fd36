import RecordQuery.Failure
import RecordQuery.Evaluator
import RecordQuery.Json.Reader
import RecordQuery.Json.Writer
import RecordQuery.Projection
import RecordQuery.Style

/-!
Batches of records as they are read and written: either a row of records, or groups
of records by key. A query keeps the records that pass or, of groups, those with a
record that passes, as a whole.
-/

namespace RecordQuery

/-- Records given at once. -/
inductive Batch where
  | flat (records : List Json)
  | grouped (groups : List (String × List Json))

namespace Batch

/-- The records of each group, all of which must be arrays. -/
def groupsOf : List (String × Json) → Except InputError (List (String × List Json))
  | [] => .ok []
  | (key, .array records) :: rest => do return (key, records) :: (← groupsOf rest)
  | (key, _) :: _ => .error (.groupNotArray key)

/-- The batch in a structured value of the expected shape. -/
def ofJson (grouped : Bool) : Json → Except InputError Batch
  | .object fields =>
    if grouped then (groupsOf fields).map .grouped else .error .expectedRecords
  | .array records => if grouped then .error .expectedGroups else .ok (.flat records)
  | _ => .error (if grouped then .expectedGroups else .expectedRecords)

def read (grouped : Bool) (text : String) : Except Failure Batch :=
  match Json.read? text with
  | none => .error .malformedInput
  | some json => (ofJson grouped json).mapError .input

def records : Batch → List Json
  | .flat records => records
  | .grouped groups => groups.flatMap (·.2)

def filter (evaluator : Evaluator Json) : Batch → Batch
  | .flat records => .flat (evaluator.apply records)
  | .grouped groups => .grouped (evaluator.applyGroups groups)

/-- The batch with each record cut down to a projection. -/
def project (projection : Projection) : Batch → Batch
  | .flat records => .flat (records.map projection.apply)
  | .grouped groups =>
    .grouped (groups.map fun (key, records) => (key, records.map projection.apply))

/-- What a query keeps of the batch, cut down to a projection. -/
def select (schema : Schema Json) (query : String) (projection : Projection) (batch : Batch) :
    Except QueryError Batch := do
  let query ← Query.parse query
  let evaluator ← Evaluator.compile schema query
  return (batch.filter evaluator).project projection

def toJson : Batch → Json
  | .flat records => .array records
  | .grouped groups => .object (groups.map fun (key, records) => (key, .array records))

/-- How many records there are, as the last line of a listing. -/
def summary (colored : Bool) (count : Nat) : String :=
  let noun := if count = 1 then "record" else "records"
  Style.dim.paint colored (.ofList (Text.natDigits count) ++ " matching " ++ noun) ++ "\n"

/-- A group under its key, each record on a line of its own. -/
def groupText (colored : Bool) : String × List Json → String
  | (key, records) =>
    .join ((Style.bold.paint colored key ++ "\n") ::
      records.map fun record => "  " ++ record.compact ++ "\n")

/-- The batch for readers, with the number of records at the end. -/
def render (colored : Bool) (batch : Batch) : String :=
  let body :=
    match batch with
    | .flat records => records.map fun record => record.compact ++ "\n"
    | .grouped groups => groups.map (groupText colored)
  .join body ++ summary colored batch.records.length

end Batch

end RecordQuery
