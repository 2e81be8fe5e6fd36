import RecordQuery.Filter
import RecordQuery.Polygon
import RecordQuery.Text.Blank

/-!
Queries: clauses joined by ` AND `.

A query is read with one pass for each operator, in the order of
`Operator.all`. A pass finds the clauses of its operator from left to right
and takes them out of the text, each with the separator behind it; one
separator is put behind the query beforehand. What is left in the end must be
blank. So filters come out by operator, and in textual order for one operator.
-/

namespace RecordQuery

/-- The filters of a query, all of which must hold. -/
abbrev Query := List Filter

namespace Query

def separator : List Char :=
  " AND ".toList

/-- The clause of an operator: the property and the texts of its operands. -/
def clause (operator : Operator) : Template :=
  let property := Piece.keep Grammar.property
  let literal := Piece.keep Grammar.literal
  let keyword := Piece.skip (.text (" " ++ operator.keyword ++ " "))
  let finish := Piece.skip (.word separator)
  match operator with
  | .equal | .notEqual | .less | .greater | .atMost | .atLeast =>
    [property, .skip (.text operator.keyword), literal, finish]
  | .between | .notBetween => [property, keyword, literal, finish, literal, finish]
  | .like | .notLike | .ilike | .notIlike => [property, keyword, .keep Grammar.string, finish]
  | .inList | .notInList =>
    [property, keyword, .skip (.text "("),
      .keep (.seq Grammar.literal (.many (.seq (.text ",") Grammar.literal))),
      .skip (.text ")"), finish]
  | .isNull | .isNotNull => [property, .skip (.text (" " ++ operator.keyword)), finish]
  | .intersects =>
    [.skip (.text "INTERSECTS("), property, .skip (.text ","), .keep Grammar.polygon,
      .skip (.text ")"), finish]

/-- One element of a list of literals and the comma behind it. -/
def element : Template :=
  [.keep Grammar.literal, .skip (.text ",")]

/-- The literals of a list. One comma is put behind the list beforehand. -/
def readList (values : List Char) : Except QueryError (List Literal) :=
  (element.occurrences (values ++ [','])).flatten.mapM Literal.classifyChars

/-- The polygon of a spatial clause, kept as it is written. -/
def readPolygon (polygon : List Char) : Except QueryError Literal := do
  Polygon.check polygon
  return .plain (.ofList polygon)

/-- The literals of a clause, from the texts of its operands. -/
def readOperands (operator : Operator) (texts : List (List Char)) :
    Except QueryError (List Literal) :=
  match operator with
  | .inList | .notInList => do return (← texts.mapM readList).flatten
  | .intersects => texts.mapM readPolygon
  | .like | .notLike | .ilike | .notIlike =>
    .ok (texts.map fun t => .plain (.ofList (Text.unquote t)))
  | _ => texts.mapM Literal.classifyChars

/-- The filter of a clause, from its property and the texts of its operands. -/
def readClause (operator : Operator) : List (List Char) → Except QueryError Filter
  | property :: texts => do
    let operands ← readOperands operator texts
    Filter.make operator ⟨.ofList property⟩ operands
  | [] => .error (.illegalFilter "")

/-- The filters of the passes for these operators, and what they leave of the text. -/
def readPasses : List Operator → List Char → Except QueryError (List Filter × List Char)
  | [], s => .ok ([], s)
  | operator :: rest, s => do
    let (found, outside) := (clause operator).scan s
    let filters ← found.mapM (readClause operator)
    let (later, residue) ← readPasses rest outside
    return (filters ++ later, residue)

/-- What is reported of a text that is not used up: without the separator at its
end if anything else is there, and without blanks around it. -/
def residueText (residue : List Char) : List Char :=
  match (Text.beforeEnd? separator residue).map Text.trim with
  | some (c :: rest) => c :: rest
  | _ => Text.trim residue

/-- The filters of a query text. A blank text has none. -/
def parseChars (query : List Char) : Except QueryError Query :=
  if (Text.trim query).isEmpty then .ok []
  else do
    let (filters, residue) ← readPasses Operator.all (query ++ separator)
    if (Text.trim residue).isEmpty then return filters
    else throw (.illegalFilter (.ofList (residueText residue)))

def parse (query : String) : Except QueryError Query :=
  parseChars query.toList

/-- The clauses of the query joined by separators. -/
def renderChars (query : Query) : List Char :=
  Text.join separator (query.map Filter.renderChars)

def render (query : Query) : String :=
  .ofList query.renderChars

def spatial (query : Query) : List Filter :=
  query.filter (·.operator.isSpatial)

end Query

end RecordQuery
