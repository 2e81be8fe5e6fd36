import RecordQuery.Error
import RecordQuery.Grammar
import RecordQuery.Pattern.Template
import RecordQuery.Text.Quoted

/-!
Literals of a query: a plain text, a function applied to an argument, or two
literals joined by an arithmetic sign. `Literal.classify` reads a token and
`Literal.render` writes a literal in query syntax, with quotes around a plain
text that would not read as the same literal without them.
-/

namespace RecordQuery

/-- An arithmetic operator between two literals. -/
inductive ArithmeticOperator where
  | add
  | sub
  | mul
  | div
  deriving DecidableEq, Repr

namespace ArithmeticOperator

def sign : ArithmeticOperator → Char
  | .add => '+'
  | .sub => '-'
  | .mul => '*'
  | .div => '/'

def ofSign? : Char → Option ArithmeticOperator
  | '+' => some .add
  | '-' => some .sub
  | '*' => some .mul
  | '/' => some .div
  | _ => none

theorem ofSign?_sign (op : ArithmeticOperator) : ofSign? op.sign = some op := by
  cases op <;> rfl

end ArithmeticOperator

/-- A classified literal. A plain text is kept without its quotes. -/
inductive Literal where
  | plain (value : String)
  | call (name : String) (argument : Option String)
  | arithmetic (left : Literal) (op : ArithmeticOperator) (right : Literal)
  deriving DecidableEq, Repr

namespace Literal

/-- What a plain text must look like to be written without quotes. -/
def bare : Pattern :=
  .anyOf [Grammar.interval, Grammar.instant, Grammar.number, Grammar.boolean, Grammar.duration,
    Grammar.polygon]

/-- A call as its name and its argument. -/
def callTemplate : Template :=
  [.keep Grammar.functionName, .skip (.text "("), .keep (.optional Grammar.callOperand),
    .skip (.text ")")]

def arithmeticTemplate : Template :=
  [.keep Grammar.operand, .keep Grammar.arithmeticSign, .keep Grammar.operand]

/-- Reads one operand: a quoted text, a call, or any other operand as it stands. -/
def classifyAtom (token : List Char) : Except QueryError Literal :=
  if Grammar.string.accepts token then
    .ok (.plain (.ofList (Text.unquote token)))
  else
    match callTemplate.matchAll? token with
    | some [name, argument] =>
      .ok (.call (.ofList name) (if argument.isEmpty then none else some (.ofList argument)))
    | _ =>
      if Grammar.operand.accepts token then .ok (.plain (.ofList token))
      else .error (.invalidLiteral (.ofList token))

/-- Reads an operand or, where none is there, a polygon. -/
def classifySimple (token : List Char) : Except QueryError Literal :=
  match classifyAtom token with
  | .ok literal => .ok literal
  | .error _ =>
    if Grammar.polygon.accepts token then .ok (.plain (.ofList token))
    else .error (.invalidLiteral (.ofList token))

/-- Reads a token. An interval comes first, since its slash is not a division. -/
def classifyChars (token : List Char) : Except QueryError Literal :=
  if Grammar.interval.accepts token then .ok (.plain (.ofList token))
  else
    match arithmeticTemplate.matchAll? token with
    | some [left, [sign], right] =>
      match ArithmeticOperator.ofSign? sign with
      | some op => do
        let left ← classifyAtom left
        let right ← classifyAtom right
        return .arithmetic left op right
      | none => .error (.invalidLiteral (.ofList token))
    | _ => classifySimple token

/-- Reads a token of a query as a literal. -/
def classify (token : String) : Except QueryError Literal :=
  classifyChars token.toList

def plain? : Literal → Option String
  | .plain value => some value
  | _ => none

def renderChars : Literal → List Char
  | .plain value => if bare.accepts value.toList then value.toList else Text.quote value.toList
  | .call name argument => name.toList ++ '(' :: ((argument.getD "").toList ++ [')'])
  | .arithmetic left op right => left.renderChars ++ op.sign :: right.renderChars

/-- The literal as a token of a query. -/
def render (literal : Literal) : String :=
  .ofList literal.renderChars

end Literal

end RecordQuery
