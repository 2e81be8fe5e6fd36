import RecordQuery.Pattern.Basic
import RecordQuery.Text.Blank
import RecordQuery.Text.Numeral
import RecordQuery.Text.Quoted

/-!
The token classes of the query language, from which clauses and literals are
both built. All character classes are ASCII, but for the blanks that may
precede the parenthesis of a polygon. Where one text can be read in several
ways, the order of the alternatives decides.
-/

namespace RecordQuery.Grammar

open Pattern

def isLower (c : Char) : Bool :=
  'a' ≤ c && c ≤ 'z'

def isLetter (c : Char) : Bool :=
  isLower c || ('A' ≤ c && c ≤ 'Z')

/-- A character that may follow the first one of a property path. -/
def isPathChar (c : Char) : Bool :=
  isLetter c || Text.isDigit c || c == '_' || c == '.'

def isNameChar (c : Char) : Bool :=
  isLetter c || c == '_'

def isInline (c : Char) : Bool :=
  c != '\n'

/-- A property path, which begins with a lower-case letter. -/
def path : Pattern :=
  .seq (.one isLower) (.run isPathChar)

def functionName : Pattern :=
  someOf isNameChar

/-- An instant in universal time with whole seconds. -/
def instant : Pattern :=
  all [exactly Text.isDigit 4, text "-", exactly Text.isDigit 2, text "-", exactly Text.isDigit 2, text "T",
    exactly Text.isDigit 2, text ":", exactly Text.isDigit 2, text ":", exactly Text.isDigit 2, text "Z"]

/-- A count followed by the letter of its unit, or nothing. -/
def component (unit : String) : Pattern :=
  .optional (.seq (someOf Text.isDigit) (text unit))

/-- A duration; every part of it may be missing. -/
def duration : Pattern :=
  all [text "P", component "Y", component "M", component "W", component "D",
    .optional (all [text "T", component "H", component "M", component "S"])]

def number : Pattern :=
  all [.optional (text "-"), someOf Text.isDigit,
    .optional (.seq (text ".") (someOf Text.isDigit))]

/-- Text between single quotes, in which a quote is written twice. -/
def string : Pattern :=
  .measured Text.quotedLength?

def boolean : Pattern :=
  .either (text "true") (text "false")

def emptyCall : Pattern :=
  .seq functionName (text "()")

/-- A polygon, ending at the first closing parenthesis that lets the rest match. -/
def polygon : Pattern :=
  all [text "POLYGON", .run Text.isBlank, text "(", .shortRun isInline, text ")"]

def arithmeticSign : Pattern :=
  .one fun c => c == '+' || c == '-' || c == '*' || c == '/'

/-- Two instants, or an instant and a duration in either order. -/
def interval : Pattern :=
  anyOf [all [instant, text "/", instant], all [instant, text "/", duration],
    all [duration, text "/", instant]]

def pathCall : Pattern :=
  all [functionName, text "(", path, text ")"]

/-- What a function may be applied to where a literal stands. -/
def callOperand : Pattern :=
  anyOf [interval, instant, number, path]

/-- A function applied to an argument where a literal stands. -/
def functionCall : Pattern :=
  all [functionName, text "(", callOperand, text ")"]

def operand : Pattern :=
  anyOf [interval, instant, functionCall, emptyCall, number, boolean, string, duration]

def property : Pattern :=
  .either path pathCall

/-- A literal operand, or two joined by an arithmetic sign. -/
def literal : Pattern :=
  .seq operand (.optional (.seq arithmeticSign operand))

end RecordQuery.Grammar
