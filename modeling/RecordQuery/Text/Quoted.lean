/-!
Single-quoted text. Inside the quotes a quote is written twice. `quote` writes
a text and `unquote` reads a written one; a text that does not stand between
quotes is its own reading.
-/

namespace RecordQuery.Text

def doubleQuotes : List Char → List Char
  | [] => []
  | c :: rest => if c = '\'' then '\'' :: '\'' :: doubleQuotes rest else c :: doubleQuotes rest

/-- Every pair of neighbouring quotes, taken from the left, read as one. -/
def halveQuotes : List Char → List Char
  | '\'' :: '\'' :: rest => '\'' :: halveQuotes rest
  | c :: rest => c :: halveQuotes rest
  | [] => []

/-- The text as it is written between quotes. -/
def quote (s : List Char) : List Char :=
  '\'' :: (doubleQuotes s ++ ['\''])

/-- The text between an opening and a closing quote, if the token has both. -/
def insideQuotes? (token : List Char) : Option (List Char) :=
  match token with
  | '\'' :: rest => if rest.getLast? = some '\'' then some rest.dropLast else none
  | _ => none

/-- What a token stands for: without its quotes if it has them, else itself. -/
def unquote (token : List Char) : List Char :=
  match insideQuotes? token with
  | some inner => halveQuotes inner
  | none => token

/-- How far it is to the end of a quoted text, counted from behind its opening
quote. A pair of quotes belongs to the text, a single one ends it. -/
def closingLength? : List Char → Option Nat
  | '\'' :: '\'' :: rest => (closingLength? rest).map (· + 2)
  | '\'' :: _ => some 1
  | _ :: rest => (closingLength? rest).map (· + 1)
  | [] => none

/-- The length of the quoted text that a text begins with. -/
def quotedLength? : List Char → Option Nat
  | '\'' :: rest => (closingLength? rest).map (· + 1)
  | _ => none

theorem halveQuotes_doubleQuotes (s : List Char) : halveQuotes (doubleQuotes s) = s := by
  induction s with
  | nil => rfl
  | cons c rest ih =>
    by_cases h : c = '\''
    · simp [doubleQuotes, h, halveQuotes, ih]
    · simp [doubleQuotes, h, halveQuotes, ih]

/-- Reading what was written gives the text back. -/
theorem unquote_quote (s : List Char) : unquote (quote s) = s := by
  simp [unquote, quote, insideQuotes?, halveQuotes_doubleQuotes]

end RecordQuery.Text
