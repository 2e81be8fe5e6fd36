import RecordQuery.Json.Reader
import RecordQuery.Toml.Numeral

/-!
Reading configuration text: comments, headers of tables, and keys with texts,
numbers, truth values, arrays and tables in braces. Dates are not part of it.

Functions on the rest of the text return what they read and what follows it. Their
bounds are at least the length of what is left.
-/

namespace RecordQuery.Toml

def isBlank (c : Char) : Bool :=
  c == ' ' || c == '\t'

def skipBlanks (s : List Char) : List Char :=
  s.dropWhile isBlank

def afterNewline? : List Char → Option (List Char)
  | '\n' :: rest => some rest
  | '\r' :: '\n' :: rest => some rest
  | _ => none

/-- A character that may stand as it is in comments and quotes. -/
def isPrintable (c : Char) : Bool :=
  c == '\t' || (0x20 ≤ c.toNat && c.toNat != 0x7F)

/-- What follows a comment. A line ends behind it. -/
def afterComment (s : List Char) : List Char :=
  match s with
  | '#' :: rest => rest.dropWhile isPrintable
  | s => s

/-- What follows blanks, comments and ends of lines. -/
def skipLines : Nat → List Char → List Char
  | 0, s => s
  | bound + 1, s =>
    let rest := afterComment (skipBlanks s)
    match afterNewline? rest with
    | some rest => skipLines bound rest
    | none => rest

def readHex? : (count : Nat) → (value : Nat) → List Char → Option (Nat × List Char)
  | 0, value, s => some (value, s)
  | _ + 1, _, [] => none
  | count + 1, value, c :: rest => do readHex? count (value * 16 + (← Json.hexValue? c)) rest

/-- The character of a numeric escape, from behind its letter. -/
def readCodePoint? (count : Nat) (s : List Char) : Option (Char × List Char) := do
  let (code, rest) ← readHex? count 0 s
  if code.isValidChar then return (Char.ofNat code, rest) else none

/-- The character of an escape, from behind its backslash. -/
def readEscape? : List Char → Option (Char × List Char)
  | 'b' :: rest => some ('\x08', rest)
  | 't' :: rest => some ('\t', rest)
  | 'n' :: rest => some ('\n', rest)
  | 'f' :: rest => some ('\x0c', rest)
  | 'r' :: rest => some ('\r', rest)
  | '"' :: rest => some ('"', rest)
  | '\\' :: rest => some ('\\', rest)
  | 'u' :: rest => readCodePoint? 4 rest
  | 'U' :: rest => readCodePoint? 8 rest
  | _ => none

/-- The characters up to a closing double quote on the same line. -/
def readQuoted? : Nat → List Char → Option (List Char × List Char)
  | 0, _ => none
  | bound + 1, s =>
    match s with
    | [] => none
    | '"' :: rest => some ([], rest)
    | '\\' :: rest => do
      let (c, rest) ← readEscape? rest
      let (chars, rest) ← readQuoted? bound rest
      return (c :: chars, rest)
    | c :: rest =>
      if isPrintable c then do
        let (chars, rest) ← readQuoted? bound rest
        return (c :: chars, rest)
      else none

/-- The characters up to a closing single quote on the same line, as they are. -/
def readLiteral? (s : List Char) : Option (List Char × List Char) :=
  let chars := s.takeWhile fun c => isPrintable c && c != '\''
  match s.drop chars.length with
  | '\'' :: rest => some (chars, rest)
  | _ => none

/-- At three quotes or more: the quotes before the last three, of which there may be
two, and what follows. -/
def closeBlock? (quote : Char) (s : List Char) : Option (List Char × List Char) :=
  let count := (s.takeWhile (· == quote)).length
  if count < 3 then none
  else
    let extra := min (count - 3) 2
    some (List.replicate extra quote, s.drop (extra + 3))

/-- The end of a line and all blanks and ends of lines after it. -/
def skipFolded (s : List Char) : Option (List Char) :=
  (afterNewline? (skipBlanks s)).map fun rest =>
    rest.dropWhile fun c => isBlank c || c == '\n' || c == '\r'

/-- The characters up to three closing quotes. Escapes count in double quotes, where a
backslash at the end of a line joins it with the next. -/
def readBlock? (quote : Char) : Nat → List Char → Option (List Char × List Char)
  | 0, _ => none
  | bound + 1, s =>
    match closeBlock? quote s with
    | some result => some result
    | none =>
      match s with
      | [] => none
      | c :: rest =>
        if c = '\\' ∧ quote = '"' then
          match skipFolded rest with
          | some rest => readBlock? quote bound rest
          | none => do
            let (c, rest) ← readEscape? rest
            let (chars, rest) ← readBlock? quote bound rest
            return (c :: chars, rest)
        else
          match afterNewline? s with
          | some rest => do
            let (chars, rest) ← readBlock? quote bound rest
            return ('\n' :: chars, rest)
          | none =>
            if isPrintable c then do
              let (chars, rest) ← readBlock? quote bound rest
              return (c :: chars, rest)
            else none

/-- A text in quotes of any kind. Three quotes span lines; the end of a line right
behind them does not count. -/
def readText? (s : List Char) : Option (List Char × List Char) :=
  let block (quote : Char) (rest : List Char) :=
    readBlock? quote (rest.length + 1) ((afterNewline? rest).getD rest)
  match s with
  | '"' :: '"' :: '"' :: rest => block '"' rest
  | '\'' :: '\'' :: '\'' :: rest => block '\'' rest
  | '"' :: rest => readQuoted? (rest.length + 1) rest
  | '\'' :: rest => readLiteral? rest
  | _ => none

def isKeyChar (c : Char) : Bool :=
  isHexDigit c || ('a' ≤ c && c ≤ 'z') || ('A' ≤ c && c ≤ 'Z') || c == '_' || c == '-'

def readKey? (s : List Char) : Option (String × List Char) :=
  match s with
  | '"' :: rest => (readQuoted? (rest.length + 1) rest).map fun (key, rest) => (.ofList key, rest)
  | '\'' :: rest => (readLiteral? rest).map fun (key, rest) => (.ofList key, rest)
  | s =>
    match s.takeWhile isKeyChar with
    | [] => none
    | key => some (.ofList key, s.dropWhile isKeyChar)

/-- The keys between dots, and what follows them and the blanks behind them. -/
def readPath? : Nat → List Char → Option (List String × List Char)
  | 0, _ => none
  | bound + 1, s => do
    let (key, rest) ← readKey? (skipBlanks s)
    match skipBlanks rest with
    | '.' :: rest =>
      let (keys, rest) ← readPath? bound rest
      return (key :: keys, rest)
    | rest => return ([key], rest)

def isWordChar (c : Char) : Bool :=
  isKeyChar c || c == '+' || c == '.'

mutual

def readValue? : Nat → List Char → Option (Toml × List Char)
  | 0, _ => none
  | bound + 1, s =>
    match s with
    | '[' :: rest => (readItems? bound rest).map fun (items, rest) => (.array items, rest)
    | '\x7b' :: rest =>
      match skipBlanks rest with
      | '\x7d' :: rest => some (.table .inline [], rest)
      | rest =>
        (readEntries? bound [] rest).map fun (entries, rest) => (.table .inline entries, rest)
    | '"' :: _ | '\'' :: _ => (readText? s).map fun (text, rest) => (.string (.ofList text), rest)
    | s => (ofWord? (s.takeWhile isWordChar)).map fun value => (value, s.dropWhile isWordChar)

/-- The items of an array up to its end. A comma may follow the last one. -/
def readItems? : Nat → List Char → Option (List Toml × List Char)
  | 0, _ => none
  | bound + 1, s =>
    match skipLines (s.length + 1) s with
    | ']' :: rest => some ([], rest)
    | s => do
      let (item, rest) ← readValue? bound s
      match skipLines (rest.length + 1) rest with
      | ',' :: rest =>
        let (items, rest) ← readItems? bound rest
        return (item :: items, rest)
      | ']' :: rest => return ([item], rest)
      | _ => none

/-- The entries of a table in braces up to its end, at least one, added to those before. -/
def readEntries? : Nat → Table → List Char → Option (Table × List Char)
  | 0, _, _ => none
  | bound + 1, entries, s => do
    let (path, rest) ← readPath? (s.length + 1) s
    match rest with
    | '=' :: rest =>
      let (value, rest) ← readValue? bound (skipBlanks rest)
      let entries ← assign path value entries
      match skipBlanks rest with
      | ',' :: rest => readEntries? bound entries rest
      | '\x7d' :: rest => return (entries, rest)
      | _ => none
    | _ => none

end

/-- The statement at the start of a line. -/
def readStatement? (s : List Char) : Option (Statement × List Char) :=
  match s with
  | '[' :: '[' :: rest => do
    match ← readPath? (rest.length + 1) rest with
    | (path, ']' :: ']' :: rest) => return (.series path, rest)
    | _ => none
  | '[' :: rest => do
    match ← readPath? (rest.length + 1) rest with
    | (path, ']' :: rest) => return (.header path, rest)
    | _ => none
  | s => do
    match ← readPath? (s.length + 1) s with
    | (path, '=' :: rest) =>
      let (value, rest) ← readValue? (2 * rest.length + 2) (skipBlanks rest)
      return (.entry path value, rest)
    | _ => none

/-- The document after the lines that are left. -/
def readLines? : Nat → Document → List Char → Option Document
  | 0, _, _ => none
  | bound + 1, document, s =>
    match skipLines (s.length + 1) s with
    | [] => some document
    | s => do
      let (statement, rest) ← readStatement? s
      let document ← document.add statement
      match afterComment (skipBlanks rest) with
      | [] => return document
      | rest => readLines? bound document (← afterNewline? rest)

/-- The entries of a document. A byte order mark before it does not count. -/
def read? (text : String) : Option Table := do
  let s :=
    match text.toList with
    | '\ufeff' :: rest => rest
    | s => s
  let document ← readLines? (s.length + 1) .empty s
  return document.entries

end RecordQuery.Toml
