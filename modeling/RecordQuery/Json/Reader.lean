import RecordQuery.Entries
import RecordQuery.Json.Number

/-!
Reading structured text. The fields of an object are sorted by their names, and
of several fields of one name the last counts. Arrays and objects are nested up
to a fixed depth.
-/

namespace RecordQuery.Json

def isSpace (c : Char) : Bool :=
  c == ' ' || c == '\n' || c == '\t' || c == '\r'

def skipSpace (s : List Char) : List Char :=
  s.dropWhile isSpace

def hexValue? (c : Char) : Option Nat :=
  if '0' ≤ c ∧ c ≤ '9' then some (c.toNat - '0'.toNat)
  else if 'a' ≤ c ∧ c ≤ 'f' then some (c.toNat - 'a'.toNat + 10)
  else if 'A' ≤ c ∧ c ≤ 'F' then some (c.toNat - 'A'.toNat + 10)
  else none

/-- The number of four hexadecimal digits, and what follows them. -/
def readUnit? : List Char → Option (Nat × List Char)
  | a :: b :: c :: d :: rest => do
    let a ← hexValue? a
    let b ← hexValue? b
    let c ← hexValue? c
    let d ← hexValue? d
    return (((a * 16 + b) * 16 + c) * 16 + d, rest)
  | _ => none

/-- The character of a numeric escape, from behind its letter. A character beyond
the first 65536 takes two escapes; half of such a pair is an error. -/
def readEscapedUnit? (s : List Char) : Option (Char × List Char) := do
  let (unit, rest) ← readUnit? s
  if 0xD800 ≤ unit ∧ unit < 0xDC00 then
    match rest with
    | '\\' :: 'u' :: rest =>
      let (second, rest) ← readUnit? rest
      if 0xDC00 ≤ second ∧ second < 0xE000 then
        return (Char.ofNat (0x10000 + (unit - 0xD800) * 0x400 + (second - 0xDC00)), rest)
      else none
    | _ => none
  else if 0xDC00 ≤ unit ∧ unit < 0xE000 then none
  else return (Char.ofNat unit, rest)

/-- The character of an escape, from behind its backslash. -/
def readEscape? : List Char → Option (Char × List Char)
  | '"' :: rest => some ('"', rest)
  | '\\' :: rest => some ('\\', rest)
  | '/' :: rest => some ('/', rest)
  | 'b' :: rest => some ('\x08', rest)
  | 'f' :: rest => some ('\x0c', rest)
  | 'n' :: rest => some ('\n', rest)
  | 'r' :: rest => some ('\r', rest)
  | 't' :: rest => some ('\t', rest)
  | 'u' :: rest => readEscapedUnit? rest
  | _ => none

/-- The characters of a text from behind its opening quote to its closing one, and
what follows. The bound is at least the length of what is read. -/
def readChars? : Nat → List Char → Option (List Char × List Char)
  | 0, _ => none
  | bound + 1, s =>
    match s with
    | [] => none
    | '"' :: rest => some ([], rest)
    | '\\' :: rest => do
      let (c, rest) ← readEscape? rest
      let (chars, rest) ← readChars? bound rest
      return (c :: chars, rest)
    | c :: rest =>
      if c.toNat < 0x20 then none
      else do
        let (chars, rest) ← readChars? bound rest
        return (c :: chars, rest)

/-- A text from behind its opening quote, and what follows it. -/
def readText? (s : List Char) : Option (String × List Char) :=
  (readChars? (s.length + 1) s).map fun (chars, rest) => (.ofList chars, rest)

/-- How deep arrays and objects may be nested. -/
def maxDepth : Nat := 127

mutual

/-- The value at the start of a text, and what follows it. `depth` is how many
levels may still be opened, `bound` is at least the length of what is read. -/
def readValue? : (bound depth : Nat) → List Char → Option (Json × List Char)
  | 0, _, _ => none
  | bound + 1, depth, s =>
    match skipSpace s with
    | 'n' :: 'u' :: 'l' :: 'l' :: rest => some (.null, rest)
    | 't' :: 'r' :: 'u' :: 'e' :: rest => some (.boolean true, rest)
    | 'f' :: 'a' :: 'l' :: 's' :: 'e' :: rest => some (.boolean false, rest)
    | '"' :: rest => (readText? rest).map fun (text, rest) => (.string text, rest)
    | '[' :: rest =>
      match depth with
      | 0 => none
      | depth + 1 =>
        match skipSpace rest with
        | ']' :: rest => some (.array [], rest)
        | rest =>
          (readItems? bound depth rest).map fun (items, rest) => (.array items, rest)
    | '\x7b' :: rest =>
      match depth with
      | 0 => none
      | depth + 1 =>
        match skipSpace rest with
        | '\x7d' :: rest => some (.object [], rest)
        | rest =>
          (readFields? bound depth rest).map fun (fields, rest) =>
            (.object (Entries.sorted fields), rest)
    | rest => readNumber? rest

/-- The items of an array up to its end, at least one. -/
def readItems? : (bound depth : Nat) → List Char → Option (List Json × List Char)
  | 0, _, _ => none
  | bound + 1, depth, s => do
    let (item, rest) ← readValue? bound depth s
    match skipSpace rest with
    | ']' :: rest => return ([item], rest)
    | ',' :: rest =>
      let (items, rest) ← readItems? bound depth rest
      return (item :: items, rest)
    | _ => none

/-- The fields of an object up to its end, at least one, in the order of the text. -/
def readFields? : (bound depth : Nat) → List Char → Option (List (String × Json) × List Char)
  | 0, _, _ => none
  | bound + 1, depth, s =>
    match skipSpace s with
    | '"' :: rest => do
      let (key, rest) ← readText? rest
      match skipSpace rest with
      | ':' :: rest =>
        let (value, rest) ← readValue? bound depth rest
        match skipSpace rest with
        | '\x7d' :: rest => return ([(key, value)], rest)
        | ',' :: rest =>
          let (fields, rest) ← readFields? bound depth rest
          return ((key, value) :: fields, rest)
        | _ => none
      | _ => none
    | _ => none

end

/-- Reads a text that holds one value and nothing else. -/
def read? (text : String) : Option Json := do
  let s := text.toList
  let (value, rest) ← readValue? (2 * s.length + 2) maxDepth s
  if (skipSpace rest).isEmpty then return value else none

end RecordQuery.Json
