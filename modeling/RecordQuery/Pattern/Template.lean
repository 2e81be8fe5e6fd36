import RecordQuery.Pattern.Basic

/-!
Templates: a row of patterns some of which are kept. Matching a template at
the start of a text gives the kept parts and what follows the match; scanning
a text finds all matches from left to right that do not overlap and tells what
is left of the text without them, or what lies between them.
-/

namespace RecordQuery

/-- One element of a template. -/
inductive Piece where
  /-- Must be there. -/
  | skip (pattern : Pattern)
  /-- Must be there, and its text is kept. -/
  | keep (pattern : Pattern)

/-- A row of pieces that follow each other. -/
abbrev Template := List Piece

namespace Template

/-- The kept parts of the preferred match at the start of the text, and the rest. -/
def match? : Template → List Char → Option (List (List Char) × List Char)
  | [], s => some ([], s)
  | .skip p :: pieces, s => (p.ends s).findSome? fun n => match? pieces (s.drop n)
  | .keep p :: pieces, s =>
    (p.ends s).findSome? fun n =>
      (match? pieces (s.drop n)).map fun (parts, rest) => (s.take n :: parts, rest)

/-- The kept parts, if the template matches the whole text. -/
def matchAll? : Template → List Char → Option (List (List Char))
  | [], s => if s.isEmpty then some [] else none
  | .skip p :: pieces, s => (p.ends s).findSome? fun n => matchAll? pieces (s.drop n)
  | .keep p :: pieces, s =>
    (p.ends s).findSome? fun n => (matchAll? pieces (s.drop n)).map (s.take n :: ·)

/-- All matches from left to right, each as its kept parts, and the text that
lies outside them. A match that consumes nothing counts as none. -/
def scan (template : Template) (s : List Char) : List (List (List Char)) × List Char :=
  match s with
  | [] => ([], [])
  | c :: tail =>
    match template.match? (c :: tail) with
    | some (parts, rest) =>
      if rest.length ≤ tail.length then
        let (later, outside) := scan template rest
        (parts :: later, outside)
      else
        let (later, outside) := scan template tail
        (later, c :: outside)
    | none =>
      let (later, outside) := scan template tail
      (later, c :: outside)
termination_by s.length

/-- The texts between the matches from left to right; the first one comes before all
matches and the last one behind them. A match that consumes nothing counts as none. -/
def split (template : Template) (s : List Char) : List (List Char) :=
  match s with
  | [] => [[]]
  | c :: tail =>
    match template.match? (c :: tail) with
    | some (_, rest) =>
      if rest.length ≤ tail.length then [] :: split template rest
      else (split template tail).modifyHead (c :: ·)
    | none => (split template tail).modifyHead (c :: ·)
termination_by s.length

/-- The kept parts of all matches from left to right. -/
def occurrences (template : Template) (s : List Char) : List (List (List Char)) :=
  (template.scan s).1

def remove (template : Template) (s : List Char) : List Char :=
  (template.scan s).2

end Template

end RecordQuery
