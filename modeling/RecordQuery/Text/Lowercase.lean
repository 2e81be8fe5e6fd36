import RecordQuery.Text.CaseData

/-!
Lower case of a text. One character may become two (İ), and a capital sigma
becomes the final form where it ends a word: after a cased character and
before none, with the ignorable characters between them passed over.
-/

namespace RecordQuery.Text

/-- The lower case of a character, for all but İ, whose lower case is two characters. -/
def lowercaseChar (c : Char) : Char :=
  if c.toNat < 128 then c.toLower else (caseShift? lowercaseRuns c).getD c

/-- Whether the nearest character that is not ignorable is a cased one. -/
def meetsCased (s : List Char) : Bool :=
  match s.dropWhile (inRanges ignorableRanges) with
  | c :: _ => inRanges casedRanges c
  | [] => false

/-- The lower case of the rest of a text. `before` is what precedes it, nearest first. -/
def lowercaseFrom (before : List Char) : List Char → List Char
  | [] => []
  | c :: rest =>
    let image :=
      if c = 'Σ' then
        [if meetsCased before && !meetsCased rest then 'ς' else 'σ']
      else if c = 'İ' then ['i', '\u0307']
      else [lowercaseChar c]
    image ++ lowercaseFrom (c :: before) rest

def lowercase (s : List Char) : List Char :=
  lowercaseFrom [] s

end RecordQuery.Text
