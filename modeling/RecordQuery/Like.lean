import RecordQuery.Text.Folding

/-!
Text patterns of `LIKE` and `ILIKE`. A percent sign stands for any characters on
one line, every other character for itself, with or without regard to case, and
the pattern covers the whole text.

Whether the pattern matches is computed for all ends of the text at once, from
the last character of the pattern to its first: one pass over the text for each
character of the pattern.

The size limit of a matching engine is left out. An engine that compiles the pattern
to an expression refuses one beyond its limit as an invalid literal, before any text
is matched; here every pattern can be matched.
-/

namespace RecordQuery.Like

/-- For every end of the text, the empty one included, whether a character of the
pattern and then the rest of the pattern match it. `row` tells this of the rest. -/
def charRow (caseless : Bool) (c : Char) : List Char → List Bool → List Bool
  | d :: text, _ :: row =>
    (Text.sameChar caseless c d && row.headD false) :: charRow caseless c text row
  | _, _ => [false]

/-- For every end of the text, whether some characters of its line and then the
rest of the pattern match it. -/
def gapRow : List Char → List Bool → List Bool
  | d :: text, here :: row =>
    let later := gapRow text row
    (here || (d != '\n' && later.headD false)) :: later
  | _, row => row

/-- For every end of the text, whether the pattern matches it. -/
def rows (caseless : Bool) : List Char → List Char → List Bool
  | [], text => text.map (fun _ => false) ++ [true]
  | c :: pattern, text =>
    if c = '%' then gapRow text (rows caseless pattern text)
    else charRow caseless c text (rows caseless pattern text)

def accepts (caseless : Bool) (pattern text : List Char) : Bool :=
  (rows caseless pattern text).headD false

end RecordQuery.Like
