import RecordQuery.Text.Lowercase

/-!
Simple case folding: each character has one folded form, and two characters
are equal but for case when their folded forms agree. Folding is the lower
case except for the listed characters; İ has no simple folding and stands for
itself.
-/

namespace RecordQuery.Text

def foldChar (c : Char) : Char :=
  if c.toNat < 128 then c.toLower
  else ((caseShift? foldingRuns c).orElse fun _ => caseShift? lowercaseRuns c).getD c

/-- Equality of characters, with or without regard to case. -/
def sameChar (caseless : Bool) (a b : Char) : Bool :=
  if caseless then foldChar a == foldChar b else a == b

end RecordQuery.Text
