/-!
Edit distance between two texts: the fewest insertions, deletions and
replacements of one character that turn the first into the second. The table
of the classical method is computed one row at a time.
-/

namespace RecordQuery.Text

/-- The next row of the distance table. `above` holds the previous row from the
current column on, `left` the entry just computed. -/
def distanceRow (c : Char) : List Char → List Nat → Nat → List Nat
  | d :: rest, diagonal :: above :: row, left =>
    let here := min (min (left + 1) (above + 1)) (if c = d then diagonal else diagonal + 1)
    here :: distanceRow c rest (above :: row) here
  | _, _, _ => []

/-- The last row of the distance table, from the row of the text read so far. -/
def distanceRows (target : List Char) : List Char → List Nat → List Nat
  | [], row => row
  | c :: rest, row =>
    let start := row.headD 0 + 1
    distanceRows target rest (start :: distanceRow c target row start)

def distance (source target : List Char) : Nat :=
  (distanceRows target source (List.range (target.length + 1))).getLastD 0

end RecordQuery.Text
