/-!
Splitting a text at a separator and joining the pieces again. A text with n
separators has n + 1 pieces, some of which may be empty, and joining them
gives the text back.
-/

namespace RecordQuery.Text

/-- The pieces of a text between the separators. -/
def pieces (separator : Char) : List Char → List (List Char)
  | [] => [[]]
  | c :: rest =>
    if c = separator then [] :: pieces separator rest
    else
      match pieces separator rest with
      | piece :: more => (c :: piece) :: more
      | [] => [[c]]

def join (separator : List Char) : List (List Char) → List Char
  | [] => []
  | [piece] => piece
  | piece :: rest => piece ++ separator ++ join separator rest

/-- The text before the first separator and the text after it. -/
def splitFirst? (separator : Char) : List Char → Option (List Char × List Char)
  | [] => none
  | c :: rest =>
    if c = separator then some ([], rest)
    else (splitFirst? separator rest).map fun (before, after) => (c :: before, after)

/-- What follows a given beginning, if the text has it. -/
def afterStart? : (start : List Char) → List Char → Option (List Char)
  | [], s => some s
  | c :: start, d :: s => if c = d then afterStart? start s else none
  | _ :: _, [] => none

/-- What precedes a given end, if the text has it. -/
def beforeEnd? (finish s : List Char) : Option (List Char) :=
  (afterStart? finish.reverse s.reverse).map List.reverse

theorem pieces_ne_nil (separator : Char) (s : List Char) : pieces separator s ≠ [] := by
  cases s with
  | nil => simp [pieces]
  | cons c rest =>
    unfold pieces
    split
    · simp
    · split <;> simp

theorem join_pieces (separator : Char) (s : List Char) :
    join [separator] (pieces separator s) = s := by
  induction s with
  | nil => rfl
  | cons c rest ih =>
    unfold pieces
    split
    · next h =>
      cases hp : pieces separator rest with
      | nil => exact absurd hp (pieces_ne_nil separator rest)
      | cons piece more => simp [join, ← hp, ih, h]
    · split
      · next piece more hp =>
        cases more with
        | nil => simpa [join, hp] using ih
        | cons next more =>
          rw [hp] at ih
          simp only [join, List.append_assoc, List.cons_append] at ih ⊢
          rw [ih]
      · next hp => exact absurd hp (pieces_ne_nil separator rest)

end RecordQuery.Text
