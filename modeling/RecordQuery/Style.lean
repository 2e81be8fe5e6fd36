/-!
Colours and weights of text on a terminal, as escape sequences around the text.
-/

namespace RecordQuery

/-- How a piece of text is set off from the rest. -/
inductive Style where
  | dim
  | bold
  | cyan
  | green
  deriving DecidableEq, Repr

namespace Style

def start : Style → String
  | .dim => "\x1b[2m"
  | .bold => "\x1b[1m"
  | .cyan => "\x1b[36m"
  | .green => "\x1b[32m"

/-- The sequence behind the text: colours and weights end on their own. -/
def finish : Style → String
  | .dim | .bold => "\x1b[0m"
  | .cyan | .green => "\x1b[39m"

/-- The text in the style, or plain where output is not coloured. -/
def paint (style : Style) (colored : Bool) (text : String) : String :=
  if colored then style.start ++ text ++ style.finish else text

end Style

end RecordQuery
