import RecordQuery.Error
import RecordQuery.Grammar
import RecordQuery.Pattern.Template

/-!
Polygons of spatial filters: one ring of points between double parentheses.
Every point is two numbers, and the ring is closed: its last point is written
as its first one is.
-/

namespace RecordQuery.Polygon

def ringTemplate : Template :=
  [.skip (.all [.text "POLYGON", .run Text.isBlank, .text "(", .run Text.isBlank, .text "("]),
    .keep (.seq (.one Grammar.isInline) (.longRun Grammar.isInline)),
    .skip (.all [.text ")", .run Text.isBlank, .text ")"])]

def point : Pattern :=
  .all [Grammar.number, .someOf Text.isBlank, Grammar.number]

/-- A comma with the blanks around it. -/
def separator : Template :=
  [.skip (.all [.run Text.isBlank, .text ",", .run Text.isBlank])]

/-- The points of a ring as they are written between commas. -/
def points (ring : List Char) : List (List Char) :=
  separator.split (Text.trim ring)

/-- Checks that every point of a ring is one and that the ring is closed. -/
def checkRing (ring : List Char) : Except QueryError Unit :=
  match (points ring).find? fun p => !point.accepts p with
  | some bad => .error (.illegalPoint (.ofList bad))
  | none =>
    let first := (points ring).headD []
    let last := (points ring).getLastD []
    if first = last then .ok ()
    else .error (.unclosedPolygon (.ofList first) (.ofList last))

/-- Checks that a text is a polygon of one closed ring. -/
def check (polygon : List Char) : Except QueryError Unit :=
  match ringTemplate.matchAll? polygon with
  | some [ring] => checkRing ring
  | _ => .error (.illegalPolygon (.ofList polygon))

end RecordQuery.Polygon
