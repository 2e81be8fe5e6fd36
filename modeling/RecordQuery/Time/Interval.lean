import RecordQuery.Text.Pieces
import RecordQuery.Time.Duration

/-!
Intervals between two instants, both of which belong to them. An interval is
written as its two ends, and read from two ends or from one end and the
duration up to the other.
-/

namespace RecordQuery

/-- A span of time. The end may come before the start. -/
structure Interval where
  start : Instant
  finish : Instant
  deriving DecidableEq, Repr

namespace Interval

/-- Reads an interval, split at the first slash. -/
def read? (s : List Char) : Option Interval :=
  match Text.splitFirst? '/' s with
  | none => none
  | some (left, right) =>
    match Instant.read? left, Instant.read? right with
    | some start, some finish => some ⟨start, finish⟩
    | some start, none => do
      let length ← Duration.read? right
      let finish ← length.after? start
      return ⟨start, finish⟩
    | none, some finish => do
      let length ← Duration.read? left
      let start ← length.before? finish
      return ⟨start, finish⟩
    | none, none => none

def contains (interval : Interval) (t : Instant) : Bool :=
  interval.start.compare t != .gt && t.compare interval.finish != .gt

/-- Intervals are ordered by their starts and then by their ends. -/
def compare (a b : Interval) : Ordering :=
  (a.start.compare b.start).then (a.finish.compare b.finish)

def renderChars (interval : Interval) : List Char :=
  interval.start.renderChars ++ '/' :: interval.finish.renderChars

end Interval

end RecordQuery
