import RecordQuery.Time.Instant
import RecordQuery.Word

/-!
Durations of months, days and seconds. Calendar parts are kept apart from clock
parts, so that adding a duration to an instant respects the lengths of months.

Every part is a 64-bit number. Arithmetic on durations is clamped to its range,
reading refuses what does not fit.
-/

namespace RecordQuery

/-- A length of time. -/
structure Duration where
  /-- Years and months, as months. -/
  months : Int64
  /-- Weeks and days, as days. -/
  days : Int64
  /-- Hours, minutes and seconds, as seconds. -/
  seconds : Int64
  deriving DecidableEq, Repr

namespace Duration

/-- The length that a month counts for when durations are compared. -/
def monthSeconds : Int := 30 * 86400

def daySeconds : Int := 86400

def clampedAdd (a b : Int64) : Int64 :=
  Word.clamp (a.toInt + b.toInt)

def clampedMul (a : Int64) (factor : Int) : Int64 :=
  Word.clamp (a.toInt * factor)

def clampedNeg (a : Int64) : Int64 :=
  Word.clamp (-a.toInt)

/-- The length in seconds with months of 30 days. Every step is clamped. -/
def nominalLength (d : Duration) : Int64 :=
  clampedAdd (clampedAdd (clampedMul d.months monthSeconds) (clampedMul d.days daySeconds))
    d.seconds

def negate (d : Duration) : Duration :=
  ⟨clampedNeg d.months, clampedNeg d.days, clampedNeg d.seconds⟩

def plus (a b : Duration) : Duration :=
  ⟨clampedAdd a.months b.months, clampedAdd a.days b.days, clampedAdd a.seconds b.seconds⟩

/-- The months by which a date is moved, in one direction or the other, if
their number without its sign has 32 bits. -/
def monthSteps? (months : Int64) : Option Int :=
  if months.toInt.natAbs ≤ 4294967295 then some months.toInt else none

/-- The seconds of some units, if their number in milliseconds has 64 bits. -/
def span? (count : Int64) (unit : Int) : Option Int :=
  if (count.toInt * unit).natAbs ≤ 9223372036854775 then some (count.toInt * unit) else none

/-- The instant that comes the duration later: first by months, then by days,
then by seconds. Every step must stay in the range of instants. -/
def after? (d : Duration) (t : Instant) : Option Instant := do
  let months ← monthSteps? d.months
  let t ← t.addMonths months
  let days ← span? d.days daySeconds
  let t ← t.addSeconds days
  let seconds ← span? d.seconds 1
  t.addSeconds seconds

def before? (d : Duration) (t : Instant) : Option Instant :=
  d.negate.after? t

def compareWords (a b : Int64) : Ordering :=
  compareOfLessAndEq a.toInt b.toInt

/-- Durations are ordered by their nominal length, equal ones by their parts. -/
def compare (a b : Duration) : Ordering :=
  (compareWords a.nominalLength b.nominalLength).then <|
    (compareWords a.months b.months).then <|
      (compareWords a.days b.days).then (compareWords a.seconds b.seconds)

/-- A count with the letter of its unit, or nothing for zero. -/
def component (n : Int) (unit : Char) : List Char :=
  if n = 0 then [] else Text.intDigits n ++ [unit]

/-- The duration as text. Every part has the sign of its total. -/
def renderChars (d : Duration) : List Char :=
  let months := d.months.toInt
  let days := d.days.toInt
  let seconds := d.seconds.toInt
  if months = 0 ∧ days = 0 ∧ seconds = 0 then "PT0S".toList
  else
    'P' :: (component (months.tdiv 12) 'Y' ++ component (months.tmod 12) 'M' ++ component days 'D' ++
      if seconds = 0 then []
      else
        'T' :: (component (seconds.tdiv 3600) 'H' ++
          component ((seconds.tmod 3600).tdiv 60) 'M' ++
          component ((seconds.tmod 3600).tmod 60) 'S'))

/-- The count in front of a unit, and what follows; nothing counts as zero. -/
def readCount (unit : Char) (s : List Char) : Nat × List Char :=
  let digits := s.takeWhile Text.isDigit
  match s.dropWhile Text.isDigit with
  | c :: rest =>
    if c = unit ∧ digits ≠ [] then (Text.natOfDigits digits, rest) else (0, s)
  | [] => (0, s)

/-- The counts in front of some units, each of which may be missing. -/
def readCounts : List Char → List Char → List Nat × List Char
  | [], s => ([], s)
  | unit :: units, s =>
    let (count, rest) := readCount unit s
    let (counts, rest) := readCounts units rest
    (count :: counts, rest)

/-- The length of some units, if their number and the length are in range. -/
def unitLength? (count unit : Nat) : Option Int64 := do
  let count ← Word.ofInt? count
  Word.mul? count unit

/-- The duration of counts of years, months, weeks, days, hours, minutes and
seconds, if every count, length and sum is in range. -/
def ofCounts? : List Nat → List Nat → Option Duration
  | [years, months, weeks, days], [hours, minutes, seconds] => do
    let years ← unitLength? years 12
    let months ← Word.ofInt? months
    let months ← Word.add? years months
    let weeks ← unitLength? weeks 7
    let days ← Word.ofInt? days
    let days ← Word.add? weeks days
    let hours ← unitLength? hours 3600
    let minutes ← unitLength? minutes 60
    let time ← Word.add? hours minutes
    let seconds ← Word.ofInt? seconds
    let seconds ← Word.add? time seconds
    return ⟨months, days, seconds⟩
  | _, _ => none

/-- Reads a duration: the letter P, years, months, weeks and days, and behind
the letter T hours, minutes and seconds. -/
def read? : List Char → Option Duration
  | 'P' :: s =>
    let (calendar, rest) := readCounts ['Y', 'M', 'W', 'D'] s
    match rest with
    | [] => ofCounts? calendar [0, 0, 0]
    | 'T' :: rest =>
      let (clock, rest) := readCounts ['H', 'M', 'S'] rest
      if rest.isEmpty then ofCounts? calendar clock else none
    | _ => none
  | _ => none

end Duration

end RecordQuery
