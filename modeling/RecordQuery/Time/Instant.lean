import RecordQuery.Text.Numeral
import RecordQuery.Time.Calendar

/-!
Instants in universal time with nanoseconds, from the year -262143 to the year
262142.

A leap second is kept as the second before it with 1000000000 nanoseconds or
more, so instants are ordered as they follow each other. Leap seconds are not
counted in: arithmetic that leaves one goes on from the second it belongs to.
-/

namespace RecordQuery

/-- A point in time. -/
structure Instant where
  /-- Seconds from 1970-01-01T00:00:00Z on, each day having 86400 of them. -/
  seconds : Int
  /-- Nanoseconds of the second; from 1000000000 on it is a leap second. -/
  nanos : Nat
  deriving DecidableEq, Repr

namespace Instant

def second : Nat := 1000000000

def day : Int := 86400

/-- The first and the last second that an instant can have. -/
def minSeconds : Int :=
  CivilDate.toDays ⟨-262143, 1, 1⟩ * day

def maxSeconds : Int :=
  CivilDate.toDays ⟨262142, 12, 31⟩ * day + (day - 1)

/-- Whether the instant lies in the range of the calendar. -/
def inRange (t : Instant) : Bool :=
  minSeconds ≤ t.seconds && t.seconds ≤ maxSeconds

/-- The instant itself, unless it lies outside of the range. -/
def checked (t : Instant) : Option Instant :=
  if t.inRange then some t else none

def isLeap (t : Instant) : Bool :=
  second ≤ t.nanos

def date (t : Instant) : CivilDate :=
  CivilDate.ofDays (t.seconds / day)

def secondOfDay (t : Instant) : Int :=
  t.seconds % day

/-- Instants are ordered by their seconds and then by their nanoseconds. -/
def compare (a b : Instant) : Ordering :=
  (compareOfLessAndEq a.seconds b.seconds).then (compareOfLessAndEq a.nanos b.nanos)

/-- The instant some months later at the same time of day. -/
def addMonths (t : Instant) (months : Int) : Option Instant :=
  checked ⟨(t.date.addMonths months).toDays * day + t.secondOfDay, t.nanos⟩

/-- The instant some seconds later. From within a leap second a step forward
starts at the second before it and a step back at the second after it. -/
def addSeconds (t : Instant) (count : Int) : Option Instant :=
  checked <|
    if count = 0 ∨ ¬t.isLeap then ⟨t.seconds + count, t.nanos⟩
    else if 0 < count then ⟨t.seconds + count, t.nanos - second⟩
    else ⟨t.seconds + 1 + count, t.nanos - second⟩

/-- The whole seconds from the second instant to the first, cut off toward zero.
A leap second lies between them if it is the earlier time of day of the two. -/
def secondsSince (a b : Instant) : Int :=
  let leap : Int :=
    if b.secondOfDay < a.secondOfDay then if b.isLeap then 1 else 0
    else if a.secondOfDay < b.secondOfDay then if a.isLeap then -1 else 0
    else 0
  let nanos := Int.ofNat a.nanos - Int.ofNat b.nanos
  let whole := a.seconds - b.seconds + leap + nanos / Int.ofNat second
  if whole < 0 ∧ 0 < nanos % Int.ofNat second then whole + 1 else whole

/-- A year in four digits; other years have a sign. -/
def yearText (year : Int) : List Char :=
  if 0 ≤ year ∧ year ≤ 9999 then Text.paddedDigits 4 year.toNat
  else (if year < 0 then '-' else '+') :: Text.paddedDigits 4 year.natAbs

/-- Date and time of day, with a leap second as second 60. -/
def secondText (t : Instant) : List Char :=
  let date := t.date
  let time := t.secondOfDay.toNat
  yearText date.year ++ '-' :: Text.paddedDigits 2 date.month ++ '-' ::
    Text.paddedDigits 2 date.day ++ 'T' :: Text.paddedDigits 2 (time / 3600) ++ ':' ::
    Text.paddedDigits 2 (time / 60 % 60) ++ ':' ::
    Text.paddedDigits 2 (time % 60 + if t.isLeap then 1 else 0)

/-- The instant as queries write it, without a fraction of the second. -/
def renderChars (t : Instant) : List Char :=
  t.secondText ++ ['Z']

/-- The fraction of the second in three, six or nine digits, or nothing if it is zero. -/
def fractionText (t : Instant) : List Char :=
  let nanos := t.nanos % second
  if nanos = 0 then []
  else if nanos % 1000000 = 0 then '.' :: Text.paddedDigits 3 (nanos / 1000000)
  else if nanos % 1000 = 0 then '.' :: Text.paddedDigits 6 (nanos / 1000)
  else '.' :: Text.paddedDigits 9 nanos

/-- The instant with its fraction of the second. -/
def exactChars (t : Instant) : List Char :=
  t.secondText ++ t.fractionText ++ ['Z']

/-- The number of exactly this many digits, and what follows it. -/
def readDigits? (count : Nat) (s : List Char) : Option (Nat × List Char) :=
  let digits := s.take count
  if digits.length = count ∧ digits.all Text.isDigit then
    some (Text.natOfDigits digits, s.drop count)
  else none

/-- What follows a character, if the text begins with one of these. -/
def readSign? (signs : List Char) : List Char → Option (List Char)
  | c :: rest => if signs.contains c then some rest else none
  | [] => none

/-- The nanoseconds of a fraction, if a point follows; digits after the ninth
do not count. -/
def readFraction? : List Char → Option (Nat × List Char)
  | '.' :: rest =>
    let digits := rest.takeWhile Text.isDigit
    if digits.isEmpty then none
    else
      let kept := digits.take 9
      some (Text.natOfDigits kept * Nat.pow 10 (9 - kept.length), rest.dropWhile Text.isDigit)
  | s => some (0, s)

/-- The offset from universal time in seconds. It ends the text. -/
def readOffset? (s : List Char) : Option Int :=
  match s with
  | ['Z'] | ['z'] => some 0
  | sign :: rest =>
    if sign = '+' ∨ sign = '-' ∨ sign = '\u2212' then do
      let (hours, rest) ← readDigits? 2 rest
      let rest ← readSign? [':'] rest
      let (minutes, rest) ← readDigits? 2 rest
      if hours ≤ 23 ∧ minutes ≤ 59 ∧ rest.isEmpty then
        let offset := Int.ofNat (hours * 3600 + minutes * 60)
        some (if sign = '+' then offset else -offset)
      else none
    else none
  | [] => none

/-- The date with a month and a day that exist. -/
def readDate? (s : List Char) : Option (CivilDate × List Char) := do
  let (year, s) ← readDigits? 4 s
  let s ← readSign? ['-'] s
  let (month, s) ← readDigits? 2 s
  let s ← readSign? ['-'] s
  let (day, s) ← readDigits? 2 s
  let date : CivilDate := ⟨Int.ofNat year, month, day⟩
  if date.isValid then some (date, s) else none

/-- Reads an instant: a date, a time of day that may have a fraction, and an
offset. Second 60 is a leap second in any minute. -/
def read? (s : List Char) : Option Instant := do
  let (date, s) ← readDate? s
  let s ← readSign? ['T', 't', ' '] s
  let (hour, s) ← readDigits? 2 s
  let s ← readSign? [':'] s
  let (minute, s) ← readDigits? 2 s
  let s ← readSign? [':'] s
  let (sec, s) ← readDigits? 2 s
  let (nanos, s) ← readFraction? s
  let offset ← readOffset? s
  if hour ≤ 23 ∧ minute ≤ 59 ∧ sec ≤ 60 then
    let time := Int.ofNat (hour * 3600 + minute * 60 + min sec 59)
    checked ⟨date.toDays * day + time - offset, nanos + if sec = 60 then second else 0⟩
  else none

end Instant

end RecordQuery
