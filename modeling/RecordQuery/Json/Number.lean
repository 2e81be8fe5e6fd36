import RecordQuery.Json.Basic

/-!
Reading numbers of structured text. A whole number that fits 64 bits, with or
without a sign, is kept as such. Any other number becomes a floating-point
number: as many of its digits as fit an unsigned 64-bit word, scaled by a power
of ten. Numbers too large for that are refused.
-/

namespace RecordQuery.Json

def maxSignificand : Nat := 18446744073709551615

/-- The digits appended to a significand as long as it fits, and how many were. -/
def absorb (significand : Nat) : List Char → Nat × Nat
  | [] => (significand, 0)
  | c :: rest =>
    let next := significand * 10 + (c.toNat - '0'.toNat)
    if next ≤ maxSignificand then
      let (result, count) := absorb next rest
      (result, count + 1)
    else (significand, 0)

/-- The greatest power of ten that a number is scaled by in one step. -/
def powerStep : Nat := 308

/-- Ten to a power up to the greatest one, rounded. -/
def tenTo (n : Nat) : Float :=
  Float.ofScientific 1 false n

/-- The number divided by ten to a power, in steps. -/
def scaleDown : Nat → Float → Nat → Float
  | 0, x, _ => x
  | steps + 1, x, power =>
    if power ≤ powerStep then x / tenTo power
    else if x == 0 then x
    else scaleDown steps (x / tenTo powerStep) (power - powerStep)

/-- The significand times ten to a power, if it is finite. -/
def scaled? (significand : Nat) (power : Int) : Option Float :=
  let x := (UInt64.ofNat significand).toFloat
  if power < 0 then some (scaleDown (power.natAbs / powerStep + 1) x power.natAbs)
  else if power ≤ powerStep then
    let result := x * tenTo power.natAbs
    if result.isInf then none else some result
  else if x == 0 then some x
  else none

/-- The parts of a number as written. -/
structure Numeral where
  negative : Bool
  whole : List Char
  /-- The digits behind the point, none if there is no point. -/
  fraction : List Char
  /-- The exponent, if there is one: whether it is negative, and its digits. -/
  exponent : Option (Bool × List Char)

namespace Numeral

/-- The greatest exponent that is taken at its value. -/
def maxExponent : Nat := 2147483647

/-- The magnitude as a floating-point number, if it is in range. -/
def magnitude? (n : Numeral) : Option Float :=
  let (significand, taken) := absorb 0 n.whole
  let (significand, more) := absorb significand n.fraction
  let power := Int.ofNat (n.whole.length - taken) - Int.ofNat more
  match n.exponent with
  | none => scaled? significand power
  | some (negative, digits) =>
    let exponent := Text.natOfDigits digits
    if maxExponent < exponent then
      if significand != 0 && !negative then none else some 0
    else scaled? significand (power + if negative then -Int.ofNat exponent else Int.ofNat exponent)

/-- The whole number, if the numeral is one that is kept exactly. Minus zero is not. -/
def integer? (n : Numeral) : Option Int :=
  if n.fraction.isEmpty && n.exponent.isNone then
    let value := Text.natOfDigits n.whole
    if n.negative then if 0 < value ∧ value ≤ Nat.pow 2 63 then some (-Int.ofNat value) else none
    else if value ≤ maxSignificand then some (Int.ofNat value)
    else none
  else none

def value? (n : Numeral) : Option Json :=
  match n.integer? with
  | some value => some (.integer value)
  | none => n.magnitude?.map fun x => .decimal (if n.negative then -x else x)

end Numeral

/-- The exponent at the start of a text, if any. A mark without digits is an error. -/
def readExponent? (s : List Char) : Option (Option (Bool × List Char) × List Char) :=
  match s with
  | c :: rest =>
    if c = 'e' ∨ c = 'E' then
      let (negative, rest) :=
        match rest with
        | '-' :: more => (true, more)
        | '+' :: more => (false, more)
        | more => (false, more)
      let digits := rest.takeWhile Text.isDigit
      if digits.isEmpty then none
      else some (some (negative, digits), rest.dropWhile Text.isDigit)
    else some (none, c :: rest)
  | [] => some (none, [])

/-- The fraction at the start of a text, if any. A point without digits is an error. -/
def readFraction? (s : List Char) : Option (List Char × List Char) :=
  match s with
  | '.' :: rest =>
    let digits := rest.takeWhile Text.isDigit
    if digits.isEmpty then none else some (digits, rest.dropWhile Text.isDigit)
  | s => some ([], s)

/-- The digits before the point. More than one must not begin with zero. -/
def readWhole? (s : List Char) : Option (List Char × List Char) :=
  match s.takeWhile Text.isDigit with
  | [] => none
  | '0' :: _ :: _ => none
  | digits => some (digits, s.dropWhile Text.isDigit)

/-- The number at the start of a text, and what follows it. -/
def readNumber? (s : List Char) : Option (Json × List Char) := do
  let (negative, s) :=
    match s with
    | '-' :: rest => (true, rest)
    | s => (false, s)
  let (whole, s) ← readWhole? s
  let (fraction, s) ← readFraction? s
  let (exponent, s) ← readExponent? s
  let value ← (Numeral.mk negative whole fraction exponent).value?
  return (value, s)

end RecordQuery.Json
