import RecordQuery.Text.Numeral
import RecordQuery.Word

/-!
Reading numbers from text. A whole number is read exactly and must fit a
64-bit word; a decimal number is rounded to the nearest binary one.
-/

namespace RecordQuery.Decimal

/-- A leading sign, true for minus, and what follows it. -/
def splitSign : List Char → Bool × List Char
  | '-' :: rest => (true, rest)
  | '+' :: rest => (false, rest)
  | s => (false, s)

/-- The whole number that a text with an optional sign stands for. -/
def readInteger? (s : List Char) : Option Int64 :=
  let (negative, digits) := splitSign s
  if digits.isEmpty || !digits.all Text.isDigit then none
  else
    let n := Int.ofNat (Text.natOfDigits digits)
    Word.ofInt? (if negative then -n else n)

/-- The binary number nearest to `digits` times ten to `exponent`. Numbers far
outside of the range are decided without computing the power. -/
def nearest (digits : Nat) (exponent : Int) : Float :=
  let size := Int.ofNat (Nat.toDigits 10 digits).length + exponent
  if digits = 0 then 0
  else if 400 < size then Float.ofScientific 1 false 400
  else if size < -400 then 0
  else if exponent < 0 then Float.ofScientific digits true exponent.natAbs
  else Float.ofScientific digits false exponent.natAbs

/-- The binary number nearest to a whole number whose magnitude fits 64 bits. -/
def ofInt (n : Int) : Float :=
  let magnitude := (UInt64.ofNat n.natAbs).toFloat
  if n < 0 then -magnitude else magnitude

/-- The exponent behind the digits of a decimal number: nothing, or `e` and a
whole number of any size. -/
def readExponent? : List Char → Option Int
  | [] => some 0
  | c :: rest =>
    let (negative, digits) := splitSign rest
    if (c == 'e' || c == 'E') && !digits.isEmpty && digits.all Text.isDigit then
      let n := Int.ofNat (Text.natOfDigits digits)
      some (if negative then -n else n)
    else none

/-- A decimal number without its sign: digits, a point with more digits, and an
exponent, of which one digit must be there. -/
def readMagnitude? (s : List Char) : Option Float :=
  let whole := s.takeWhile Text.isDigit
  let (fraction, rest) :=
    match s.dropWhile Text.isDigit with
    | '.' :: more => (more.takeWhile Text.isDigit, more.dropWhile Text.isDigit)
    | more => ([], more)
  if whole.isEmpty && fraction.isEmpty then none
  else
    (readExponent? rest).map fun exponent =>
      nearest (Text.natOfDigits (whole ++ fraction)) (exponent - Int.ofNat fraction.length)

/-- The names of the numbers that are not finite, whatever their case. -/
def readSpecial? (s : List Char) : Option Float :=
  let name := s.map Char.toLower
  if name == "inf".toList || name == "infinity".toList then some (1 / 0)
  else if name == "nan".toList then some (0 / 0)
  else none

/-- The number that a text with an optional sign stands for. -/
def read? (s : List Char) : Option Float :=
  let (negative, magnitude) := splitSign s
  ((readSpecial? magnitude).orElse fun _ => readMagnitude? magnitude).map fun x =>
    if negative then -x else x

end RecordQuery.Decimal
