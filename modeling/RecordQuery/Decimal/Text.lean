import RecordQuery.Decimal.Shortest
import RecordQuery.Text.Numeral

/-!
Decimal numbers as text. One layout serves messages and values, another one
structured output; both write the fewest digits that read back to the number.
-/

namespace RecordQuery.Decimal

/-- How a finite number is laid out. -/
structure Layout where
  tie : Tie
  /-- Whether a leading digit of this exponent is written without an exponent. -/
  positional : Int → Bool
  /-- Whether a whole number is followed by a point and a zero. -/
  pointZero : Bool

/-- Values are written without an exponent, whole ones without a point. -/
def Layout.plain : Layout :=
  { tie := .up, positional := fun _ => true, pointZero := false }

/-- Structured output has an exponent outside of the range from 1e-5 to below
1e16, and a point or an exponent always. -/
def Layout.structured : Layout :=
  { tie := .even, positional := fun e => -5 ≤ e && e ≤ 15, pointZero := true }

/-- The digits with a point in its place, padded with zeros where needed. -/
def positionalText (d : Digits) (pointZero : Bool) : List Char :=
  let digits := Text.natDigits d.digits
  if 0 ≤ d.exponent then
    digits ++ List.replicate d.exponent.toNat '0' ++ if pointZero then ['.', '0'] else []
  else
    let places := (-d.exponent).toNat
    let padded := List.replicate (places + 1 - digits.length) '0' ++ digits
    padded.take (padded.length - places) ++ '.' :: padded.drop (padded.length - places)

/-- One digit before the point, the others behind it, and the exponent with its sign. -/
def exponentText (d : Digits) : List Char :=
  let digits := Text.natDigits d.digits
  let leading := d.exponent + Int.ofNat digits.length - 1
  let head := digits.take 1 ++ if digits.length ≤ 1 then [] else '.' :: digits.drop 1
  head ++ 'e' :: (if leading < 0 then '-' else '+') :: Text.natDigits leading.natAbs

def finiteText (layout : Layout) (x : Float) : List Char :=
  let d := (Binary.ofBits x.toBits).shortest layout.tie
  let leading := d.exponent + Int.ofNat (digitCount d.digits) - 1
  let sign := if x.toBits.toNat < Nat.pow 2 63 then [] else ['-']
  sign ++
    if layout.positional leading then positionalText d layout.pointZero else exponentText d

/-- A number as the text of a value. -/
def render (x : Float) : String :=
  .ofList <|
    if x.isNaN then "NaN".toList
    else if x.isInf then if x < 0 then "-inf".toList else "inf".toList
    else finiteText .plain x

end RecordQuery.Decimal
