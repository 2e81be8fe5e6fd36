/-!
The shortest decimal digits of a binary floating-point number.

A finite number stands for an interval of reals, those that round to it: from
halfway to its neighbour below to halfway to its neighbour above. The shortest
digits are found on the coarsest decimal grid that has a point in this
interval; of two such points the nearer is taken. All comparisons are exact.
-/

namespace RecordQuery.Decimal

/-- A finite number without its sign: `significand` times two to `exponent`. -/
structure Binary where
  significand : Nat
  exponent : Int
  /-- The neighbour below is half as far away as the neighbour above. -/
  nearBelow : Bool

/-- The number with these bits, which are not those of an infinity or of no number. -/
def Binary.ofBits (bits : UInt64) : Binary :=
  let fraction := bits.toNat % Nat.pow 2 52
  let scale := bits.toNat / Nat.pow 2 52 % 2048
  if scale = 0 then ⟨fraction, -1074, false⟩
  else ⟨Nat.pow 2 52 + fraction, Int.ofNat scale - 1075, fraction == 0 && scale > 1⟩

/-- A decimal number: `digits` times ten to `exponent`. -/
structure Digits where
  digits : Nat
  exponent : Int
  deriving DecidableEq, Repr

/-- Which of two equally near decimals is taken. -/
inductive Tie where
  | up
  | even
  deriving DecidableEq, Repr

/-- The interval of a number as quotients with one denominator: the number
itself, the lower and the upper end, and whether the ends belong to it. -/
structure Span where
  value : Nat
  low : Nat
  high : Nat
  unit : Nat
  closed : Bool

def Binary.span (x : Binary) : Span :=
  let scale := Nat.pow 2 (x.exponent - 2).toNat
  { value := 4 * x.significand * scale
    low := (4 * x.significand - if x.nearBelow then 1 else 2) * scale
    high := (4 * x.significand + 2) * scale
    unit := Nat.pow 2 (2 - x.exponent).toNat
    closed := x.significand % 2 == 0 }

/-- How many digits a positive number is written with. -/
def digitCount (n : Nat) : Nat :=
  (Nat.toDigits 10 n).length

/-- The exponent of the leading digit of a positive quotient. -/
def leadingExponent (value unit : Nat) : Int :=
  if unit ≤ value then Int.ofNat (digitCount (value / unit)) - 1
  else
    let places := digitCount (unit / value)
    if unit ≤ value * Nat.pow 10 (places - 1) then 1 - Int.ofNat places
    else -Int.ofNat places

/-- The point that stands for the number on the grid of multiples of ten to
`exponent`, if one does. -/
def Span.gridPoint? (span : Span) (tie : Tie) (exponent : Int) : Option Nat :=
  let up := Nat.pow 10 (-exponent).toNat
  let unit := span.unit * Nat.pow 10 exponent.toNat
  let value := span.value * up
  let below := value / unit
  let fitsBelow :=
    span.low * up < below * unit || (span.closed && span.low * up == below * unit)
  let fitsAbove :=
    (below + 1) * unit < span.high * up || (span.closed && (below + 1) * unit == span.high * up)
  if fitsBelow && fitsAbove then
    if 2 * value < (2 * below + 1) * unit then some below
    else if (2 * below + 1) * unit < 2 * value then some (below + 1)
    else
      match tie with
      | .up => some (below + 1)
      | .even => some (if below % 2 == 0 then below else below + 1)
  else if fitsBelow then some below
  else if fitsAbove then some (below + 1)
  else none

/-- The digits without zeros at their end. The count bounds the zeros taken off. -/
def dropZeros : Nat → Digits → Digits
  | 0, d => d
  | bound + 1, d =>
    if d.digits % 10 == 0 && d.digits != 0 then dropZeros bound ⟨d.digits / 10, d.exponent + 1⟩
    else d

/-- The shortest digits of a number. Seventeen digits always suffice. -/
def Binary.shortest (x : Binary) (tie : Tie) : Digits :=
  if x.significand = 0 then ⟨0, 0⟩
  else
    let span := x.span
    let leading := leadingExponent span.value span.unit
    let point? := (List.range 17).findSome? fun (n : Nat) =>
      let exponent := leading - Int.ofNat n
      (span.gridPoint? tie exponent).map fun digits => Digits.mk digits exponent
    match point? with
    | some d => dropZeros (digitCount d.digits) d
    | none =>
      ⟨x.significand * Nat.pow 5 (-x.exponent).toNat * Nat.pow 2 x.exponent.toNat,
        min x.exponent 0⟩

end RecordQuery.Decimal
