import RecordQuery.Decimal.Reading
import RecordQuery.Text.Pieces
import RecordQuery.Toml.Basic

/-!
Words of configuration text that are not between quotes: truth values and numbers.
Whole numbers are of 64 bits and may be in base two, eight or sixteen. Underscores
may stand between digits.
-/

namespace RecordQuery.Toml

/-- The digits of a group without the underscores between them. -/
def digits? (isDigit : Char → Bool) (s : List Char) : Option (List Char) :=
  let groups := Text.pieces '_' s
  if groups.all fun group => !group.isEmpty && group.all isDigit then some groups.flatten
  else none

/-- The digits of a number in base ten, which begins with zero only if it is zero. -/
def wholeDigits? (s : List Char) : Option (List Char) :=
  (digits? Text.isDigit s).filter fun digits => digits.length = 1 || digits.head? != some '0'

/-- The value of a digit in some base up to sixteen. -/
def digitValue (c : Char) : Nat :=
  if c ≤ '9' then c.toNat - '0'.toNat
  else if c ≤ 'F' then c.toNat - 'A'.toNat + 10
  else c.toNat - 'a'.toNat + 10

def isHexDigit (c : Char) : Bool :=
  Text.isDigit c || ('a' ≤ c && c ≤ 'f') || ('A' ≤ c && c ≤ 'F')

/-- The value of a row of digits in a base. -/
def valueInBase (base : Nat) (digits : List Char) : Nat :=
  digits.foldl (fun n c => n * base + digitValue c) 0

/-- The number in base two, eight or sixteen that a word stands for. -/
def radixValue? : List Char → Option Nat
  | '0' :: 'x' :: rest => (digits? isHexDigit rest).map (valueInBase 16)
  | '0' :: 'o' :: rest => (digits? (fun c => '0' ≤ c && c ≤ '7') rest).map (valueInBase 8)
  | '0' :: 'b' :: rest => (digits? (fun c => c == '0' || c == '1') rest).map (valueInBase 2)
  | _ => none

/-- The whole number that a word stands for. -/
def integer? (word : List Char) : Option Int :=
  let value? :=
    match radixValue? word with
    | some value => some (Int.ofNat value)
    | none =>
      let (negative, s) := Decimal.splitSign word
      (wholeDigits? s).map fun digits =>
        let value := Int.ofNat (Text.natOfDigits digits)
        if negative then -value else value
  value?.filter fun value => Word.least ≤ value && value ≤ Word.greatest

def exponentDigits? (s : List Char) : Option (List Char) :=
  let (negative, rest) := Decimal.splitSign s
  (digits? Text.isDigit rest).map fun digits => if negative then '-' :: digits else digits

/-- A number with a fraction, an exponent or both, without underscores. -/
def plainDecimal? (s : List Char) : Option (List Char) := do
  let mark := s.takeWhile fun c => c != 'e' && c != 'E'
  let exponent ←
    match s.dropWhile fun c => c != 'e' && c != 'E' with
    | [] => pure []
    | _ :: rest => (exponentDigits? rest).map ('e' :: ·)
  match Text.splitFirst? '.' mark with
  | some (whole, fraction) =>
    return (← wholeDigits? whole) ++ '.' :: (← digits? Text.isDigit fraction) ++ exponent
  | none =>
    if exponent.isEmpty then none else return (← wholeDigits? mark) ++ exponent

/-- The number with a fraction or an exponent that a word stands for. -/
def decimal? (word : List Char) : Option Float := do
  let (negative, s) := Decimal.splitSign word
  let magnitude ←
    if s = "inf".toList ∨ s = "nan".toList then Decimal.read? s
    else Decimal.read? (← plainDecimal? s)
  return if negative then -magnitude else magnitude

def ofWord? (word : List Char) : Option Toml :=
  if word = "true".toList then some (.boolean true)
  else if word = "false".toList then some (.boolean false)
  else
    match integer? word with
    | some value => some (.integer value)
    | none => (decimal? word).map .decimal

end RecordQuery.Toml
