import Mathlib.Data.List.Basic
import RecordQuery.Decimal.Reading

/-!
Numbers as rows of digits. A number is read back from its digits, with leading zeros
and with a sign in front as well, and the row ends at the first other character.
-/

namespace RecordQuery

namespace Text

theorem natOfDigits_natDigits (n : Nat) : natOfDigits (natDigits n) = n :=
  Nat.ofDigitChars_toDigits (by decide) (by decide)

theorem isDigit_of_mem_natDigits {n : Nat} {c : Char} (h : c ∈ natDigits n) :
    isDigit c = true := by
  have hdigit := Nat.isDigit_of_mem_toDigits (by decide) (by decide) h
  simpa [isDigit, Char.isDigit, Char.le_def] using hdigit

theorem natDigits_ne_nil (n : Nat) : natDigits n ≠ [] :=
  Nat.toDigits_ne_nil

theorem natOfDigits_zeros (count : Nat) (digits : List Char) :
    natOfDigits (List.replicate count '0' ++ digits) = natOfDigits digits := by
  induction count with
  | zero => rfl
  | succ count ih =>
      rw [List.replicate_succ, List.cons_append]
      exact ih

theorem natOfDigits_paddedDigits (width n : Nat) : natOfDigits (paddedDigits width n) = n := by
  rw [paddedDigits, natOfDigits_zeros, natOfDigits_natDigits]

theorem isDigit_of_mem_paddedDigits {width n : Nat} {c : Char} (h : c ∈ paddedDigits width n) :
    isDigit c = true := by
  rcases List.mem_append.mp h with hzero | hdigit
  · rw [List.eq_of_mem_replicate hzero]
    rfl
  · exact isDigit_of_mem_natDigits hdigit

theorem length_paddedDigits {width n : Nat} (h : (natDigits n).length ≤ width) :
    (paddedDigits width n).length = width := by
  rw [paddedDigits, List.length_append, List.length_replicate]
  omega

/-- Digits in front of another character are all digits there are. -/
theorem takeWhile_digits {digits : List Char} {c : Char} (rest : List Char)
    (hdigits : ∀ d ∈ digits, isDigit d = true) (hc : isDigit c = false) :
    (digits ++ c :: rest).takeWhile isDigit = digits := by
  rw [List.takeWhile_append_of_pos hdigits, List.takeWhile_cons_of_neg (by simp [hc]),
    List.append_nil]

theorem dropWhile_digits {digits : List Char} {c : Char} (rest : List Char)
    (hdigits : ∀ d ∈ digits, isDigit d = true) (hc : isDigit c = false) :
    (digits ++ c :: rest).dropWhile isDigit = c :: rest := by
  rw [List.dropWhile_append_of_pos hdigits, List.dropWhile_cons_of_neg (by simp [hc])]

theorem takeWhile_natDigits (n : Nat) (c : Char) (rest : List Char) (h : isDigit c = false) :
    (natDigits n ++ c :: rest).takeWhile isDigit = natDigits n :=
  takeWhile_digits rest (fun _ => isDigit_of_mem_natDigits) h

end Text

namespace Decimal

/-- Digits have no sign. -/
theorem splitSign_natDigits (n : Nat) :
    splitSign (Text.natDigits n) = (false, Text.natDigits n) := by
  have hdigit := fun c => @Text.isDigit_of_mem_natDigits n c
  unfold splitSign
  split
  · next hdigits => exact absurd (hdigit '-' (by simp [hdigits])) (by decide)
  · next hdigits => exact absurd (hdigit '+' (by simp [hdigits])) (by decide)
  · rfl

/-- A word is read back from its digits and its sign. -/
theorem readInteger?_intDigits (n : Int64) : readInteger? (Text.intDigits n.toInt) = some n := by
  have hempty : (Text.natDigits n.toInt.natAbs).isEmpty = false :=
    List.isEmpty_eq_false_iff.mpr (Text.natDigits_ne_nil _)
  have hall : (Text.natDigits n.toInt.natAbs).all Text.isDigit = true :=
    List.all_eq_true.mpr fun _ => Text.isDigit_of_mem_natDigits
  unfold Text.intDigits
  by_cases hnegative : n.toInt < 0
  · have hvalue : -(n.toInt.natAbs : Int) = n.toInt := by omega
    rw [if_pos hnegative]
    simp only [readInteger?, splitSign, hempty, hall, Text.natOfDigits_natDigits, Bool.not_true,
      Bool.or_self, Bool.false_eq_true, if_false, if_true, Int.ofNat_eq_natCast, hvalue,
      Word.ofInt?_toInt]
  · have hvalue : (n.toInt.natAbs : Int) = n.toInt := by omega
    rw [if_neg hnegative]
    simp only [readInteger?, splitSign_natDigits, hempty, hall, Text.natOfDigits_natDigits,
      Bool.not_true, Bool.or_self, Bool.false_eq_true, if_false, Int.ofNat_eq_natCast, hvalue,
      Word.ofInt?_toInt]

end Decimal

end RecordQuery
