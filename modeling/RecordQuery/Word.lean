/-!
Whole numbers of 64 bits. Results of exact arithmetic are brought back into
this range in one of two ways: a number outside of it is refused, or it is
replaced by the end of the range that it lies beyond.
-/

namespace RecordQuery.Word

def least : Int := -9223372036854775808

def greatest : Int := 9223372036854775807

/-- The number as a word, if it is in range. -/
def ofInt? (n : Int) : Option Int64 :=
  if least ≤ n ∧ n ≤ greatest then some (Int64.ofInt n) else none

/-- The sum of two words, if it is in range. -/
def add? (a b : Int64) : Option Int64 :=
  ofInt? (a.toInt + b.toInt)

/-- The product of a word and a factor, if it is in range. -/
def mul? (a : Int64) (factor : Nat) : Option Int64 :=
  ofInt? (a.toInt * factor)

def clamp (n : Int) : Int64 :=
  if n < least then Int64.ofInt least
  else if greatest < n then Int64.ofInt greatest
  else Int64.ofInt n

theorem toInt_ofInt {n : Int} (low : least ≤ n) (high : n ≤ greatest) :
    (Int64.ofInt n).toInt = n := by
  unfold least at low
  unfold greatest at high
  exact Int64.toInt_ofInt_of_le (by omega) (by omega)

theorem toInt_clamp (n : Int) : (clamp n).toInt = max least (min n greatest) := by
  unfold clamp
  split
  · rw [toInt_ofInt (Int.le_refl _) (by decide)]
    omega
  · split
    · rw [toInt_ofInt (by decide) (Int.le_refl _)]
      have : least ≤ greatest := by decide
      omega
    · rw [toInt_ofInt (by omega) (by omega)]
      omega

/-- A word is in range. -/
theorem toInt_range (n : Int64) : least ≤ n.toInt ∧ n.toInt ≤ greatest := by
  have hlow := n.le_toInt
  have hhigh := n.toInt_lt
  unfold least greatest
  omega

theorem ofInt?_toInt (n : Int64) : ofInt? n.toInt = some n := by
  rw [ofInt?, if_pos (toInt_range n), Int64.ofInt_toInt]

theorem ofInt?_eq_some_iff (n : Int) (word : Int64) : ofInt? n = some word ↔ word.toInt = n := by
  constructor
  · intro h
    obtain ⟨⟨hlow, hhigh⟩, hword⟩ := Option.ite_none_right_eq_some.mp h
    rw [← Option.some.inj hword, toInt_ofInt hlow hhigh]
  · rintro rfl
    exact ofInt?_toInt word

theorem ofInt?_natCast_eq_none_iff (n : Nat) : ofInt? n = none ↔ greatest < n := by
  have hlow : least ≤ n := Int.le_trans (by decide) (Int.natCast_nonneg n)
  simp [ofInt?, hlow]

/-- Natural numbers are added in steps, since no number is greater than the sum. -/
theorem bind_add? {α : Type} (m n : Nat) (next : Int64 → Option α) :
    ((ofInt? m).bind fun a => (ofInt? n).bind fun b => (add? a b).bind next) =
      (ofInt? (m + n : Nat)).bind next := by
  cases ha : ofInt? m with
  | none =>
    have hsum : ofInt? (m + n : Nat) = none := by
      rw [ofInt?_natCast_eq_none_iff] at ha ⊢
      omega
    rw [hsum, Option.bind_none, Option.bind_none]
  | some a =>
    cases hb : ofInt? n with
    | none =>
      have hsum : ofInt? (m + n : Nat) = none := by
        rw [ofInt?_natCast_eq_none_iff] at hb ⊢
        omega
      rw [hsum, Option.bind_some, Option.bind_none, Option.bind_none]
    | some b =>
      rw [Option.bind_some, Option.bind_some, add?, (ofInt?_eq_some_iff m a).mp ha,
        (ofInt?_eq_some_iff n b).mp hb, Int.natCast_add]

/-- A natural number is multiplied after it was found in range, since it is not greater
than its product with a number that is not zero. -/
theorem bind_mul? (n factor : Nat) (h : 0 < factor) :
    ((ofInt? n).bind fun a => mul? a factor) = ofInt? (n * factor : Nat) := by
  cases ha : ofInt? n with
  | none =>
    have hproduct : ofInt? (n * factor : Nat) = none := by
      have hle := Nat.le_mul_of_pos_right n h
      rw [ofInt?_natCast_eq_none_iff] at ha ⊢
      omega
    rw [hproduct, Option.bind_none]
  | some a => rw [Option.bind_some, mul?, (ofInt?_eq_some_iff n a).mp ha, Int.natCast_mul]

end RecordQuery.Word
