import Mathlib.Algebra.Order.Field.Power
import Mathlib.Data.Rat.Cast.Order
import Mathlib.Tactic.Positivity
import Mathlib.Tactic.Ring

/-!
Whole numbers rounded to 53 bits. A magnitude with more bits is counted in units of the last
bit that there is room for, and the count is rounded: to the nearest one, and of two to the
even one.

Rounding keeps the order of whole numbers, though not strictly, and it does not pass by a
number whose mantissa has room. Up to two to the power of 53 it does nothing.
-/

namespace RecordQuery.Decimal

/-- The position of the last bit of a magnitude that a decimal has room for. -/
def unitExponent (n : Nat) : Nat :=
  n.log2 - 52

/-- How many units of the given size a magnitude has, rounded to the nearest number and of
two to the even one. -/
def roundedUnits (n k : Nat) : Nat :=
  if 2 * (n % 2 ^ k) < 2 ^ k then n / 2 ^ k
  else if 2 * (n % 2 ^ k) = 2 ^ k then n / 2 ^ k + n / 2 ^ k % 2
  else n / 2 ^ k + 1

/-- The number with at most 53 significant bits that is nearest to a magnitude. -/
def roundMagnitude (n : Nat) : Nat :=
  roundedUnits n (unitExponent n) * 2 ^ unitExponent n

def roundInt (n : Int) : Int :=
  n.sign * roundMagnitude n.natAbs

theorem units_bounds (n k : Nat) :
    n / 2 ^ k ≤ roundedUnits n k ∧ roundedUnits n k ≤ n / 2 ^ k + 1 := by
  unfold roundedUnits
  split_ifs <;> omega

theorem quotient_lt (n : Nat) : n / 2 ^ unitExponent n < 2 ^ 53 := by
  have hlog : n.log2 + 1 ≤ 53 + unitExponent n := by unfold unitExponent; omega
  rw [Nat.div_lt_iff_lt_mul (Nat.two_pow_pos _), ← Nat.pow_add]
  exact Nat.lt_log2_self.trans_le (Nat.pow_le_pow_right (by decide) hlog)

/-- A magnitude of many bits has as many units as there is room for. -/
theorem le_quotient (n : Nat) (hn : 2 ^ 52 ≤ n) : 2 ^ 52 ≤ n / 2 ^ unitExponent n := by
  have hlog : 52 ≤ n.log2 := (Nat.le_log2 (by omega)).mpr hn
  have hunit : n.log2 = 52 + unitExponent n := by unfold unitExponent; omega
  rw [Nat.le_div_iff_mul_le (Nat.two_pow_pos _), ← Nat.pow_add, ← hunit]
  exact Nat.log2_self_le (by omega)

/-- A rounded magnitude is one of the two multiples of the unit beside it. -/
theorem roundMagnitude_bounds (n : Nat) :
    n / 2 ^ unitExponent n * 2 ^ unitExponent n ≤ roundMagnitude n ∧
      roundMagnitude n ≤ (n / 2 ^ unitExponent n + 1) * 2 ^ unitExponent n :=
  ⟨Nat.mul_le_mul_right _ (units_bounds n _).1, Nat.mul_le_mul_right _ (units_bounds n _).2⟩

theorem roundMagnitude_of_multiple (n : Nat)
    (h : n / 2 ^ unitExponent n * 2 ^ unitExponent n = n) : roundMagnitude n = n := by
  have hrest : n % 2 ^ unitExponent n = 0 := by
    have := Nat.div_add_mod' n (2 ^ unitExponent n)
    omega
  rw [roundMagnitude, roundedUnits, hrest, if_pos (Nat.two_pow_pos _), h]

/-- There is room for every magnitude up to two to the power of 53. -/
theorem roundMagnitude_of_small (n : Nat) (hn : n ≤ 2 ^ 53) : roundMagnitude n = n := by
  rcases hn.lt_or_eq with hlt | rfl
  · have hunit : unitExponent n = 0 := by
      unfold unitExponent
      rcases Nat.eq_zero_or_pos n with rfl | hpos
      · rfl
      · have := (Nat.log2_lt (by omega)).mpr hlt
        omega
    exact roundMagnitude_of_multiple n (by simp [hunit])
  · decide

theorem roundedUnits_mono (k : Nat) {n n' : Nat} (h : n ≤ n') :
    roundedUnits n k ≤ roundedUnits n' k := by
  have hdiv := Nat.div_add_mod n (2 ^ k)
  have hdiv' := Nat.div_add_mod n' (2 ^ k)
  rcases (Nat.div_le_div_right (c := 2 ^ k) h).lt_or_eq with hlt | heq
  · have := (units_bounds n k).2
    have := (units_bounds n' k).1
    omega
  · -- With as many units the larger rest decides.
    have hrest : n % 2 ^ k ≤ n' % 2 ^ k := by
      rw [heq] at hdiv
      omega
    unfold roundedUnits
    rw [heq]
    split_ifs <;> omega

theorem roundMagnitude_mono {n n' : Nat} (h : n ≤ n') : roundMagnitude n ≤ roundMagnitude n' := by
  rcases Nat.eq_zero_or_pos n with rfl | hpos
  · simp [roundMagnitude_of_small]
  have hlog : n.log2 ≤ n'.log2 :=
    (Nat.le_log2 (by omega)).mpr ((Nat.log2_self_le (by omega)).trans h)
  have hunit : unitExponent n ≤ unitExponent n' := Nat.sub_le_sub_right hlog 52
  rcases hunit.lt_or_eq with hlt | heq
  · have hlog : 52 ≤ n'.log2 := by unfold unitExponent at hlt; omega
    have hn' : 2 ^ 52 ≤ n' := (Nat.le_log2 (by omega)).mp hlog
    calc roundMagnitude n ≤ 2 ^ 53 * 2 ^ unitExponent n :=
          (roundMagnitude_bounds n).2.trans (Nat.mul_le_mul_right _ (quotient_lt n))
      _ = 2 ^ 52 * 2 ^ (unitExponent n + 1) := by ring
      _ ≤ 2 ^ 52 * 2 ^ unitExponent n' :=
          Nat.mul_le_mul_left _ (Nat.pow_le_pow_right (by decide) hlt)
      _ ≤ roundMagnitude n' :=
          (Nat.mul_le_mul_right _ (le_quotient n' hn')).trans (roundMagnitude_bounds n').1
  · rw [roundMagnitude, roundMagnitude, heq]
    exact Nat.mul_le_mul_right _ (roundedUnits_mono _ h)

theorem roundInt_neg (n : Int) : roundInt (-n) = -roundInt n := by
  rw [roundInt, roundInt, Int.sign_neg, Int.natAbs_neg, neg_mul]

theorem roundInt_natCast (n : Nat) : roundInt n = roundMagnitude n := by
  rcases Nat.eq_zero_or_pos n with rfl | hpos
  · rfl
  · rw [roundInt, Int.sign_eq_one_of_pos (by omega), one_mul, Int.natAbs_natCast]

theorem roundInt_mono {n n' : Int} (h : n ≤ n') : roundInt n ≤ roundInt n' := by
  obtain ⟨m, rfl | rfl⟩ := n.eq_nat_or_neg <;> obtain ⟨m', rfl | rfl⟩ := n'.eq_nat_or_neg
  · rw [roundInt_natCast, roundInt_natCast]
    exact_mod_cast roundMagnitude_mono (by omega)
  · obtain rfl : m = 0 := by omega
    obtain rfl : m' = 0 := by omega
    exact le_rfl
  · rw [roundInt_neg, roundInt_natCast, roundInt_natCast]
    omega
  · rw [roundInt_neg, roundInt_neg, roundInt_natCast, roundInt_natCast, neg_le_neg_iff]
    exact_mod_cast roundMagnitude_mono (by omega)

theorem roundInt_of_small (n : Int) (hn : |n| ≤ 2 ^ 53) : roundInt n = n := by
  rw [roundInt, roundMagnitude_of_small n.natAbs (by rw [Int.abs_eq_natAbs] at hn; omega)]
  exact Int.sign_mul_natAbs n

/-- Of two mantissas, one of which has 53 bits, that with the larger exponent is larger. -/
theorem binary_lt {m m' : Rat} {e e' : Int} (hm : m < 2 ^ 53) (hm' : 2 ^ 52 ≤ m') (h : e < e') :
    m * 2 ^ e < m' * 2 ^ e' := by
  calc m * 2 ^ e < 2 ^ 53 * 2 ^ e := by gcongr
    _ = 2 ^ 52 * 2 ^ (e + 1) := by rw [zpow_add_one₀ (by norm_num)]; ring
    _ ≤ 2 ^ 52 * 2 ^ e' := by gcongr; exacts [by norm_num, h]
    _ ≤ m' * 2 ^ e' := by gcongr

/-- A number with a mantissa that there is room for. -/
def IsBinary (x : Rat) : Prop :=
  ∃ (m e : Int), |m| < 2 ^ 53 ∧ x = m * 2 ^ e

theorem IsBinary.neg {x : Rat} (h : IsBinary x) : IsBinary (-x) := by
  obtain ⟨m, e, hm, rfl⟩ := h
  exact ⟨-m, e, by rwa [abs_neg], by push_cast; ring⟩

/-- Behind a number with a mantissa of 53 bits the next one is a unit further on. -/
theorem IsBinary.next_le {x : Rat} (hx : IsBinary x) (q k : Nat) (hq : 2 ^ 52 ≤ q)
    (h : (q : Rat) * 2 ^ k < x) : ((q : Rat) + 1) * 2 ^ k ≤ x := by
  obtain ⟨m, e, hm, rfl⟩ := hx
  have hq : (2 : Rat) ^ 52 ≤ q := by exact_mod_cast hq
  have hm : (m : Rat) < 2 ^ 53 := by exact_mod_cast (abs_lt.mp hm).2
  have hexponent : (k : Int) ≤ e := by
    by_contra hlt
    have hbelow := binary_lt hm hq (not_le.mp hlt)
    rw [zpow_natCast] at hbelow
    exact absurd h hbelow.not_gt
  obtain ⟨d, rfl⟩ := Int.le.dest hexponent
  have hunits : (m : Rat) * 2 ^ ((k : Int) + d) = ((m * 2 ^ d : Int) : Rat) * 2 ^ k := by
    rw [zpow_add₀ (by norm_num), zpow_natCast, zpow_natCast]
    push_cast
    ring
  have hunit : (0 : Rat) < 2 ^ k := by positivity
  rw [hunits] at h ⊢
  have hlt : (q : Int) < m * 2 ^ d := by exact_mod_cast lt_of_mul_lt_mul_right h hunit.le
  have hle : (q : Int) + 1 ≤ m * 2 ^ d := hlt
  gcongr
  exact_mod_cast hle

/-- Rounding a magnitude does not pass by a number with a mantissa that there is room for. -/
theorem roundMagnitude_faithful (n : Nat) {x : Rat} (hx : IsBinary x) :
    (x ≤ n → x ≤ roundMagnitude n) ∧ (n ≤ x → roundMagnitude n ≤ x) := by
  rcases Nat.lt_or_ge n (2 ^ 53) with hsmall | hlarge
  · rw [roundMagnitude_of_small n hsmall.le]
    exact ⟨id, id⟩
  have hnext := hx.next_le _ (unitExponent n) (le_quotient n (by omega))
  obtain ⟨hlow, hhigh⟩ := roundMagnitude_bounds n
  constructor
  · intro hle
    by_contra hlt
    -- The number would be beyond the lower multiple, and so beyond the upper one.
    have hlow : ((n / 2 ^ unitExponent n : Nat) : Rat) * 2 ^ unitExponent n ≤
        roundMagnitude n := by exact_mod_cast hlow
    have hreach := hnext (hlow.trans_lt (not_le.mp hlt))
    have habove : (n : Rat) < ((n / 2 ^ unitExponent n : Nat) + 1) * 2 ^ unitExponent n := by
      rw [mul_comm]
      exact_mod_cast Nat.lt_mul_div_succ n (Nat.two_pow_pos _)
    exact absurd (hreach.trans hle) habove.not_ge
  · intro hle
    rcases (Nat.div_mul_le_self n (2 ^ unitExponent n)).lt_or_eq with hlt | heq
    · have hlt : ((n / 2 ^ unitExponent n : Nat) : Rat) * 2 ^ unitExponent n < n := by
        exact_mod_cast hlt
      have hhigh : (roundMagnitude n : Rat) ≤
          ((n / 2 ^ unitExponent n : Nat) + 1) * 2 ^ unitExponent n := by exact_mod_cast hhigh
      exact hhigh.trans (hnext (hlt.trans_le hle))
    · rwa [roundMagnitude_of_multiple n heq]

/-- So does not rounding an integer. -/
theorem roundInt_faithful (n : Int) {x : Rat} (hx : IsBinary x) :
    (x ≤ n → x ≤ roundInt n) ∧ (n ≤ x → roundInt n ≤ x) := by
  obtain ⟨m, rfl | rfl⟩ := n.eq_nat_or_neg
  · rw [roundInt_natCast]
    exact_mod_cast roundMagnitude_faithful m hx
  · have h := roundMagnitude_faithful m hx.neg
    rw [roundInt_neg, roundInt_natCast]
    push_cast
    exact ⟨fun hle => le_neg.mp (h.2 (le_neg.mp hle)), fun hle => neg_le.mp (h.1 (neg_le.mp hle))⟩

end RecordQuery.Decimal
