import Mathlib
import RecordQuery.Scalar
import RecordQuery.Proofs.Decimal.Nearest

/-!
The numbers that decimals stand for. A finite decimal is a mantissa times a power of two, with
a sign, and its mantissa has 53 bits unless its exponent is the least one. So of two decimals
the one with the larger exponent is the larger in magnitude, and comparing them part by part
is comparing the rational numbers that they stand for.
-/

namespace RecordQuery.Decimal

open Float.Model (UnpackedFloat Format)
open Float.Model.UnpackedFloat (Sign)

/-- The rational number that a sign, a mantissa and an exponent stand for. The infinities
and what is no number stand for none, and have zero. -/
def unpackedToRat : UnpackedFloat → Rat
  | .finite sign mantissa exponent _ => (sign.apply mantissa : Int) * (2 : Rat) ^ exponent
  | _ => 0

/-- The rational number that a finite decimal stands for. -/
def toRat (x : Float) : Rat :=
  unpackedToRat x.toModel.unpack

/-- What a decimal is made of: a mantissa with 53 bits, or with fewer at the least exponent. -/
def IsCanonical : UnpackedFloat → Prop
  | .finite _ mantissa exponent _ =>
    mantissa < 2 ^ 53 ∧ -1074 ≤ exponent ∧ (2 ^ 52 ≤ mantissa ∨ exponent = -1074)
  | _ => True

theorem unpackedToRat_positive (m : Nat) (e : Int) (hm : 0 < m) :
    unpackedToRat (.finite .positive m e hm) = m * 2 ^ e := by
  simp [unpackedToRat, Sign.apply]

theorem unpackedToRat_negative (m : Nat) (e : Int) (hm : 0 < m) :
    unpackedToRat (.finite .negative m e hm) = -(m * 2 ^ e) := by
  simp [unpackedToRat, Sign.apply]

theorem unpackedToRat_pos (m : Nat) (e : Int) (hm : 0 < m) :
    0 < unpackedToRat (.finite .positive m e hm) := by
  rw [unpackedToRat_positive]
  positivity

theorem unpackedToRat_neg (m : Nat) (e : Int) (hm : 0 < m) :
    unpackedToRat (.finite .negative m e hm) < 0 := by
  rw [unpackedToRat_negative, neg_lt_zero]
  positivity

theorem toNat_implicit (mantissa : BitVec 52) :
    (1#1 ++ mantissa).toNat = 2 ^ 52 + mantissa.toNat := by
  rw [BitVec.toNat_append, ← Nat.shiftLeft_add_eq_or_of_lt mantissa.isLt]
  rfl

theorem isCanonical_unpack (x : Float.Model) : IsCanonical x.unpack := by
  unfold Float.Model.unpack
  fun_cases UnpackedFloat.unpack with
  | case1 | case2 | case3 => trivial
  | case4 mantissa exponent least sign _ _ hexponent =>
      have hmantissa : mantissa.toNat < 2 ^ 52 := mantissa.isLt
      have hleast : least = -1075 := by
        show ((exponent.toNat : Int) - ((1023 : Nat) + (52 : Nat))) = -1075
        simp [hexponent]
      show _ ∧ _ ∧ _
      omega
  | case5 mantissa exponent value sign _ _ hexponent =>
      have hmantissa : mantissa.toNat < 2 ^ 52 := mantissa.isLt
      have hvalue : value = exponent.toNat - 1075 := by
        show ((exponent.toNat : Int) - ((1023 : Nat) + (52 : Nat))) = exponent.toNat - 1075
        simp
      have hpos : exponent.toNat ≠ 0 :=
        fun h => hexponent (BitVec.eq_of_toNat_eq (by simpa using h))
      show _ ∧ _ ∧ _
      rw [toNat_implicit]
      omega

theorem isBinary_toRat (x : Float) : IsBinary (toRat x) := by
  have h := isCanonical_unpack x.toModel
  rw [toRat]
  cases hunpack : x.toModel.unpack with
  | finite sign m e hm =>
      rw [hunpack] at h
      have hbits : |((m : Nat) : Int)| < 2 ^ 53 := by
        rw [Nat.abs_cast]
        exact_mod_cast h.1
      cases sign with
      | positive => exact ⟨m, e, hbits, unpackedToRat_positive m e hm⟩
      | negative => exact ⟨-m, e, by rwa [abs_neg], by rw [unpackedToRat_negative]; push_cast; ring⟩
  | _ => exact ⟨0, 0, by norm_num, by simp [unpackedToRat]⟩

/-- Magnitudes are compared by exponent first. -/
theorem compare_magnitudes (m m' : Nat) (e e' : Int) (hm : 0 < m) (hm' : 0 < m')
    (h : IsCanonical (.finite .positive m e hm)) (h' : IsCanonical (.finite .positive m' e' hm')) :
    (compare e e').then (compare m m') = compare ((m : Rat) * 2 ^ e) (m' * 2 ^ e') := by
  obtain ⟨hbits, hleast, hnormal⟩ := h
  obtain ⟨hbits', hleast', hnormal'⟩ := h'
  have hbits : (m : Rat) < 2 ^ 53 := by exact_mod_cast hbits
  have hbits' : (m' : Rat) < 2 ^ 53 := by exact_mod_cast hbits'
  rcases lt_trichotomy e e' with hlt | rfl | hgt
  · have hm' : (2 : Rat) ^ 52 ≤ m' := by exact_mod_cast hnormal'.resolve_right (by omega)
    rw [compare_lt_iff_lt.mpr hlt, compare_lt_iff_lt.mpr (binary_lt hbits hm' hlt)]
    rfl
  · have hunit : (0 : Rat) < 2 ^ e := by positivity
    rw [compare_eq_iff_eq.mpr rfl, ← cmp_eq_compare ((m : Rat) * _), cmp_mul_pos_right hunit,
      Nat.strictMono_cast.cmp_map_eq, cmp_eq_compare]
    rfl
  · have hm : (2 : Rat) ^ 52 ≤ m := by exact_mod_cast hnormal.resolve_right (by omega)
    rw [compare_gt_iff_gt.mpr hgt, compare_gt_iff_gt.mpr (binary_lt hbits' hm hgt)]
    rfl

theorem compare_neg (x y : Rat) : compare (-x) (-y) = (compare x y).swap := by
  rw [← Std.OrientedOrd.eq_swap]
  rcases lt_trichotomy x y with h | rfl | h
  · rw [compare_gt_iff_gt.mpr h, compare_gt_iff_gt.mpr (neg_lt_neg h)]
  · rw [compare_eq_iff_eq.mpr rfl, compare_eq_iff_eq.mpr rfl]
  · rw [compare_lt_iff_lt.mpr h, compare_lt_iff_lt.mpr (neg_lt_neg h)]

/-- Decimals are compared as the numbers that they stand for. -/
theorem compare_unpacked (a b : UnpackedFloat) (ha : IsCanonical a) (hb : IsCanonical b)
    (hfa : a.isFinite = true) (hfb : b.isFinite = true) :
    a.compare b = some (compare (unpackedToRat a) (unpackedToRat b)) := by
  have below {x y : Rat} (h : x < y) : some .lt = some (compare x y) :=
    congrArg some (compare_lt_iff_lt.mpr h).symm
  have above {x y : Rat} (h : y < x) : some .gt = some (compare x y) :=
    congrArg some (compare_gt_iff_gt.mpr h).symm
  cases a with
  | infinity | notANumber => cases hfa
  | zero _ =>
      cases b with
      | infinity | notANumber => cases hfb
      | zero _ => exact congrArg some (compare_eq_iff_eq.mpr rfl).symm
      | finite sign' m' e' hm' =>
          cases sign' with
          | positive => exact below (unpackedToRat_pos m' e' hm')
          | negative => exact above (unpackedToRat_neg m' e' hm')
  | finite sign m e hm =>
      cases b with
      | infinity | notANumber => cases hfb
      | zero _ =>
          cases sign with
          | positive => exact above (unpackedToRat_pos m e hm)
          | negative => exact below (unpackedToRat_neg m e hm)
      | finite sign' m' e' hm' =>
          have hmagnitudes := compare_magnitudes m m' e e' hm hm' ha hb
          cases sign with
          | positive =>
              cases sign' with
              | positive =>
                rw [unpackedToRat_positive, unpackedToRat_positive, ← hmagnitudes]
                rfl
              | negative => exact above ((unpackedToRat_neg m' e' hm').trans (unpackedToRat_pos m e hm))
          | negative =>
              cases sign' with
              | positive => exact below ((unpackedToRat_neg m e hm).trans (unpackedToRat_pos m' e' hm'))
              | negative =>
                  rw [unpackedToRat_negative, unpackedToRat_negative, compare_neg, ← hmagnitudes]
                  rfl

section Finite

variable (a b : Float) (ha : a.isFinite = true) (hb : b.isFinite = true)

include ha hb

theorem compare_unpack :
    a.toModel.unpack.compare b.toModel.unpack = some (compare (toRat a) (toRat b)) :=
  compare_unpacked _ _ (isCanonical_unpack _) (isCanonical_unpack _) ha hb

theorem lt_iff_toRat_lt : a < b ↔ toRat a < toRat b := by
  have hcompare : a < b ↔ (a.toModel.unpack.compare b.toModel.unpack == some .lt) = true :=
    decide_eq_true_iff
  rw [hcompare, compare_unpack a b ha hb, beq_iff_eq, Option.some_inj, compare_lt_iff_lt]

theorem beq_iff_toRat_eq : (a == b) = true ↔ toRat a = toRat b := by
  show (a.toModel.unpack.compare b.toModel.unpack == some .eq) = true ↔ _
  rw [compare_unpack a b ha hb, beq_iff_eq, Option.some_inj, compare_eq_iff_eq]

/-- Finite decimals are compared as the numbers that they stand for. -/
theorem compareFloats_finite :
    Scalar.compareFloats a b = some (compare (toRat a) (toRat b)) := by
  rw [Scalar.compareFloats]
  simp only [lt_iff_toRat_lt a b ha hb, lt_iff_toRat_lt b a hb ha, beq_iff_toRat_eq a b ha hb]
  rcases lt_trichotomy (toRat a) (toRat b) with h | h | h
  · rw [if_pos h, compare_lt_iff_lt.mpr h]
  · rw [if_neg h.not_lt, if_neg h.not_gt, if_pos h, compare_eq_iff_eq.mpr h]
  · rw [if_neg h.not_gt, if_pos h, compare_gt_iff_gt.mpr h]

end Finite

end RecordQuery.Decimal
