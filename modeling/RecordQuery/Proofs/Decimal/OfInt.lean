import RecordQuery.Proofs.Decimal.Exact

/-!
Whole numbers as decimals. The conversion shifts a magnitude until its mantissa has 53 bits and
keeps two bits of what it shifts out: the last one, and whether there is anything else. They
suffice to round the mantissa, which may take one bit more. The result is the number that the
magnitude is rounded to, and the sign is put on afterwards.
-/

namespace RecordQuery.Decimal

open Float.Model (UnpackedFloat Format totalExponent)
open Float.Model.UnpackedFloat (Sign ExtendedMantissa packComponents shiftToTargetExponent)

section Shift

/-- The two bits beyond a mantissa tell how the rest compares to one half of a unit. -/
structure Describes (em : ExtendedMantissa) (n k : Nat) : Prop where
  mantissa : em.mantissa = n / 2 ^ k
  roundBit : em.roundBit = true ↔ 2 ^ k ≤ 2 * (n % 2 ^ k)
  stickyBit : em.stickyBit = true ↔ n % 2 ^ k ≠ 0 ∧ 2 * (n % 2 ^ k) ≠ 2 ^ k

theorem describes_shiftRightOne {em : ExtendedMantissa} {n k : Nat} (h : Describes em n k) :
    Describes em.shiftRightOne n (k + 1) := by
  have hrest : n % 2 ^ (k + 1) = n % 2 ^ k + 2 ^ k * (n / 2 ^ k % 2) := by
    rw [Nat.pow_succ, Nat.mod_mul]
  have hlt : n % 2 ^ k < 2 ^ k := Nat.mod_lt _ (Nat.two_pow_pos k)
  have hpow : 2 ^ (k + 1) = 2 * 2 ^ k := Nat.pow_succ'
  refine ⟨?_, ?_, ?_⟩
  · show em.mantissa / 2 = _
    rw [h.mantissa, Nat.div_div_eq_div_mul, ← Nat.pow_succ]
  · show (em.mantissa % 2 != 0) = true ↔ _
    rw [h.mantissa, hrest, hpow, bne_iff_ne]
    rcases Nat.mod_two_eq_zero_or_one (n / 2 ^ k) with hbit | hbit <;> rw [hbit] <;> omega
  · show (em.roundBit || em.stickyBit) = true ↔ _
    rw [Bool.or_eq_true, h.roundBit, h.stickyBit, hrest, hpow]
    rcases Nat.mod_two_eq_zero_or_one (n / 2 ^ k) with hbit | hbit <;> rw [hbit] <;> omega

theorem describes_shift (n k : Nat) :
    Describes ((⟨n, false, false⟩ : ExtendedMantissa) >>> k) n k := by
  induction k with
  | zero =>
      refine ⟨(Nat.div_one n).symm, ?_, ?_⟩
      · show false = true ↔ 1 ≤ 2 * (n % 1)
        simp [Nat.mod_one]
      · show false = true ↔ n % 1 ≠ 0 ∧ 2 * (n % 1) ≠ 1
        simp [Nat.mod_one]
  | succ k ih => exact describes_shiftRightOne ih

theorem roundedMantissa_shift (n k : Nat) :
    ((⟨n, false, false⟩ : ExtendedMantissa) >>> k).roundedMantissa = roundedUnits n k := by
  have h := describes_shift n k
  generalize (⟨n, false, false⟩ : ExtendedMantissa) >>> k = em at h ⊢
  obtain ⟨mantissa, roundBit, stickyBit⟩ := em
  obtain ⟨rfl, hround, hsticky⟩ := h
  have hunit := Nat.two_pow_pos k
  cases roundBit with
  | false =>
      have hless : 2 * (n % 2 ^ k) < 2 ^ k := by simpa using hround
      rw [roundedUnits, if_pos hless]
      cases stickyBit <;> rfl
  | true =>
      have hhalf : 2 ^ k ≤ 2 * (n % 2 ^ k) := hround.mp rfl
      rw [roundedUnits, if_neg hhalf.not_gt]
      cases stickyBit with
      | false =>
          have hexact : 2 * (n % 2 ^ k) = 2 ^ k := by
            by_contra hne
            exact absurd (hsticky.mpr ⟨by omega, hne⟩) (by simp)
          rw [if_pos hexact]
          rfl
      | true =>
          rw [if_neg (hsticky.mp rfl).2]
          rfl

end Shift

section Carry

/-- A mantissa that fits stays as it is. -/
theorem shiftToTargetExponent_of_normal (m : Nat) (e : Int) (hlow : 2 ^ 52 ≤ m) (hhigh : m < 2 ^ 53)
    (he : -1074 ≤ e) : shiftToTargetExponent .binary64 m e .exact = (⟨m, false, false⟩, e) := by
  have hlog : m.log2 = 52 := (Nat.log2_eq_iff (by omega)).mpr ⟨hlow, hhigh⟩
  have htarget : Format.binary64.targetExponent (totalExponent m e) = e := by
    show max (((m.log2 : Int) + 1 + e) - 53) (-1074) = e
    omega
  rw [shiftToTargetExponent, htarget]
  simp [UnpackedFloat.shiftToExponent]
  rfl

/-- A mantissa with one bit more gives its last one, which is zero here. -/
theorem shiftToTargetExponent_of_carry (e : Int) (he : -1074 ≤ e) :
    shiftToTargetExponent .binary64 (2 ^ 53) e .exact = (⟨2 ^ 52, false, false⟩, e + 1) := by
  have htarget : Format.binary64.targetExponent (totalExponent (2 ^ 53) e) = e + 1 := by
    show max ((((2 ^ 53).log2 : Nat) : Int) + 1 + e - 53) (-1074) = e + 1
    rw [Nat.log2_two_pow]
    omega
  rw [shiftToTargetExponent, htarget]
  simp [UnpackedFloat.shiftToExponent]
  rfl

end Carry

/-- The parts of a decimal whose mantissa has 53 bits, without its sign. -/
structure Normal where
  mantissa : Nat
  exponent : Int
  low : 2 ^ 52 ≤ mantissa
  high : mantissa < 2 ^ 53
  least : -1074 ≤ exponent
  greatest : exponent ≤ 971

namespace Normal

def signed (parts : Normal) (sign : Sign) : UnpackedFloat :=
  .finite sign parts.mantissa parts.exponent (by have := parts.low; omega)

def toRat (parts : Normal) : Rat :=
  parts.mantissa * 2 ^ parts.exponent

/-- Components that make a number with all bits of its mantissa. -/
theorem unpack_packComponents (sign : Sign) (exponent : BitVec 11) (mantissa : BitVec 52)
    (hzero : exponent ≠ 0#11) (hones : exponent ≠ -1#11) :
    UnpackedFloat.unpack .binary64 (packComponents .binary64 sign exponent mantissa) =
      .finite sign (2 ^ 52 + mantissa.toNat) (exponent.toNat - 1075) (by omega) := by
  simp only [UnpackedFloat.unpack, UnpackedFloat.unpackExponent_packComponents,
    UnpackedFloat.unpackMantissa_packComponents, UnpackedFloat.unpackSign_packComponents]
  rw [if_neg hones, if_neg hzero, UnpackedFloat.finite.injEq]
  exact ⟨Sign.ofBitVec_toBitVec sign, toNat_implicit mantissa, rfl⟩

/-- The parts come back from the bits. -/
theorem unpack_pack (parts : Normal) (sign : Sign) :
    (Float.Model.pack (parts.signed sign)).unpack = parts.signed sign := by
  obtain ⟨m, e, hlow, hhigh, hleast, hgreatest⟩ := parts
  have hpos : 0 < m := by omega
  obtain ⟨biased, hbiased⟩ : ∃ biased : Nat, (biased : Int) = e + 1075 :=
    ⟨(e + 1075).toNat, by omega⟩
  have hlog : m.log2 = 52 := (Nat.log2_eq_iff (by omega)).mpr ⟨hlow, hhigh⟩
  have hpack : UnpackedFloat.pack .binary64 (.finite sign m e hpos) =
      packComponents .binary64 sign (.ofNat 11 biased) (.ofNat 52 m) := by
    have hexponent : (e + Format.binary64.exponentBias + (52 : Nat)).toNat = biased := by
      show (e + (1023 : Nat) + (52 : Nat)).toNat = biased
      omega
    rw [UnpackedFloat.pack]
    simp only [hlog, hexponent]
    rw [if_neg (by omega), if_pos (show 52 + 1 = Format.binary64.mantissaBits from rfl)]
  have hexponent : (BitVec.ofNat 11 biased).toNat = biased :=
    Nat.mod_eq_of_lt (by omega)
  have hmantissa : (BitVec.ofNat 52 m).toNat = m - 2 ^ 52 := by
    rw [BitVec.toNat_ofNat]
    omega
  have hzero : BitVec.ofNat 11 biased ≠ 0#11 := by
    intro h
    have h : biased = 0 := hexponent.symm.trans (congrArg BitVec.toNat h)
    omega
  have hones : BitVec.ofNat 11 biased ≠ -1#11 := by
    intro h
    have h : biased = 2047 := hexponent.symm.trans (congrArg BitVec.toNat h)
    omega
  show UnpackedFloat.unpack .binary64 (UnpackedFloat.pack .binary64 (.finite sign m e hpos)) =
    .finite sign m e hpos
  rw [hpack, unpack_packComponents sign _ _ hzero hones, UnpackedFloat.finite.injEq]
  refine ⟨rfl, ?_, ?_⟩
  · rw [hmantissa]
    omega
  · rw [hexponent]
    omega

end Normal

section Rounding

/-- A mantissa that is rounded to one with 53 bits, or to the first one with more. -/
theorem roundWithAccuracy_eq (sign : Sign) (n : Nat) (e e' : Int) (em : ExtendedMantissa)
    (hshift : shiftToTargetExponent .binary64 n e .exact = (em, e')) (hleast : -1074 ≤ e')
    (hgreatest : e' < 971) (hlow : 2 ^ 52 ≤ em.roundedMantissa)
    (hhigh : em.roundedMantissa ≤ 2 ^ 53) :
    ∃ parts : Normal,
      UnpackedFloat.roundWithAccuracy .binary64 sign n e .exact = parts.signed sign ∧
        parts.toRat = em.roundedMantissa * 2 ^ e' := by
  rw [UnpackedFloat.roundWithAccuracy, hshift]
  rcases hhigh.lt_or_eq with hlt | heq
  · refine ⟨⟨em.roundedMantissa, e', hlow, hlt, hleast, hgreatest.le⟩, ?_, rfl⟩
    simp only [shiftToTargetExponent_of_normal _ e' hlow hlt hleast]
    exact dif_neg (by omega)
  · refine ⟨⟨2 ^ 52, e' + 1, le_rfl, by decide, by omega, hgreatest⟩, ?_, ?_⟩
    · simp only [heq, shiftToTargetExponent_of_carry e' hleast]
      rfl
    · rw [Normal.toRat, heq, zpow_add_one₀ (by norm_num)]
      push_cast
      ring

/-- Where there is room for all bits, zeros are added behind them. -/
theorem round_of_small (sign : Sign) (n : Nat) (hpos : 0 < n) (hn : n < 2 ^ 53) :
    ∃ parts : Normal, UnpackedFloat.round .binary64 sign n 0 = parts.signed sign ∧
      parts.toRat = roundMagnitude n := by
  have hlog : n.log2 < 53 := (Nat.log2_lt (by omega)).mpr hn
  obtain ⟨zeros, hzeros⟩ : ∃ zeros, n.log2 + zeros = 52 := ⟨52 - n.log2, by omega⟩
  have htarget : Format.binary64.targetExponent (totalExponent n 0) = -zeros := by
    show max ((n.log2 : Int) + 1 + 0 - 53) (-1074) = _
    omega
  have hdecrease :
      UnpackedFloat.decreaseExponent n 0 (-zeros) = (n * 2 ^ zeros, -(zeros : Int)) := by
    simp [UnpackedFloat.decreaseExponent, Nat.shiftLeft_eq]
  have hlow : 2 ^ 52 ≤ n * 2 ^ zeros := by
    rw [← hzeros, Nat.pow_add]
    exact Nat.mul_le_mul_right _ (Nat.log2_self_le (by omega))
  have hhigh : n * 2 ^ zeros < 2 ^ 53 := by
    have h53 : 53 = n.log2 + 1 + zeros := by omega
    rw [h53, Nat.pow_add]
    exact Nat.mul_lt_mul_of_pos_right Nat.lt_log2_self (Nat.two_pow_pos zeros)
  have hshift := shiftToTargetExponent_of_normal _ (-zeros) hlow hhigh (by omega)
  obtain ⟨parts, hround, htoRat⟩ :=
    roundWithAccuracy_eq sign _ _ _ _ hshift (by omega) (by omega) hlow hhigh.le
  refine ⟨parts, ?_, ?_⟩
  · simp only [UnpackedFloat.round, htarget, hdecrease]
    exact hround
  · have hmantissa : (⟨n * 2 ^ zeros, false, false⟩ : ExtendedMantissa).roundedMantissa =
        n * 2 ^ zeros := rfl
    rw [htoRat, hmantissa, roundMagnitude_of_small n hn.le]
    push_cast
    rw [mul_assoc, ← zpow_natCast, ← zpow_add₀ (by norm_num), add_neg_cancel, zpow_zero, mul_one]

/-- Where there is not, as many bits are shifted out as there is no room for. -/
theorem round_of_large (sign : Sign) (n : Nat) (hlow : 2 ^ 53 ≤ n) (hn : n < 2 ^ 64) :
    ∃ parts : Normal, UnpackedFloat.round .binary64 sign n 0 = parts.signed sign ∧
      parts.toRat = roundMagnitude n := by
  have hlog : n.log2 < 64 := (Nat.log2_lt (by omega)).mpr hn
  have hlog' : 53 ≤ n.log2 := (Nat.le_log2 (by omega)).mpr hlow
  have hunit : unitExponent n < 12 := by unfold unitExponent; omega
  have htarget : Format.binary64.targetExponent (totalExponent n 0) = unitExponent n := by
    show max ((n.log2 : Int) + 1 + 0 - 53) (-1074) = _
    unfold unitExponent
    omega
  have hdecrease : UnpackedFloat.decreaseExponent n 0 (unitExponent n) = (n, 0) := by
    simp [UnpackedFloat.decreaseExponent]
  have hshift : shiftToTargetExponent .binary64 n 0 .exact =
      ((⟨n, false, false⟩ : ExtendedMantissa) >>> unitExponent n, (unitExponent n : Int)) := by
    simp [shiftToTargetExponent, UnpackedFloat.shiftToExponent, htarget]
    rfl
  have hmantissa := roundedMantissa_shift n (unitExponent n)
  have hquotient := le_quotient n (by omega)
  have hquotient' := quotient_lt n
  have hunits := units_bounds n (unitExponent n)
  obtain ⟨parts, hround, htoRat⟩ :=
    roundWithAccuracy_eq sign _ _ _ _ hshift (by omega) (by omega) (by omega) (by omega)
  refine ⟨parts, ?_, ?_⟩
  · simp only [UnpackedFloat.round, htarget, hdecrease]
    exact hround
  · rw [htoRat, hmantissa, roundMagnitude]
    push_cast
    rw [zpow_natCast]

theorem round_magnitude (sign : Sign) (n : Nat) (hpos : 0 < n) (hn : n < 2 ^ 64) :
    ∃ parts : Normal, UnpackedFloat.round .binary64 sign n 0 = parts.signed sign ∧
      parts.toRat = roundMagnitude n := by
  rcases Nat.lt_or_ge n (2 ^ 53) with hsmall | hlarge
  · exact round_of_small sign n hpos hsmall
  · exact round_of_large sign n hlarge hn

end Rounding

/-- The parts of a magnitude as a decimal. -/
theorem unpack_toFloat (n : Nat) (hpos : 0 < n) (hn : n < 2 ^ 64) :
    ∃ parts : Normal, (UInt64.ofNat n).toFloat.toModel.unpack = parts.signed .positive ∧
      parts.toRat = roundMagnitude n := by
  obtain ⟨parts, hround, htoRat⟩ := round_magnitude .positive n hpos hn
  refine ⟨parts, ?_, htoRat⟩
  have hword : (UInt64.ofNat n).toNat = n := UInt64.toNat_ofNat_of_lt hn
  have hcompare : compare (n : Int) 0 = .gt := compare_gt_iff_gt.mpr (by omega)
  have hnormalize : UnpackedFloat.normalize .binary64 n 0 .positive = parts.signed .positive := by
    rw [UnpackedFloat.normalize, hcompare]
    exact hround
  show (Float.Model.pack
    (UnpackedFloat.normalize .binary64 (UInt64.ofNat n).toNat 0 .positive)).unpack = _
  rw [hword, hnormalize, parts.unpack_pack]

/-- Whole numbers whose magnitude fits 64 bits are rounded. -/
theorem toRat_ofInt (n : Int) (hn : n.natAbs < 2 ^ 64) :
    (ofInt n).isFinite = true ∧ toRat (ofInt n) = roundInt n := by
  rcases lt_trichotomy n 0 with hneg | rfl | hpos
  · obtain ⟨parts, hunpack, htoRat⟩ := unpack_toFloat n.natAbs (by omega) hn
    have hofInt : (ofInt n).toModel.unpack = parts.signed .negative := by
      rw [ofInt, if_pos hneg]
      show (Float.Model.pack (UInt64.ofNat n.natAbs).toFloat.toModel.unpack.neg).unpack = _
      rw [hunpack]
      exact parts.unpack_pack .negative
    refine ⟨by rw [Float.isFinite, Float.Model.isFinite, hofInt]; rfl, ?_⟩
    rw [toRat, hofInt, Normal.signed, unpackedToRat_negative, ← Normal.toRat, htoRat, roundInt,
      Int.sign_eq_neg_one_of_neg hneg]
    push_cast
    ring
  · exact ⟨rfl, rfl⟩
  · obtain ⟨parts, hunpack, htoRat⟩ := unpack_toFloat n.natAbs (by omega) hn
    have hofInt : (ofInt n).toModel.unpack = parts.signed .positive := by
      rw [ofInt, if_neg (by omega), hunpack]
    refine ⟨by rw [Float.isFinite, Float.Model.isFinite, hofInt]; rfl, ?_⟩
    rw [toRat, hofInt, Normal.signed, unpackedToRat_positive, ← Normal.toRat, htoRat, roundInt,
      Int.sign_eq_one_of_pos hpos]
    push_cast
    ring

end RecordQuery.Decimal
