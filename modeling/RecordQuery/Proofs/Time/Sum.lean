import RecordQuery.Arithmetic

/-!
Sums and differences of durations. The parts of a sum are the exact sums of the parts,
clamped. A difference is the sum with the negated duration, and so it is clamped twice: the
least word has no negative among the words, and the negated part is one too small.

The second clamping takes this one off again, unless the part in front is negative and has
led away from the end of the range. The main statement says that sums are exact, that
differences are just if this occurs in no part, and by how much they miss it otherwise.
-/

namespace RecordQuery

namespace Duration

/-- The parts of a duration. -/
def parts : List (Duration → Int64) :=
  [months, days, seconds]

/-- The duration whose parts are those of two, joined as exact numbers and then clamped. -/
def joinParts (join : Int → Int → Int) (a b : Duration) : Duration where
  months := Word.clamp (join a.months.toInt b.months.toInt)
  days := Word.clamp (join a.days.toInt b.days.toInt)
  seconds := Word.clamp (join a.seconds.toInt b.seconds.toInt)

/-- Taking the second word off the first one misses the difference: the second has no
negative, and the first leads into the range. -/
def FallsShort (a b : Int64) : Prop :=
  a.toInt < 0 ∧ b.toInt = Word.least

instance (a b : Int64) : Decidable (FallsShort a b) :=
  inferInstanceAs (Decidable (_ ∧ _))

theorem plus_eq_joinParts (a b : Duration) : a.plus b = joinParts (· + ·) a b :=
  rfl

/-- Only the least word is not negated exactly. -/
theorem toInt_clampedNeg (b : Int64) :
    (clampedNeg b).toInt = if b.toInt = Word.least then Word.greatest else -b.toInt := by
  obtain ⟨hleast, hgreatest⟩ := Word.toInt_range b
  have hends : Word.greatest = -Word.least - 1 := rfl
  rw [clampedNeg, Word.toInt_clamp]
  split <;> omega

/-- A difference is the exact one, clamped, or falls short of it by one. -/
theorem toInt_clampedAdd_clampedNeg (a b : Int64) :
    (clampedAdd a (clampedNeg b)).toInt =
      (Word.clamp (a.toInt - b.toInt)).toInt - if FallsShort a b then 1 else 0 := by
  obtain ⟨hleast, hgreatest⟩ := Word.toInt_range a
  have hends : Word.greatest = -Word.least - 1 ∧ Word.least < 0 := by decide
  rw [clampedAdd, Word.toInt_clamp, Word.toInt_clamp, toInt_clampedNeg]
  by_cases h : FallsShort a b
  · have hneg : a.toInt < 0 := h.1
    rw [if_pos h, if_pos h.2, h.2]
    omega
  · have hshort : ¬(a.toInt < 0 ∧ b.toInt = Word.least) := h
    rw [if_neg h]
    split <;> omega

theorem clampedAdd_clampedNeg_eq_iff (a b : Int64) :
    clampedAdd a (clampedNeg b) = Word.clamp (a.toInt - b.toInt) ↔ ¬FallsShort a b := by
  rw [← Int64.toInt_inj, toInt_clampedAdd_clampedNeg]
  split
  · next h => exact iff_of_false (by omega) (not_not_intro h)
  · next h => exact iff_of_true (Int.sub_zero _) h

/-- The part of a difference. -/
theorem toInt_part_difference (a b : Duration) :
    ∀ part ∈ parts, (part (a.plus b.negate)).toInt =
      (part (joinParts (· - ·) a b)).toInt - if FallsShort (part a) (part b) then 1 else 0 := by
  simp only [parts, List.forall_mem_cons]
  exact ⟨toInt_clampedAdd_clampedNeg a.months b.months, toInt_clampedAdd_clampedNeg a.days b.days,
    toInt_clampedAdd_clampedNeg a.seconds b.seconds, by simp⟩

/-- The difference is exact just if it is in all parts. -/
theorem difference_eq_joinParts_iff (a b : Duration) :
    a.plus b.negate = joinParts (· - ·) a b ↔ ∀ part ∈ parts, ¬FallsShort (part a) (part b) := by
  simp only [parts, List.forall_mem_cons, ← clampedAdd_clampedNeg_eq_iff, plus, negate, joinParts,
    Duration.mk.injEq]
  simp

/-- The sum of two durations has the exact sums of their parts, clamped. Their difference
has the exact differences, clamped, if and only if no part of the first is negative where
the second has the least word. Such a part, and no other, is one too small. -/
theorem combine_durations_exact_iff (a b : Duration) :
    ArithmeticOperator.add.combine (.scalar (.duration a)) (.scalar (.duration b)) =
        .ok (.duration (joinParts (· + ·) a b)) ∧
      (ArithmeticOperator.sub.combine (.scalar (.duration a)) (.scalar (.duration b)) =
          .ok (.duration (joinParts (· - ·) a b)) ↔
        ∀ part ∈ parts, ¬FallsShort (part a) (part b)) ∧
      ∃ d, ArithmeticOperator.sub.combine (.scalar (.duration a)) (.scalar (.duration b)) =
          .ok (.duration d) ∧
        ∀ part ∈ parts, (part d).toInt = (part (joinParts (· - ·) a b)).toInt -
          if FallsShort (part a) (part b) then 1 else 0 := by
  have hadd : ArithmeticOperator.add.combine (.scalar (.duration a)) (.scalar (.duration b)) =
      .ok (.duration (a.plus b)) := rfl
  have hsub : ArithmeticOperator.sub.combine (.scalar (.duration a)) (.scalar (.duration b)) =
      .ok (.duration (a.plus b.negate)) := rfl
  refine ⟨?_, ?_, a.plus b.negate, hsub, toInt_part_difference a b⟩
  · rw [hadd, plus_eq_joinParts]
  · rw [hsub, ← difference_eq_joinParts_iff]
    simp

/-- The least number of days, taken off minus one day, gives one day less than the greatest
number of days, which is the exact difference. -/
theorem difference_falls_short :
    let a : Duration := ⟨0, -1, 0⟩
    let b : Duration := ⟨0, -9223372036854775808, 0⟩
    joinParts (· - ·) a b = ⟨0, 9223372036854775807, 0⟩ ∧
      ArithmeticOperator.sub.combine (.scalar (.duration a)) (.scalar (.duration b)) =
        .ok (.duration ⟨0, 9223372036854775806, 0⟩) ∧
      ArithmeticOperator.sub.combine (.scalar (.duration a)) (.scalar (.duration b)) ≠
        .ok (.duration (joinParts (· - ·) a b)) := by
  intro a b
  have hexact : joinParts (· - ·) a b = ⟨0, 9223372036854775807, 0⟩ := by decide
  have hgiven : ArithmeticOperator.sub.combine (.scalar (.duration a)) (.scalar (.duration b)) =
      .ok (.duration ⟨0, 9223372036854775806, 0⟩) := rfl
  refine ⟨hexact, hgiven, ?_⟩
  rw [hexact, hgiven]
  simp

end Duration

end RecordQuery
