import RecordQuery.Time.Duration

/-!
Nominal lengths of durations. The length of a duration in seconds is computed by clamped
steps: months, days, their sum, and then the seconds. A step that is clamped cuts
something off, and what comes after it starts from the end of the range.

While the parts have one sign this does no harm, since what is cut off lies beyond an
end at which the length stays. With parts of both signs a later part can lead back into
the range, and then the length is not the exact one. The main statement says when it is,
and that durations whose lengths are exact are ordered by them.
-/

namespace RecordQuery

namespace Word

/-- The number of the range of words that is nearest to a number. -/
def bounded (n : Int) : Int :=
  max least (min n greatest)

/-- Two numbers are brought into the range of words alike if they are the same or beyond
the same end. -/
theorem clamp_eq_clamp_iff (m n : Int) :
    clamp m = clamp n ↔ m = n ∨ (greatest ≤ m ∧ greatest ≤ n) ∨ (m ≤ least ∧ n ≤ least) := by
  have hrange : least < greatest := by decide
  rw [← Int64.toInt_inj, toInt_clamp, toInt_clamp]
  omega

end Word

namespace Duration

/-- The length of the months and days in seconds, as an exact number. -/
def calendarLength (d : Duration) : Int :=
  d.months.toInt * monthSeconds + d.days.toInt * daySeconds

/-- The length in seconds with months of 30 days, as an exact number. -/
def exactLength (d : Duration) : Int :=
  d.calendarLength + d.seconds.toInt

/-- What is left of the length of the months and days if every step stays in the range. -/
def keptCalendarLength (d : Duration) : Int :=
  Word.bounded (Word.bounded (d.months.toInt * monthSeconds) +
    Word.bounded (d.days.toInt * daySeconds))

/-- What the steps cut off is not missed: nothing is cut off, or the length is at or
beyond the same end of the range with it and without it. -/
def LosesNothing (d : Duration) : Prop :=
  d.keptCalendarLength = d.calendarLength ∨
    (Word.greatest ≤ d.keptCalendarLength + d.seconds.toInt ∧ Word.greatest ≤ d.exactLength) ∨
    (d.keptCalendarLength + d.seconds.toInt ≤ Word.least ∧ d.exactLength ≤ Word.least)

/-- No two parts have different signs. -/
def IsOfOneSign (d : Duration) : Prop :=
  (0 ≤ d.months.toInt ∧ 0 ≤ d.days.toInt ∧ 0 ≤ d.seconds.toInt) ∨
    (d.months.toInt ≤ 0 ∧ d.days.toInt ≤ 0 ∧ d.seconds.toInt ≤ 0)

/-- The exact length is in the range of words. -/
def HasWordLength (d : Duration) : Prop :=
  Word.least ≤ d.exactLength ∧ d.exactLength ≤ Word.greatest

instance (d : Duration) : Decidable d.LosesNothing :=
  inferInstanceAs (Decidable (_ ∨ _))

instance (d : Duration) : Decidable d.HasWordLength :=
  inferInstanceAs (Decidable (_ ∧ _))

/-- The seconds are added to what is left of the months and days. -/
theorem nominalLength_eq_clamp (d : Duration) :
    d.nominalLength = Word.clamp (d.keptCalendarLength + d.seconds.toInt) := by
  rw [nominalLength, clampedAdd, clampedAdd, clampedMul, clampedMul, Word.toInt_clamp,
    Word.toInt_clamp, Word.toInt_clamp]
  rfl

/-- The nominal length is the exact one, clamped, just if nothing is missed. -/
theorem nominalLength_eq_clamp_exactLength_iff (d : Duration) :
    d.nominalLength = Word.clamp d.exactLength ↔ d.LosesNothing := by
  rw [nominalLength_eq_clamp, Word.clamp_eq_clamp_iff, LosesNothing, exactLength, Int.add_left_inj]

/-- Parts of one sign lead away from zero, so that no part leads back from an end. -/
theorem losesNothing_of_isOfOneSign (d : Duration) (h : d.IsOfOneSign) : d.LosesNothing := by
  have hrange : Word.least < 0 ∧ 0 < Word.greatest := by decide
  unfold LosesNothing exactLength calendarLength keptCalendarLength Word.bounded
  unfold monthSeconds daySeconds
  rcases h with ⟨hmonths, hdays, hseconds⟩ | ⟨hmonths, hdays, hseconds⟩ <;> omega

theorem toInt_nominalLength (d : Duration) (h : d.LosesNothing) (hrange : d.HasWordLength) :
    d.nominalLength.toInt = d.exactLength := by
  obtain ⟨hleast, hgreatest⟩ := hrange
  rw [d.nominalLength_eq_clamp_exactLength_iff.mpr h, Word.toInt_clamp]
  omega

/-- Durations with different nominal lengths are ordered by them. -/
theorem compare_of_toInt_ne (a b : Duration)
    (h : a.nominalLength.toInt ≠ b.nominalLength.toInt) :
    a.compare b = compareOfLessAndEq a.nominalLength.toInt b.nominalLength.toInt := by
  unfold compare compareWords compareOfLessAndEq
  rw [if_neg h]
  split <;> rfl

/-- The nominal length of a duration is the exact one, clamped, if and only if what the
steps cut off is not missed, and so for all durations with parts of one sign. Two such
durations with different exact lengths in the range are ordered by them. -/
theorem nominalLength_exact_iff (a b : Duration) :
    (a.nominalLength = Word.clamp a.exactLength ↔ a.LosesNothing) ∧
      (a.IsOfOneSign → a.LosesNothing) ∧
      (a.LosesNothing → b.LosesNothing → a.HasWordLength → b.HasWordLength →
        a.exactLength ≠ b.exactLength →
          a.compare b = compareOfLessAndEq a.exactLength b.exactLength) := by
  refine ⟨a.nominalLength_eq_clamp_exactLength_iff, a.losesNothing_of_isOfOneSign, ?_⟩
  intro ha hb harange hbrange hne
  have hlengthA := a.toInt_nominalLength ha harange
  have hlengthB := b.toInt_nominalLength hb hbrange
  rw [← hlengthA, ← hlengthB] at hne ⊢
  exact a.compare_of_toInt_ne b hne

/-- A month less 29 days is longer than a day less a second, and with parts of one sign
far beyond the end of the range the length is the greatest word. -/
theorem nominalLength_exact_iff_of_month :
    let month : Duration := ⟨1, -29, 0⟩
    let day : Duration := ⟨0, 1, -1⟩
    let longest : Duration := ⟨9223372036854775807, 9223372036854775807, 1⟩
    month.LosesNothing ∧ day.LosesNothing ∧ month.HasWordLength ∧ day.HasWordLength ∧
      month.exactLength ≠ day.exactLength ∧ month.compare day = .gt ∧
      longest.IsOfOneSign ∧ longest.nominalLength = Word.clamp longest.exactLength := by
  intro month day longest
  have hmonth : month.LosesNothing := by decide
  have hday : day.LosesNothing := by decide
  have hrange : month.HasWordLength ∧ day.HasWordLength := by decide
  have hne : month.exactLength ≠ day.exactLength := by decide
  have hlongest : longest.IsOfOneSign := .inl (by decide)
  have horder := (nominalLength_exact_iff month day).2.2 hmonth hday hrange.1 hrange.2 hne
  obtain ⟨hexact, hsign, _⟩ := nominalLength_exact_iff longest longest
  exact ⟨hmonth, hday, hrange.1, hrange.2, hne, horder.trans (by decide), hlongest,
    hexact.mpr (hsign hlongest)⟩

/-- A number of months just beyond the range, less 30 days, has an exact length in the
range. Its nominal length is another one, and a duration that is shorter is ordered
behind it. -/
theorem nominalLength_is_cut_off :
    let long : Duration := ⟨3558399705577, -30, 0⟩
    let short : Duration := ⟨0, 0, 9223372036852500000⟩
    long.HasWordLength ∧ long.nominalLength ≠ Word.clamp long.exactLength ∧
      short.HasWordLength ∧ short.exactLength < long.exactLength ∧
      long.compare short = .lt := by
  decide

end Duration

end RecordQuery
