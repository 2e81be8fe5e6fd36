import Mathlib.Tactic.IntervalCases
import RecordQuery.Time.Calendar

/-!
The days of the calendar. The number of a day leads to a date that exists, and that date
has the number of the day.
-/

namespace RecordQuery.CivilDate

/-- The parts of the number of a day in a cycle of 400 years from March on: centuries,
spans of four years, years and days. The last day of a leap year is the day 365. -/
structure CycleParts (dayOfCycle : Int) where
  century : Int
  span : Int
  year : Int
  day : Int
  sum : dayOfCycle = 36524 * century + 1461 * span + 365 * year + day
  century_range : 0 ≤ century ∧ century ≤ 3
  span_range : 0 ≤ span ∧ span ≤ 24
  year_range : 0 ≤ year ∧ year ≤ 3
  day_range : 0 ≤ day ∧ (day ≤ 364 ∨ day = 365 ∧ year = 3 ∧ (span ≠ 24 ∨ century = 3))

/-- The parts of each day of the cycle. -/
def cycleParts (d : Int) (h : 0 ≤ d ∧ d < 146097) : CycleParts d :=
  let century := min (d / 36524) 3
  let span := (d - 36524 * century) / 1461
  let year := min ((d - 36524 * century - 1461 * span) / 365) 3
  { century, span, year
    day := d - 36524 * century - 1461 * span - 365 * year
    sum := by omega
    century_range := by omega
    span_range := by omega
    year_range := by omega
    day_range := by omega }

theorem ediv_eq_of_remainder {a k w r : Int} (h : a = k * w + r) (hlow : 0 ≤ r) (hhigh : r < k) :
    a / k = w :=
  ((Int.ediv_emod_unique (by omega)).mpr ⟨(Int.add_comm r (k * w)).trans h.symm, hlow, hhigh⟩).1

/-- The corrections for leap days leave just the days of the years before. -/
theorem yearOfCycle_eq (d : Int) (p : CycleParts d) :
    (d - d / 1460 + d / 36524 - d / 146096) / 365 = 100 * p.century + 4 * p.span + p.year := by
  obtain ⟨c, q, y, r, hd, hc, hq, hy, hr⟩ := p
  simp only
  -- The day 1460 of a span counts for one year more already, unless it is the leap day.
  have hspans : ∃ late, d / 1460 = 25 * c + q + late ∧ 0 ≤ r - late ∧ (r - late ≤ 364) := by
    by_cases hlate : 24 * c + q + 365 * y + r < 1460
    · refine ⟨0, ediv_eq_of_remainder (r := 24 * c + q + 365 * y + r) ?_ ?_ hlate, ?_, ?_⟩ <;> omega
    · refine ⟨1, ediv_eq_of_remainder (r := 24 * c + q + 365 * y + r - 1460) ?_ ?_ ?_, ?_, ?_⟩ <;>
        omega
  have hcenturies : d / 36524 - d / 146096 = c := by
    by_cases hlast : d = 146096
    · omega
    · have hfirst : d / 36524 = c :=
        ediv_eq_of_remainder (r := 1461 * q + 365 * y + r) (by omega) (by omega) (by omega)
      omega
  obtain ⟨late, hlate, hlow, hhigh⟩ := hspans
  exact ediv_eq_of_remainder (r := r - late) (by omega) hlow (by omega)

/-- The date of a day of a year that begins with March. -/
def ofMarch (year day : Int) : CivilDate :=
  let monthFromMarch := (5 * day + 2) / 153
  let month := if monthFromMarch < 10 then monthFromMarch + 3 else monthFromMarch - 9
  ⟨if month ≤ 2 then year + 1 else year, month.toNat,
    (day - (153 * monthFromMarch + 2) / 5 + 1).toNat⟩

theorem toDays_ofMarch (year day : Int) (h : 0 ≤ day ∧ day ≤ 365) :
    (ofMarch year day).toDays = year / 400 * 146097 + year % 400 * 365 + year % 400 / 4 -
      year % 400 / 100 + day - 719468 := by
  obtain ⟨month, hmonth⟩ : ∃ month, month = (5 * day + 2) / 153 := ⟨_, rfl⟩
  have hrange : 0 ≤ month ∧ month ≤ 11 := by omega
  obtain ⟨hlow, hhigh⟩ := hrange
  simp only [ofMarch, ← hmonth, toDays]
  interval_cases month <;> simp <;> omega

theorem isValid_ofMarch (year day : Int)
    (h : 0 ≤ day ∧ (day ≤ 364 ∨ day = 365 ∧ isLeapYear (year + 1) = true)) :
    (ofMarch year day).isValid = true := by
  obtain ⟨month, hmonth⟩ : ∃ month, month = (5 * day + 2) / 153 := ⟨_, rfl⟩
  have hrange : 0 ≤ month ∧ month ≤ 11 := by omega
  obtain ⟨hlow, hhigh⟩ := hrange
  simp only [ofMarch, ← hmonth, isValid]
  cases hleap : isLeapYear (year + 1) <;>
    simp only [hleap, Bool.false_eq_true, and_false, or_false, and_true] at h <;>
    interval_cases month <;> simp [monthLength, hleap] <;> omega

/-- A leap year is one whose last day has the number 365, counted from March before. -/
theorem isLeapYear_of_day (cycle : Int) {d : Int} (p : CycleParts d) (h : p.day = 365) :
    isLeapYear (100 * p.century + 4 * p.span + p.year + cycle * 400 + 1) = true := by
  have hrange := p.day_range
  have hspan := p.span_range
  have hcentury := p.century_range
  have hyear : p.year = 3 ∧ (p.span ≠ 24 ∨ p.century = 3) := by omega
  simp [isLeapYear]
  omega

/-- The number of a day leads to the date of a day of a year. -/
theorem exists_ofMarch (days : Int) :
    ∃ cycle d, ∃ p : CycleParts d, days + 719468 = cycle * 146097 + d ∧ 0 ≤ d ∧ d < 146097 ∧
      ofDays days =
        ofMarch (100 * p.century + 4 * p.span + p.year + cycle * 400) p.day := by
  have hrange : 0 ≤ (days + 719468) % 146097 ∧ (days + 719468) % 146097 < 146097 := by omega
  let p := cycleParts _ hrange
  refine ⟨(days + 719468) / 146097, (days + 719468) % 146097, p, by omega, hrange.1, hrange.2, ?_⟩
  have hday : (days + 719468) % 146097 - (365 * (100 * p.century + 4 * p.span + p.year) +
      (100 * p.century + 4 * p.span + p.year) / 4 -
      (100 * p.century + 4 * p.span + p.year) / 100) = p.day := by
    have hsum := p.sum
    have hspan := p.span_range
    have hyear := p.year_range
    omega
  simp only [ofDays, yearOfCycle_eq _ p, hday]
  rfl

/-- The date of a day has the number of the day. -/
theorem toDays_ofDays (days : Int) : (ofDays days).toDays = days := by
  obtain ⟨cycle, d, p, hdays, hlow, hhigh, hdate⟩ := exists_ofMarch days
  have hcentury := p.century_range
  have hspan := p.span_range
  have hyear := p.year_range
  have hday := p.day_range
  have hsum := p.sum
  rw [hdate, toDays_ofMarch _ _ (by omega)]
  omega

/-- The date of a day exists in the calendar. -/
theorem isValid_ofDays (days : Int) : (ofDays days).isValid = true := by
  obtain ⟨cycle, d, p, _, _, _, hdate⟩ := exists_ofMarch days
  rw [hdate]
  refine isValid_ofMarch _ _ ⟨p.day_range.1, ?_⟩
  rcases p.day_range.2 with hday | ⟨hday, _⟩
  · exact .inl hday
  · exact .inr ⟨hday, isLeapYear_of_day cycle p hday⟩

/-- The year of a date is that of its day but for less than two cycles. -/
theorem year_ofDays (days : Int) :
    400 * ((days + 719468) / 146097) ≤ (ofDays days).year ∧
      (ofDays days).year ≤ 400 * ((days + 719468) / 146097) + 400 := by
  obtain ⟨cycle, d, p, hdays, hlow, hhigh, hdate⟩ := exists_ofMarch days
  have hcentury := p.century_range
  have hspan := p.span_range
  have hyear := p.year_range
  rw [hdate]
  simp only [ofMarch]
  split <;> omega

end RecordQuery.CivilDate
