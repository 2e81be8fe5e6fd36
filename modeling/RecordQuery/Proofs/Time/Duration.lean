import RecordQuery.Proofs.Time.Reading

/-!
Durations as text. A duration without negative parts is written as counts of units, without
those that are zero. So its text has the form in which durations are read, and since the
counts add up to its parts it is read back as it was.
-/

namespace RecordQuery.Duration

/-- Counts with their units, without those that are zero. -/
def renderCounts : List Char → List Nat → List Char
  | unit :: units, count :: counts => component count unit ++ renderCounts units counts
  | _, _ => []

theorem component_zero (unit : Char) : component 0 unit = [] :=
  rfl

theorem component_pos (count : Nat) (unit : Char) (h : count ≠ 0) :
    component count unit = Text.natDigits count ++ [unit] := by
  have hcount : ¬(count : Int) = 0 := by omega
  have hsign : ¬(count : Int) < 0 := by omega
  rw [component, if_neg hcount, Text.intDigits, if_neg hsign, Int.natAbs_natCast]

theorem writesCount_component (count : Nat) (unit : Char) :
    WritesCount unit count (component count unit) := by
  by_cases hcount : count = 0
  · subst hcount
    exact .missing
  · have hdigits : WritesCount unit (Text.natOfDigits (Text.natDigits count))
        (Text.natDigits count ++ [unit]) :=
      .digits _ (Text.natDigits_ne_nil count) fun _ => Text.isDigit_of_mem_natDigits
    rwa [Text.natOfDigits_natDigits, ← component_pos count unit hcount] at hdigits

theorem writesCounts_renderCounts (units : List Char) (counts : List Nat)
    (hlength : units.length = counts.length) :
    WritesCounts units counts (renderCounts units counts) := by
  induction units generalizing counts with
  | nil =>
      obtain rfl := List.eq_nil_of_length_eq_zero hlength.symm
      exact .nil
  | cons unit units ih =>
      cases counts with
      | nil => cases hlength
      | cons count counts =>
          exact .cons (writesCount_component count unit) (ih counts (Nat.succ.inj hlength))

/-- No part of the duration is negative. -/
def IsForward (d : Duration) : Prop :=
  0 ≤ d.months.toInt ∧ 0 ≤ d.days.toInt ∧ 0 ≤ d.seconds.toInt

/-- The counts of the units in the text of a duration, which never names weeks. -/
def counts (d : Duration) : Counts where
  years := d.months.toInt.toNat / 12
  months := d.months.toInt.toNat % 12
  weeks := 0
  days := d.days.toInt.toNat
  hours := d.seconds.toInt.toNat / 3600
  minutes := d.seconds.toInt.toNat % 3600 / 60
  seconds := d.seconds.toInt.toNat % 3600 % 60

/-- The counts in the text of a duration add up to its parts. -/
theorem make_counts (d : Duration) (h : d.IsForward) : d.counts.Make d := by
  obtain ⟨hmonths, hdays, hseconds⟩ := h
  simp only [Counts.Make, Counts.totalMonths, Counts.totalDays, Counts.totalSeconds, counts]
  omega

/-- The text of a duration without negative parts that is not zero, by counts. -/
theorem renderChars_eq (d : Duration) (h : d.IsForward)
    (hzero : ¬(d.months.toInt = 0 ∧ d.days.toInt = 0 ∧ d.seconds.toInt = 0)) :
    d.renderChars = 'P' :: (renderCounts ['Y', 'M', 'W', 'D'] d.counts.calendar ++
      if d.seconds.toInt = 0 then []
      else 'T' :: renderCounts ['H', 'M', 'S'] d.counts.clock) := by
  obtain ⟨months, hmonths⟩ := Int.eq_ofNat_of_zero_le h.1
  obtain ⟨days, hdays⟩ := Int.eq_ofNat_of_zero_le h.2.1
  obtain ⟨seconds, hseconds⟩ := Int.eq_ofNat_of_zero_le h.2.2
  -- On natural numbers the divisions that cut off toward zero are the usual ones.
  have hcalendar : d.counts.calendar = [months / 12, months % 12, 0, days] := by
    simp only [counts, Counts.calendar, hmonths, hdays, Int.toNat_natCast]
  have hclock : d.counts.clock =
      [seconds / 3600, seconds % 3600 / 60, seconds % 3600 % 60] := by
    simp only [counts, Counts.clock, hseconds, Int.toNat_natCast]
  have hyears : (months : Int).tdiv 12 = (months / 12 : Nat) := rfl
  have hmonth : (months : Int).tmod 12 = (months % 12 : Nat) := rfl
  have hhours : (seconds : Int).tdiv 3600 = (seconds / 3600 : Nat) := rfl
  have hminutes : ((seconds : Int).tmod 3600).tdiv 60 = (seconds % 3600 / 60 : Nat) := rfl
  have hsecond : ((seconds : Int).tmod 3600).tmod 60 = (seconds % 3600 % 60 : Nat) := rfl
  rw [renderChars, if_neg hzero, hcalendar, hclock, hmonths, hdays, hseconds, hyears, hmonth,
    hhours, hminutes, hsecond]
  simp [renderCounts, component_zero]

/-- No time at all is written as a count of zero seconds. -/
theorem areWritten_zero : (⟨0, 0, 0⟩ : Duration).counts.AreWritten "PT0S".toList := by
  let n := (⟨0, 0, 0⟩ : Duration).counts
  have hcalendar : WritesCounts ['Y', 'M', 'W', 'D'] n.calendar [] :=
    .cons .missing (.cons .missing (.cons .missing (.cons .missing .nil)))
  have hseconds : WritesCount 'S' 0 ['0', 'S'] :=
    .digits ['0'] (by decide) (List.all_eq_true.mp rfl)
  have hclock : WritesCounts ['H', 'M', 'S'] n.clock ['0', 'S'] :=
    .cons .missing (.cons .missing (.cons hseconds .nil))
  exact .dateTime hcalendar hclock

/-- The text of a duration without negative parts has the form in which its counts are
written. -/
theorem areWritten_renderChars (d : Duration) (h : d.IsForward) :
    d.counts.AreWritten d.renderChars := by
  have hcalendar := writesCounts_renderCounts ['Y', 'M', 'W', 'D'] d.counts.calendar rfl
  by_cases hzero : d.months.toInt = 0 ∧ d.days.toInt = 0 ∧ d.seconds.toInt = 0
  · obtain rfl : d = ⟨0, 0, 0⟩ := by
      obtain ⟨months, days, seconds⟩ := d
      simpa [← Int64.toInt_inj] using hzero
    exact areWritten_zero
  · rw [renderChars_eq d h hzero]
    by_cases hseconds : d.seconds.toInt = 0
    · rw [if_pos hseconds, List.append_nil]
      exact .date hcalendar (by simp [counts, Counts.clock, hseconds])
    · rw [if_neg hseconds]
      exact .dateTime hcalendar (writesCounts_renderCounts _ _ rfl)

/-- A duration without negative parts is read back from its text. -/
theorem read?_renderChars (d : Duration) (h : d.IsForward) : read? d.renderChars = some d :=
  (d.counts.read?_eq_some_iff (areWritten_renderChars d h) d).mpr (make_counts d h)

end RecordQuery.Duration
