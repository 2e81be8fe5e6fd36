import RecordQuery.Proofs.Text.Numeral
import RecordQuery.Proofs.Time.Calendar
import RecordQuery.Time.Instant

/-!
Instants as text. The text of an instant has no fraction of the second, and names four
digits of the year only where it has not more. An instant that is kept whole by it is
read back as it was.
-/

namespace RecordQuery.Instant

/-- A number is read from as many digits as it is padded to. -/
theorem readDigits?_paddedDigits {width n : Nat} (rest : List Char) (hwidth : 0 < width)
    (h : n < 10 ^ width) :
    readDigits? width (Text.paddedDigits width n ++ rest) = some (n, rest) := by
  have hlength : (Text.paddedDigits width n).length = width :=
    Text.length_paddedDigits ((Nat.length_toDigits_le_iff (by decide) hwidth).mpr h)
  have htake : (Text.paddedDigits width n ++ rest).take width = Text.paddedDigits width n :=
    List.take_left' hlength
  have hdrop : (Text.paddedDigits width n ++ rest).drop width = rest := List.drop_left' hlength
  have hdigits : (Text.paddedDigits width n).all Text.isDigit = true :=
    List.all_eq_true.mpr fun _ => Text.isDigit_of_mem_paddedDigits
  rw [readDigits?, htake, hdrop, if_pos ⟨hlength, hdigits⟩, Text.natOfDigits_paddedDigits]

theorem readSign?_cons (c : Char) (signs rest : List Char) :
    readSign? (c :: signs) (c :: rest) = some rest := by
  simp [readSign?]

/-- Nothing of the instant is lost in its text: it has no fraction and no leap second, and
its year has four digits. -/
def IsPlain (t : Instant) : Prop :=
  t.nanos = 0 ∧ 0 ≤ t.date.year ∧ t.date.year ≤ 9999

/-- The months and the days of the month of all dates have two digits. -/
theorem date_lt (t : Instant) : t.date.month < 10 ^ 2 ∧ t.date.day < 10 ^ 2 := by
  have hvalid := CivilDate.isValid_ofDays (t.seconds / day)
  have hlength : CivilDate.monthLength t.date.year t.date.month ≤ 31 := by
    unfold CivilDate.monthLength
    repeat' split
    all_goals omega
  simp only [CivilDate.isValid, Bool.and_eq_true, decide_eq_true_eq] at hvalid
  simp only [date] at hlength ⊢
  omega

theorem readDate?_date (t : Instant) (rest : List Char) (hlow : 0 ≤ t.date.year)
    (hhigh : t.date.year ≤ 9999) :
    readDate? (yearText t.date.year ++ '-' :: (Text.paddedDigits 2 t.date.month ++
      '-' :: (Text.paddedDigits 2 t.date.day ++ rest))) = some (t.date, rest) := by
  obtain ⟨hmonth, hday⟩ := date_lt t
  have hyear : t.date.year.toNat < 10 ^ 4 := by omega
  have hvalid : t.date.isValid = true := CivilDate.isValid_ofDays _
  have hdate : (⟨Int.ofNat t.date.year.toNat, t.date.month, t.date.day⟩ : CivilDate) = t.date := by
    rw [Int.ofNat_eq_natCast, Int.toNat_of_nonneg hlow]
  rw [yearText, if_pos ⟨hlow, hhigh⟩, readDate?]
  simp only [readDigits?_paddedDigits _ (show 0 < 4 by decide) hyear, readSign?_cons,
    readDigits?_paddedDigits _ (show 0 < 2 by decide) hmonth,
    readDigits?_paddedDigits _ (show 0 < 2 by decide) hday, Option.bind_eq_bind, Option.bind_some,
    hdate, hvalid, if_true]

/-- The years that have four digits are within the range of the calendar. -/
theorem checked_of_isPlain (t : Instant) (h : t.IsPlain) : checked t = some t := by
  obtain ⟨_, hlow, hhigh⟩ := h
  have hyear := CivilDate.year_ofDays (t.seconds / day)
  have hmin : minSeconds = -8334601228800 := by decide
  have hmax : maxSeconds = 8210266876799 := by decide
  have hrange : t.inRange = true := by
    simp only [date, day] at hlow hhigh
    simp only [inRange, hmin, hmax, day, Bool.and_eq_true, decide_eq_true_eq] at hyear ⊢
    omega
  rw [checked, if_pos hrange]

theorem readFraction?_universal : readFraction? ['Z'] = some (0, ['Z']) :=
  rfl

theorem readOffset?_universal : readOffset? ['Z'] = some 0 :=
  rfl

/-- A plain instant is read back from its text. -/
theorem read?_renderChars (t : Instant) (h : t.IsPlain) : read? t.renderChars = some t := by
  have hchecked := checked_of_isPlain t h
  obtain ⟨hnanos, hlow, hhigh⟩ := h
  have hleap : t.isLeap = false := by simp [isLeap, hnanos, second]
  obtain ⟨time, htime⟩ : ∃ time, time = t.secondOfDay.toNat := ⟨_, rfl⟩
  have hhour : time / 3600 < 10 ^ 2 := by
    simp only [secondOfDay, day] at htime
    omega
  have hminute : time / 60 % 60 < 10 ^ 2 := by omega
  have hsecond : time % 60 < 10 ^ 2 := by omega
  -- The parts of the time of day add up, and with the day give the seconds.
  have hclock : time / 3600 ≤ 23 ∧ time / 60 % 60 ≤ 59 ∧ time % 60 ≤ 60 := by
    simp only [secondOfDay, day] at htime
    omega
  have hparts : time / 3600 * 3600 + time / 60 % 60 * 60 + min (time % 60) 59 = time := by omega
  have hseconds : t.date.toDays * day + Int.ofNat time - 0 = t.seconds := by
    simp only [date, CivilDate.toDays_ofDays, day, htime, secondOfDay, Int.ofNat_eq_natCast]
    omega
  have hsixty : time % 60 ≠ 60 := by omega
  rw [renderChars, secondText, hleap, ← htime, read?]
  simp only [List.append_assoc, List.cons_append, Bool.false_eq_true, if_false, Nat.add_zero,
    readDate?_date t _ hlow hhigh, readSign?_cons, Option.bind_eq_bind, Option.bind_some,
    readDigits?_paddedDigits _ (show 0 < 2 by decide) hhour,
    readDigits?_paddedDigits _ (show 0 < 2 by decide) hminute,
    readDigits?_paddedDigits _ (show 0 < 2 by decide) hsecond, readFraction?_universal,
    readOffset?_universal, if_pos hclock, if_neg hsixty, hparts, hseconds]
  rw [← hnanos, hchecked]

/-- The text of an instant has digits and these marks only. -/
theorem mem_renderChars {t : Instant} {c : Char} (h : c ∈ t.renderChars) :
    Text.isDigit c = true ∨ c ∈ ['+', '-', 'T', ':', 'Z'] := by
  have hdigits := fun width n => @Text.isDigit_of_mem_paddedDigits width n c
  simp only [renderChars, secondText, yearText, List.mem_append, List.mem_cons] at h ⊢
  grind

end RecordQuery.Instant
