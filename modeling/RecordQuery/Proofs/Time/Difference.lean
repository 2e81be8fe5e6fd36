import RecordQuery.Arithmetic
import RecordQuery.Proofs.Time.Calendar

/-!
Differences of instants. The difference of two instants is a duration that has seconds
only. Adding a duration without months and days leaves the date as it is and moves the
instant by the seconds, so that a difference leads from the one instant to the other, and
its negative leads back.

This holds between whole seconds, over the whole range of instants: the longest difference
is much shorter than what a word or a span can hold, and so its negative is exact.
-/

namespace RecordQuery

/-- No months later a date is the same. -/
theorem CivilDate.addMonths_zero (date : CivilDate) (h : date.isValid = true) :
    date.addMonths 0 = date := by
  simp only [isValid, Bool.and_eq_true, decide_eq_true_eq] at h
  have hyear : (date.year * 12 + (Int.ofNat date.month - 1) + 0) / 12 = date.year := by
    rw [Int.ofNat_eq_natCast]
    omega
  have hmonth : ((date.year * 12 + (Int.ofNat date.month - 1) + 0) % 12).toNat + 1 =
      date.month := by
    rw [Int.ofNat_eq_natCast]
    omega
  simp only [addMonths, hyear, hmonth, Nat.min_eq_left h.2]

namespace Instant

/-- An instant in the range of the calendar on a whole second that is no leap second. -/
structure IsWhole (t : Instant) : Prop where
  inRange : t.inRange = true
  nanos : t.nanos = 0

instance (t : Instant) : Decidable t.IsWhole :=
  decidable_of_iff (t.inRange = true ∧ t.nanos = 0) ⟨fun h => ⟨h.1, h.2⟩, fun h => ⟨h.1, h.2⟩⟩

theorem checked_of_inRange (t : Instant) (h : t.inRange = true) : checked t = some t :=
  if_pos h

theorem IsWhole.isLeap {t : Instant} (h : t.IsWhole) : t.isLeap = false := by
  simp [Instant.isLeap, h.nanos, second]

/-- No months later the instant is the same, as the date of a day leads back to the day. -/
theorem addMonths_zero (t : Instant) (h : t.inRange = true) : t.addMonths 0 = some t := by
  have hdate : t.date.addMonths 0 = t.date :=
    t.date.addMonths_zero (CivilDate.isValid_ofDays (t.seconds / day))
  have hseconds : t.date.toDays * day + t.secondOfDay = t.seconds := by
    rw [date, CivilDate.toDays_ofDays, secondOfDay]
    exact Int.ediv_mul_add_emod t.seconds day
  rw [addMonths, hdate, hseconds]
  exact checked_of_inRange t h

theorem addSeconds_zero (t : Instant) (h : t.inRange = true) : t.addSeconds 0 = some t := by
  rw [addSeconds, if_pos (.inl rfl), Int.add_zero]
  exact checked_of_inRange t h

/-- From a whole second on every step leads to the second that many seconds later. -/
theorem IsWhole.addSeconds {t : Instant} (h : t.IsWhole) (count : Int) :
    t.addSeconds count = checked ⟨t.seconds + count, 0⟩ := by
  rw [Instant.addSeconds, if_pos (.inr (by simp [h.isLeap])), h.nanos]

/-- Between whole seconds there are as many seconds as their numbers tell. -/
theorem IsWhole.secondsSince {a b : Instant} (ha : a.IsWhole) (hb : b.IsWhole) :
    a.secondsSince b = a.seconds - b.seconds := by
  simp [Instant.secondsSince, ha.isLeap, hb.isLeap, ha.nanos, hb.nanos, second]

/-- Between two instants there are not many seconds, compared to the range of words. -/
theorem difference_range {a b : Instant} (ha : a.inRange = true) (hb : b.inRange = true) :
    (a.seconds - b.seconds).natAbs ≤ 16544868105599 := by
  have hmin : minSeconds = -8334601228800 := by decide
  have hmax : maxSeconds = 8210266876799 := by decide
  simp only [inRange, hmin, hmax, Bool.and_eq_true, decide_eq_true_eq] at ha hb
  omega

end Instant

namespace Duration

/-- A duration of seconds only moves an instant by its seconds, if a span can have as many. -/
theorem after?_of_seconds (seconds : Int64) (t : Instant) (h : t.inRange = true) :
    after? ⟨0, 0, seconds⟩ t = (span? seconds 1).bind t.addSeconds := by
  have hmonths : monthSteps? 0 = some 0 := rfl
  have hdays : span? 0 daySeconds = some 0 := rfl
  simp only [after?, hmonths, hdays, t.addMonths_zero h, t.addSeconds_zero h,
    Option.bind_eq_bind, Option.bind_some]

/-- A duration of as many seconds as there are from one instant to another leads there. -/
theorem after?_of_difference {a b : Instant} (ha : a.IsWhole) (hb : b.IsWhole) (seconds : Int64)
    (h : seconds.toInt = a.seconds - b.seconds) : after? ⟨0, 0, seconds⟩ b = some a := by
  have hrange := Instant.difference_range ha.inRange hb.inRange
  have hspan : span? seconds 1 = some seconds.toInt := by
    rw [span?, Int.mul_one, if_pos (by omega)]
  have hseconds : b.seconds + seconds.toInt = a.seconds := by omega
  rw [after?_of_seconds seconds b hb.inRange, hspan, Option.bind_some, hb.addSeconds, hseconds,
    ← ha.nanos]
  exact Instant.checked_of_inRange a ha.inRange

/-- The negated duration leads back. -/
theorem before?_of_difference {a b : Instant} (ha : a.IsWhole) (hb : b.IsWhole) (seconds : Int64)
    (h : seconds.toInt = a.seconds - b.seconds) : before? ⟨0, 0, seconds⟩ a = some b := by
  have hrange := Instant.difference_range ha.inRange hb.inRange
  have hnegated : (clampedNeg seconds).toInt = b.seconds - a.seconds := by
    rw [clampedNeg, Word.toInt_clamp, Word.least, Word.greatest]
    omega
  exact after?_of_difference hb ha (clampedNeg seconds) hnegated

end Duration

/-- The difference of two instants on whole seconds is a duration of the seconds between
them. Added to the second instant, on either side, it gives the first one, and taken off
the first instant it gives the second one. -/
theorem ArithmeticOperator.difference_leads_back (a b : Instant) (ha : a.IsWhole)
    (hb : b.IsWhole) :
    ∃ d : Duration,
      sub.combine (.scalar (.instant a)) (.scalar (.instant b)) = .ok (.duration d) ∧
        (d.months = 0 ∧ d.days = 0 ∧ d.seconds.toInt = a.seconds - b.seconds) ∧
        add.combine (.scalar (.instant b)) (.scalar (.duration d)) = .ok (.instant a) ∧
        add.combine (.scalar (.duration d)) (.scalar (.instant b)) = .ok (.instant a) ∧
        sub.combine (.scalar (.instant a)) (.scalar (.duration d)) = .ok (.instant b) := by
  have hrange := Instant.difference_range ha.inRange hb.inRange
  have hseconds : (Word.clamp (a.secondsSince b)).toInt = a.seconds - b.seconds := by
    rw [ha.secondsSince hb, Word.toInt_clamp, Word.least, Word.greatest]
    omega
  have hforward := Duration.after?_of_difference ha hb _ hseconds
  have hback := Duration.before?_of_difference ha hb _ hseconds
  refine ⟨⟨0, 0, Word.clamp (a.secondsSince b)⟩, rfl, ⟨rfl, rfl, hseconds⟩, ?_, ?_, ?_⟩
  · rw [combine_scalars_eq_ok_iff, combine?, hforward, Option.map_some]
  · rw [combine_scalars_eq_ok_iff, combine?, hforward, Option.map_some]
  · rw [combine_scalars_eq_ok_iff, combine?, hback, Option.map_some]

/-- Between the first and the last second of the calendar, in this order. -/
theorem ArithmeticOperator.difference_leads_back_of_ends :
    let first : Instant := ⟨Instant.minSeconds, 0⟩
    let last : Instant := ⟨Instant.maxSeconds, 0⟩
    first.IsWhole ∧ last.IsWhole ∧ ∃ d : Duration,
      sub.combine (.scalar (.instant first)) (.scalar (.instant last)) = .ok (.duration d) ∧
        (d.months = 0 ∧ d.days = 0 ∧ d.seconds.toInt = first.seconds - last.seconds) ∧
        add.combine (.scalar (.instant last)) (.scalar (.duration d)) = .ok (.instant first) ∧
        add.combine (.scalar (.duration d)) (.scalar (.instant last)) = .ok (.instant first) ∧
        sub.combine (.scalar (.instant first)) (.scalar (.duration d)) = .ok (.instant last) := by
  intro first last
  have hfirst : first.IsWhole := by decide
  have hlast : last.IsWhole := by decide
  exact ⟨hfirst, hlast, difference_leads_back first last hfirst hlast⟩

end RecordQuery
