import Mathlib.Data.List.Nodup
import RecordQuery.Proofs.Text.Numeral
import RecordQuery.Time.Duration

/-!
Reading durations. The form of a duration is stated as a relation between counts of units
and texts: a count is a row of digits in front of the letter of its unit, and what is not
written counts as zero. The letter M stands for months or minutes by its place alone.

The reader asks for one unit after the other. Since the digits in front of a unit are
followed by its own letter, it never takes the count of one unit for that of another, and
it gets the counts that were written. From these the duration is made in steps, each of
which is refused if it leaves the range of words. No step exceeds the total it leads to, so
that a text is refused only if it does not have the form or a total is out of range.
-/

namespace RecordQuery.Duration

/-- How a count of a unit is written, with any number of leading zeros. -/
inductive WritesCount (unit : Char) : Nat → List Char → Prop
  | missing : WritesCount unit 0 []
  | digits (digits : List Char) (hne : digits ≠ [])
      (hdigits : ∀ c ∈ digits, Text.isDigit c = true) :
      WritesCount unit (Text.natOfDigits digits) (digits ++ [unit])

/-- How counts of some units are written, in the order of the units. -/
inductive WritesCounts : List Char → List Nat → List Char → Prop
  | nil : WritesCounts [] [] []
  | cons {unit : Char} {units : List Char} {count : Nat} {counts : List Nat}
      {first rest : List Char} (hfirst : WritesCount unit count first)
      (hrest : WritesCounts units counts rest) :
      WritesCounts (unit :: units) (count :: counts) (first ++ rest)

/-! What is read was written. -/

/-- A text that does not begin with a digit begins with no count. -/
theorem readCount_of_not_isDigit (unit : Char) (s : List Char)
    (h : ∀ c ∈ s.head?, Text.isDigit c = false) : readCount unit s = (0, s) := by
  cases s with
  | nil => rfl
  | cons c rest =>
      have hc : Text.isDigit c = false := h c rfl
      simp [readCount, hc]

theorem readCount_digits (digits : List Char) (unit other : Char) (s : List Char)
    (hne : digits ≠ []) (hdigits : ∀ c ∈ digits, Text.isDigit c = true)
    (hunit : Text.isDigit unit = false) :
    readCount other (digits ++ unit :: s) =
      if unit = other then (Text.natOfDigits digits, s) else (0, digits ++ unit :: s) := by
  have htake := Text.takeWhile_digits s hdigits hunit
  have hdrop := Text.dropWhile_digits s hdigits hunit
  simp [readCount, htake, hdrop, hne]

/-- Counts of some units have no count of any other in front. -/
theorem readCount_of_writesCounts (other : Char) {units : List Char} {counts : List Nat}
    {text : List Char} (h : WritesCounts units counts text) (s : List Char)
    (hunits : ∀ unit ∈ units, Text.isDigit unit = false) (hother : other ∉ units)
    (hs : ∀ c ∈ s.head?, Text.isDigit c = false) :
    readCount other (text ++ s) = (0, text ++ s) := by
  induction h with
  | nil => exact readCount_of_not_isDigit other s hs
  | @cons unit units count counts first rest hfirst hrest ih =>
      obtain ⟨hunit, hunits⟩ := List.forall_mem_cons.mp hunits
      rw [List.mem_cons, not_or] at hother
      cases hfirst with
      | missing => exact ih hunits hother.2
      | digits digits hne hdigits =>
          have hread := readCount_digits digits unit other (rest ++ s) hne hdigits hunit
          rw [if_neg (Ne.symm hother.1)] at hread
          simpa using hread

/-- Counts of different units are read as they were written. -/
theorem readCounts_of_writesCounts {units : List Char} {counts : List Nat} {text : List Char}
    (h : WritesCounts units counts text) (s : List Char) (hnodup : units.Nodup)
    (hunits : ∀ unit ∈ units, Text.isDigit unit = false)
    (hs : ∀ c ∈ s.head?, Text.isDigit c = false) :
    readCounts units (text ++ s) = (counts, s) := by
  induction h with
  | nil => rfl
  | @cons unit units count counts first rest hfirst hrest ih =>
      obtain ⟨hunit, hunits⟩ := List.forall_mem_cons.mp hunits
      obtain ⟨hfresh, hnodup⟩ := List.nodup_cons.mp hnodup
      have hread : readCount unit (first ++ (rest ++ s)) = (count, rest ++ s) := by
        cases hfirst with
        | missing => exact readCount_of_writesCounts unit hrest s hunits hfresh hs
        | digits digits hne hdigits =>
            have := readCount_digits digits unit unit (rest ++ s) hne hdigits hunit
            rw [if_pos rfl] at this
            simpa using this
      rw [List.append_assoc, readCounts, hread]
      simp only [ih hnodup hunits]

theorem exists_writesCount (unit : Char) (s : List Char) :
    ∃ text, s = text ++ (readCount unit s).2 ∧ WritesCount unit (readCount unit s).1 text := by
  have hdigits : ∀ c ∈ s.takeWhile Text.isDigit, Text.isDigit c = true :=
    fun c hc => List.all_eq_true.mp List.all_takeWhile c hc
  unfold readCount
  split
  · next c rest hrest =>
    dsimp only
    split
    · next h =>
      obtain ⟨rfl, hne⟩ := h
      refine ⟨s.takeWhile Text.isDigit ++ [c], ?_, .digits _ hne hdigits⟩
      rw [List.append_assoc, List.singleton_append, ← hrest, List.takeWhile_append_dropWhile]
    · exact ⟨[], rfl, .missing⟩
  · exact ⟨[], rfl, .missing⟩

theorem exists_writesCounts (units s : List Char) :
    ∃ text, s = text ++ (readCounts units s).2 ∧
      WritesCounts units (readCounts units s).1 text := by
  induction units generalizing s with
  | nil => exact ⟨[], rfl, .nil⟩
  | cons unit units ih =>
      obtain ⟨first, hfirst, hcount⟩ := exists_writesCount unit s
      obtain ⟨rest, hrest, hcounts⟩ := ih (readCount unit s).2
      refine ⟨first ++ rest, ?_, .cons hcount hcounts⟩
      rw [List.append_assoc, readCounts, ← hrest, ← hfirst]

theorem WritesCounts.exists_calendar {counts : List Nat} {text : List Char}
    (h : WritesCounts ['Y', 'M', 'W', 'D'] counts text) :
    ∃ years months weeks days, counts = [years, months, weeks, days] := by
  obtain _ | ⟨_, _ | ⟨_, _ | ⟨_, _ | ⟨_, _ | _⟩⟩⟩⟩ := h
  exact ⟨_, _, _, _, rfl⟩

theorem WritesCounts.exists_clock {counts : List Nat} {text : List Char}
    (h : WritesCounts ['H', 'M', 'S'] counts text) :
    ∃ hours minutes seconds, counts = [hours, minutes, seconds] := by
  obtain _ | ⟨_, _ | ⟨_, _ | ⟨_, _ | _⟩⟩⟩ := h
  exact ⟨_, _, _, rfl⟩

theorem isDigit_units :
    (∀ unit ∈ ['Y', 'M', 'W', 'D'], Text.isDigit unit = false) ∧
      ∀ unit ∈ ['H', 'M', 'S'], Text.isDigit unit = false := by
  simp [Text.isDigit]

/-! From counts to durations. -/

theorem unitLength?_eq (count unit : Nat) (h : 0 < unit) :
    unitLength? count unit = Word.ofInt? (count * unit : Nat) :=
  Word.bind_mul? count unit h

/-- Counts of all units of a duration. -/
structure Counts where
  years : Nat
  months : Nat
  weeks : Nat
  days : Nat
  hours : Nat
  minutes : Nat
  seconds : Nat

namespace Counts

def calendar (n : Counts) : List Nat :=
  [n.years, n.months, n.weeks, n.days]

def clock (n : Counts) : List Nat :=
  [n.hours, n.minutes, n.seconds]

def totalMonths (n : Counts) : Nat :=
  12 * n.years + n.months

def totalDays (n : Counts) : Nat :=
  7 * n.weeks + n.days

def totalSeconds (n : Counts) : Nat :=
  3600 * n.hours + 60 * n.minutes + n.seconds

/-- The totals are words. -/
def Fit (n : Counts) : Prop :=
  n.totalMonths ≤ Word.greatest ∧ n.totalDays ≤ Word.greatest ∧ n.totalSeconds ≤ Word.greatest

/-- The parts of the duration are the totals. -/
def Make (n : Counts) (d : Duration) : Prop :=
  d.months.toInt = n.totalMonths ∧ d.days.toInt = n.totalDays ∧ d.seconds.toInt = n.totalSeconds

instance (n : Counts) : Decidable n.Fit :=
  inferInstanceAs (Decidable (_ ∧ _))

instance (n : Counts) (d : Duration) : Decidable (n.Make d) :=
  inferInstanceAs (Decidable (_ ∧ _))

/-- How counts are written as a duration. The letter T may be there without a count
behind it. -/
inductive AreWritten (n : Counts) : List Char → Prop
  | date {calendar : List Char} (hcalendar : WritesCounts ['Y', 'M', 'W', 'D'] n.calendar calendar)
      (hclock : n.clock = [0, 0, 0]) : AreWritten n ('P' :: calendar)
  | dateTime {calendar clock : List Char}
      (hcalendar : WritesCounts ['Y', 'M', 'W', 'D'] n.calendar calendar)
      (hclock : WritesCounts ['H', 'M', 'S'] n.clock clock) :
      AreWritten n ('P' :: (calendar ++ 'T' :: clock))

/-- The steps lead to the totals if these are words, and are refused otherwise. -/
theorem ofCounts?_eq (n : Counts) :
    ofCounts? n.calendar n.clock =
      (Word.ofInt? n.totalMonths).bind fun months => (Word.ofInt? n.totalDays).bind fun days =>
        (Word.ofInt? n.totalSeconds).bind fun seconds => some ⟨months, days, seconds⟩ := by
  have hmonths : n.totalMonths = n.years * 12 + n.months := by
    rw [totalMonths, Nat.mul_comm]
  have hdays : n.totalDays = n.weeks * 7 + n.days := by
    rw [totalDays, Nat.mul_comm]
  have hseconds : n.totalSeconds = n.hours * 3600 + n.minutes * 60 + n.seconds := by
    rw [totalSeconds, Nat.mul_comm 3600, Nat.mul_comm 60]
  rw [hmonths, hdays, hseconds]
  simp only [calendar, clock, ofCounts?, Option.bind_eq_bind, Option.pure_def,
    unitLength?_eq _ 12 (by decide), unitLength?_eq _ 7 (by decide),
    unitLength?_eq _ 3600 (by decide), unitLength?_eq _ 60 (by decide), Word.bind_add?]

theorem ofCounts?_eq_some_iff (n : Counts) (d : Duration) :
    ofCounts? n.calendar n.clock = some d ↔ n.Make d := by
  simp only [ofCounts?_eq, Option.bind_eq_some_iff, Word.ofInt?_eq_some_iff, Option.some.injEq,
    Make]
  constructor
  · rintro ⟨months, hmonths, days, hdays, seconds, hseconds, rfl⟩
    exact ⟨hmonths, hdays, hseconds⟩
  · rintro ⟨hmonths, hdays, hseconds⟩
    exact ⟨d.months, hmonths, d.days, hdays, d.seconds, hseconds, rfl⟩

/-- Counts make a duration just if their totals are words. -/
theorem exists_make_iff (n : Counts) : (∃ d, n.Make d) ↔ n.Fit := by
  constructor
  · rintro ⟨d, hmonths, hdays, hseconds⟩
    rw [Fit, ← hmonths, ← hdays, ← hseconds]
    exact ⟨(Word.toInt_range _).2, (Word.toInt_range _).2, (Word.toInt_range _).2⟩
  · rintro ⟨hmonths, hdays, hseconds⟩
    have hleast : ∀ total : Nat, Word.least ≤ total := fun total =>
      Int.le_trans (by decide) (Int.natCast_nonneg total)
    exact ⟨⟨Int64.ofInt n.totalMonths, Int64.ofInt n.totalDays, Int64.ofInt n.totalSeconds⟩,
      Word.toInt_ofInt (hleast _) hmonths, Word.toInt_ofInt (hleast _) hdays,
      Word.toInt_ofInt (hleast _) hseconds⟩

end Counts

/-! Whole texts. -/

/-- Behind the counts of the calendar comes the end or the letter T. -/
theorem readCounts_calendar {counts : List Nat} {calendar : List Char}
    (h : WritesCounts ['Y', 'M', 'W', 'D'] counts calendar) (s : List Char)
    (hs : ∀ c ∈ s.head?, Text.isDigit c = false) :
    readCounts ['Y', 'M', 'W', 'D'] (calendar ++ s) = (counts, s) :=
  readCounts_of_writesCounts h s (by decide) isDigit_units.1 hs

theorem readCounts_clock {counts : List Nat} {clock : List Char}
    (h : WritesCounts ['H', 'M', 'S'] counts clock) :
    readCounts ['H', 'M', 'S'] clock = (counts, []) := by
  have := readCounts_of_writesCounts h [] (by decide) isDigit_units.2 (by simp)
  rwa [List.append_nil] at this

/-- From a text that has the form the duration is made of the written counts. -/
theorem read?_of_areWritten (n : Counts) (s : List Char) (h : n.AreWritten s) :
    read? s = ofCounts? n.calendar n.clock := by
  cases h with
  | @date calendar hcalendar hclock =>
      have hread := readCounts_calendar hcalendar [] (by simp)
      rw [List.append_nil] at hread
      simp only [read?, hread, hclock]
  | @dateTime calendar clock hcalendar hclock =>
      have hread := readCounts_calendar hcalendar ('T' :: clock) (by simp [Text.isDigit])
      simp only [read?, hread, readCounts_clock hclock, List.isEmpty_nil, if_true]

theorem Counts.read?_eq_some_iff (n : Counts) {s : List Char} (h : n.AreWritten s)
    (d : Duration) : read? s = some d ↔ n.Make d := by
  rw [read?_of_areWritten n s h, n.ofCounts?_eq_some_iff]

/-- Only a text that has the form is read. -/
theorem exists_areWritten_of_read? (s : List Char) (d : Duration) (h : read? s = some d) :
    ∃ n : Counts, n.AreWritten s := by
  unfold read? at h
  split at h
  · next s =>
    obtain ⟨calendar, hcalendar, hwritten⟩ := exists_writesCounts ['Y', 'M', 'W', 'D'] s
    obtain ⟨years, months, weeks, days, hcounts⟩ := hwritten.exists_calendar
    dsimp only at h
    rw [hcounts] at hwritten
    split at h
    · next hrest =>
      rw [hrest, List.append_nil] at hcalendar
      rw [hcalendar]
      exact ⟨⟨years, months, weeks, days, 0, 0, 0⟩, .date hwritten rfl⟩
    · next rest hrest =>
      obtain ⟨clock, hclock, hwrittenClock⟩ := exists_writesCounts ['H', 'M', 'S'] rest
      obtain ⟨hours, minutes, seconds, hcountsClock⟩ := hwrittenClock.exists_clock
      rw [hcountsClock] at hwrittenClock
      split at h
      · next hend =>
        rw [List.isEmpty_iff.mp hend, List.append_nil] at hclock
        rw [hcalendar, hrest, hclock]
        exact ⟨⟨years, months, weeks, days, hours, minutes, seconds⟩,
          .dateTime hwritten hwrittenClock⟩
      · cases h
    · cases h
  · cases h

/-- A text is read as a duration if and only if it has the form and the totals of its
counts are words. Then the parts of the duration are these totals. -/
theorem read?_exact (s : List Char) :
    ((read? s).isSome = true ↔ ∃ n : Counts, n.AreWritten s ∧ n.Fit) ∧
      ∀ n : Counts, n.AreWritten s → ∀ d, read? s = some d ↔ n.Make d := by
  refine ⟨?_, fun n hn => n.read?_eq_some_iff hn⟩
  rw [Option.isSome_iff_exists]
  constructor
  · rintro ⟨d, hd⟩
    obtain ⟨n, hn⟩ := exists_areWritten_of_read? s d hd
    exact ⟨n, hn, n.exists_make_iff.mp ⟨d, (n.read?_eq_some_iff hn d).mp hd⟩⟩
  · rintro ⟨n, hn, hfit⟩
    obtain ⟨d, hd⟩ := n.exists_make_iff.mpr hfit
    exact ⟨d, (n.read?_eq_some_iff hn d).mpr hd⟩

/-- Leading zeros and missing counts do no harm, and the same letter stands for months and
for minutes. -/
theorem read?_exact_of_zeros :
    let n : Counts := ⟨0, 2, 0, 0, 0, 3, 0⟩
    let s := "P00000000000000000002MT3M".toList
    n.AreWritten s ∧ n.Fit ∧ read? s = some ⟨2, 0, 180⟩ ∧ (read? s).isSome = true := by
  intro n s
  have hzeros : ∀ c ∈ "00000000000000000002".toList, Text.isDigit c = true :=
    List.all_eq_true.mp rfl
  have hmonths : WritesCount 'M' 2 "00000000000000000002M".toList :=
    .digits "00000000000000000002".toList (by decide) hzeros
  have hminutes : WritesCount 'M' 3 "3M".toList :=
    .digits ['3'] (by decide) (List.all_eq_true.mp rfl)
  have hcalendar : WritesCounts ['Y', 'M', 'W', 'D'] n.calendar "00000000000000000002M".toList :=
    .cons .missing (.cons hmonths (.cons .missing (.cons .missing .nil)))
  have hclock : WritesCounts ['H', 'M', 'S'] n.clock "3M".toList :=
    .cons .missing (.cons hminutes (.cons .missing .nil))
  have hwritten : n.AreWritten s := .dateTime hcalendar hclock
  have hfit : n.Fit := by decide
  exact ⟨hwritten, hfit, ((read?_exact s).2 n hwritten _).mpr (by decide),
    (read?_exact s).1.mpr ⟨n, hwritten, hfit⟩⟩

end RecordQuery.Duration
