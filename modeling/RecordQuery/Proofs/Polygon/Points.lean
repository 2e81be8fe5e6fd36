import RecordQuery.Polygon
import RecordQuery.Proofs.Grammar
import RecordQuery.Proofs.Pattern.Reading
import RecordQuery.Proofs.Text.Blank
import RecordQuery.Proofs.Text.Pieces

/-!
The points of a ring. A ring is trimmed and then split at commas together with the blanks
around them. What is found in this way are the pieces between the commas of the ring, each
of which is trimmed by itself: every comma separates, and no blank is left at the ends of a
piece, even if nothing else is between two commas.

A point is two decimal numbers with blanks between them. The pattern for it takes as many
digits and blanks as there are, which excludes no point, since no number begins with a blank
and no blank is a digit.
-/

namespace RecordQuery.Polygon

open Pattern Text

/-! Separators. -/

theorem separator_bounded : separator.Bounded := by
  simp [Template.Bounded, separator, Pattern.all, Pattern.text, Bounded]

/-- A separator is a comma behind blanks, and the blanks behind it go with it. -/
theorem separator_fits_iff (s : List Char) (parts : List (List Char)) (rest : List Char) :
    separator.Fits s parts rest ↔
      parts = [] ∧ ∃ u v, s = u ++ ',' :: v ∧ (∀ c ∈ u, isBlank c = true) ∧ trimStart v = rest := by
  simp only [separator, Template.Fits, Pattern.all, takes_seq, takes_run, takes_text]
  constructor
  · rintro ⟨_, after, rfl, ⟨u, _, rfl, ⟨hu, _⟩, _, v, rfl, rfl, hv, hafter⟩, rfl, rfl⟩
    exact ⟨rfl, u, v ++ after, by simp, hu, trimStart_append hv hafter⟩
  · rintro ⟨rfl, u, v, rfl, hu, rfl⟩
    have hblank : ∀ c ∈ v.takeWhile isBlank, isBlank c = true := fun c hc =>
      List.all_eq_true.mp List.all_takeWhile c hc
    refine ⟨u ++ ',' :: v.takeWhile isBlank, trimStart v, ?_, ⟨u, _, rfl, ⟨hu, ?_⟩, [','],
      v.takeWhile isBlank, rfl, rfl, hblank, head?_trimStart v⟩, rfl, rfl⟩
    · rw [trimStart, List.append_assoc, List.cons_append, List.takeWhile_append_dropWhile]
    · intro c hc
      obtain rfl : ',' = c := by simpa using hc
      rfl

theorem match?_separator {u : List Char} (v : List Char) (hu : ∀ c ∈ u, isBlank c = true) :
    separator.match? (u ++ ',' :: v) = some ([], trimStart v) := by
  refine Template.match?_eq_some_of_unique separator separator_bounded _ _ _
    ((separator_fits_iff _ _ _).mpr ⟨rfl, u, v, rfl, hu, rfl⟩) ?_
  intro parts rest h
  obtain ⟨rfl, u', v', hsplit, hu', rfl⟩ := (separator_fits_iff _ _ _).mp h
  obtain ⟨_, rfl⟩ := append_cons_inj ',' u u' v v' (ne_of_blank rfl hu) (ne_of_blank rfl hu')
    hsplit
  exact ⟨rfl, rfl⟩

theorem match?_separator_eq_none {s : List Char}
    (h : ∀ u v, s = u ++ ',' :: v → ¬∀ c ∈ u, isBlank c = true) : separator.match? s = none := by
  rw [Template.match?_eq_none_iff separator separator_bounded]
  intro parts rest hfits
  obtain ⟨_, u, v, hsplit, hu, _⟩ := (separator_fits_iff _ _ _).mp hfits
  exact h u v hsplit hu

/-! Splitting. -/

theorem split_of_not_mem {s : List Char} (h : ',' ∉ s) : separator.split s = [s] := by
  induction s with
  | nil => exact separator.split_nil
  | cons c s ih =>
      have hnone : separator.match? (c :: s) = none :=
        match?_separator_eq_none fun u v hsplit _ => h (by rw [hsplit]; simp)
      rw [separator.split_of_not_match hnone, ih (List.not_mem_of_not_mem_cons h),
        List.modifyHead_cons]

/-- A separator at the start is cut off, and nothing comes before it. -/
theorem split_append_of_blank {u : List Char} (v : List Char) (hu : ∀ c ∈ u, isBlank c = true) :
    separator.split (u ++ ',' :: v) = trimEnd u :: separator.split (trimStart v) := by
  have hlength : (trimStart v).length < (u ++ ',' :: v).length := by
    have hle := (List.dropWhile_sublist isBlank (l := v)).length_le
    simp only [trimStart, List.length_append, List.length_cons]
    omega
  rw [separator.split_of_match (match?_separator v hu) hlength, trimEnd_of_blank hu]

/-- A text is split at its first comma. Blanks are cut off on both sides of it. -/
theorem split_append {u : List Char} (v : List Char) (h : ∀ c ∈ u, c ≠ ',') :
    separator.split (u ++ ',' :: v) = trimEnd u :: separator.split (trimStart v) := by
  induction u with
  | nil => exact split_append_of_blank v (by simp)
  | cons c u ih =>
      by_cases hblank : ∀ d ∈ c :: u, isBlank d = true
      · exact split_append_of_blank v hblank
      · have hnone : separator.match? (c :: (u ++ ',' :: v)) = none := by
          refine match?_separator_eq_none fun u' v' hsplit hu' => hblank ?_
          obtain ⟨rfl, _⟩ := append_cons_inj ',' (c :: u) u' v v' h (ne_of_blank rfl hu') hsplit
          exact hu'
        rw [List.cons_append, separator.split_of_not_match hnone,
          ih fun d hd => h d (List.mem_cons_of_mem c hd), List.modifyHead_cons, trimEnd_cons hblank]

/-- The pieces of a ring between commas, without the blanks at their ends. -/
def trimmedPieces (ring : List Char) : List (List Char) :=
  (pieces ',' ring).map trim

theorem trimmedPieces_ne_nil (ring : List Char) : trimmedPieces ring ≠ [] := by
  simp [trimmedPieces, pieces_ne_nil]

/-- Splitting a trimmed ring at commas and blanks trims every piece. -/
theorem points_eq (ring : List Char) : points ring = trimmedPieces ring := by
  induction hlength : ring.length using Nat.strongRecOn generalizing ring with
  | ind n ih =>
      by_cases hcomma : ',' ∈ ring
      · obtain ⟨u, v, rfl, hu⟩ := List.eq_append_cons_of_mem hcomma
        have hne : ∀ c ∈ trimStart u, c ≠ ',' := by
          rintro c hc rfl
          exact hu ((List.dropWhile_sublist isBlank).mem hc)
        have hv : points v = trimmedPieces v := ih v.length (by simp at hlength; omega) v rfl
        calc points (u ++ ',' :: v)
            = separator.split (trimStart u ++ ',' :: trimEnd v) := by
              rw [points, trim, trimStart_append_cons u v rfl, trimEnd_append_cons _ v rfl]
          _ = trim u :: points v := by
              rw [split_append _ hne, trimStart_trimEnd]
              rfl
          _ = trimmedPieces (u ++ ',' :: v) := by
              rw [hv, trimmedPieces, trimmedPieces, pieces_append ',' hu, List.map_cons]
      · rw [points, split_of_not_mem fun h => hcomma (mem_of_mem_trim h), trimmedPieces,
          pieces_of_not_mem ',' hcomma, List.map_singleton]

/-! Points. -/

/-- A row of ASCII digits, at least one. -/
def IsDigits (s : List Char) : Prop :=
  s ≠ [] ∧ ∀ c ∈ s, isDigit c = true

/-- A decimal number: digits, with a minus sign in front or not, and with a point and more
digits behind them or not. -/
def IsDecimal (s : List Char) : Prop :=
  ∃ sign whole fraction, s = sign ++ (whole ++ fraction) ∧ (sign = ['-'] ∨ sign = []) ∧
    IsDigits whole ∧ ((∃ digits, fraction = '.' :: digits ∧ IsDigits digits) ∨ fraction = [])

/-- Two decimal numbers with blanks between them. -/
def IsPoint (s : List Char) : Prop :=
  ∃ x gap y, s = x ++ (gap ++ y) ∧ IsDecimal x ∧ (gap ≠ [] ∧ ∀ c ∈ gap, isBlank c = true) ∧
    IsDecimal y

/-- A number is taken where no digit follows it. -/
theorem takes_number_iff (text rest : List Char) :
    Grammar.number.Takes text rest ↔ IsDecimal text ∧ ∀ c ∈ rest.head?, isDigit c = false := by
  simp only [Grammar.number, Pattern.all, takes_seq, takes_optional, takes_text, takes_someOf]
  constructor
  · rintro ⟨sign, _, rfl, hsign, whole, fraction, rfl, ⟨hwhole, hfollow⟩, hfraction⟩
    rcases hfraction with ⟨_, digits, rfl, rfl, hdigits, hrest⟩ | rfl
    · exact ⟨⟨sign, whole, _, rfl, hsign, hwhole, .inl ⟨digits, rfl, hdigits⟩⟩, hrest⟩
    · exact ⟨⟨sign, whole, [], rfl, hsign, hwhole, .inr rfl⟩, hfollow⟩
  · rintro ⟨⟨sign, whole, fraction, rfl, hsign, hwhole, hfraction⟩, hrest⟩
    refine ⟨sign, _, rfl, hsign, whole, fraction, rfl, ⟨hwhole, ?_⟩, ?_⟩
    · rcases hfraction with ⟨digits, rfl, _⟩ | rfl
      · intro c hc
        obtain rfl : '.' = c := by simpa using hc
        rfl
      · exact hrest
    · rcases hfraction with ⟨digits, hfraction, hdigits⟩ | hfraction
      · exact .inl ⟨['.'], digits, hfraction, rfl, hdigits, hrest⟩
      · exact .inr hfraction

theorem isBlank_of_isDigit {c : Char} (h : isDigit c = true) : isBlank c = false :=
  Grammar.isBlank_eq_false c (Grammar.isPropertyChar_of_isDigit c h)

/-- A number begins with a sign or a digit. -/
theorem IsDecimal.head_not_blank {s : List Char} (h : IsDecimal s) :
    ∀ c ∈ s.head?, isBlank c = false := by
  obtain ⟨sign, whole, fraction, rfl, hsign, ⟨hne, hwhole⟩, _⟩ := h
  intro c hc
  rcases hsign with rfl | rfl
  · obtain rfl : '-' = c := by simpa using hc
    rfl
  · obtain ⟨d, more, rfl⟩ := List.exists_cons_of_ne_nil hne
    obtain rfl : d = c := by simpa using hc
    exact isBlank_of_isDigit (hwhole d List.mem_cons_self)

/-- The pattern for points accepts just the points. -/
theorem point_accepts_iff (s : List Char) : point.accepts s = true ↔ IsPoint s := by
  simp only [accepts_iff, point, Pattern.all, takes_seq, takes_number_iff, takes_someOf,
    List.append_nil]
  constructor
  · rintro ⟨x, _, rfl, ⟨hx, _⟩, gap, y, rfl, ⟨hgap, _⟩, hy, _⟩
    exact ⟨x, gap, y, rfl, hx, hgap, hy⟩
  · rintro ⟨x, gap, y, rfl, hx, hgap, hy⟩
    refine ⟨x, _, rfl, ⟨hx, ?_⟩, gap, y, rfl, ⟨hgap, hy.head_not_blank⟩, hy, by simp⟩
    obtain ⟨c, more, rfl⟩ := List.exists_cons_of_ne_nil hgap.1
    intro d hd
    obtain rfl : c = d := by simpa using hd
    have hblank := hgap.2 c List.mem_cons_self
    exact Bool.eq_false_iff.mpr fun hdigit => by simp [isBlank_of_isDigit hdigit] at hblank

end RecordQuery.Polygon
