import RecordQuery.Proofs.Polygon.Points

/-!
Checking polygons. A polygon encloses a ring in two pairs of parentheses, with blanks
between these and the keyword. As no blank is a parenthesis, there is one way to read a text
so, however many parentheses the ring has: it ends at the last two closing ones.

The check has four outcomes, and the first of them whose condition holds: the text has
another form, a piece of the ring is no point, the ring is open, or the polygon is right.
The main statement says that these conditions, which do not speak of patterns, tell the
outcome of every text.
-/

namespace RecordQuery.Polygon

open Pattern Text

/-- The polygon is the keyword and the ring in two pairs of parentheses. There may be blanks
between these, and the ring has a character but no line feed. -/
def Encloses (polygon ring : List Char) : Prop :=
  ∃ b₀ b₁ b₂, polygon = "POLYGON".toList ++ (b₀ ++ '(' :: (b₁ ++ '(' ::
      (ring ++ ')' :: (b₂ ++ [')'])))) ∧
    ((∀ c ∈ b₀, isBlank c = true) ∧ (∀ c ∈ b₁, isBlank c = true) ∧ ∀ c ∈ b₂, isBlank c = true) ∧
    ring ≠ [] ∧ ∀ c ∈ ring, c ≠ '\n'

theorem ringTemplate_bounded : ringTemplate.Bounded := by
  simp [Template.Bounded, ringTemplate, Pattern.all, Pattern.text, Bounded]

/-- A parenthesis ends the blanks in front of it. -/
theorem takes_blanks_iff {c : Char} (hc : isBlank c = false) (text rest : List Char) :
    (Pattern.run isBlank).Takes text (c :: rest) ↔ ∀ d ∈ text, isBlank d = true := by
  simp [takes_run, hc]

theorem takes_opening_iff (text rest : List Char) :
    (Pattern.all [.text "POLYGON", .run isBlank, .text "(", .run isBlank, .text "("]).Takes
        text rest ↔
      ∃ b₀ b₁, text = "POLYGON".toList ++ (b₀ ++ '(' :: (b₁ ++ ['('])) ∧
        (∀ c ∈ b₀, isBlank c = true) ∧ ∀ c ∈ b₁, isBlank c = true := by
  have hopen := fun text rest => takes_blanks_iff (show isBlank '(' = false from rfl) text rest
  simp only [Pattern.all, takes_seq, takes_text]
  constructor
  · rintro ⟨_, _, rfl, rfl, b₀, _, rfl, hb₀, _, _, rfl, rfl, b₁, _, rfl, hb₁, rfl⟩
    exact ⟨b₀, b₁, rfl, (hopen _ _).mp hb₀, (hopen _ _).mp hb₁⟩
  · rintro ⟨b₀, b₁, rfl, hb₀, hb₁⟩
    exact ⟨_, _, rfl, rfl, b₀, _, rfl, (hopen _ _).mpr hb₀, ['('], _, rfl, rfl, b₁, _, rfl,
      (hopen _ _).mpr hb₁, rfl⟩

theorem takes_ring_iff (text rest : List Char) :
    (Pattern.seq (.one Grammar.isInline) (.longRun Grammar.isInline)).Takes text rest ↔
      text ≠ [] ∧ ∀ c ∈ text, c ≠ '\n' := by
  have hinline : ∀ c, Grammar.isInline c = true ↔ c ≠ '\n' := fun c => bne_iff_ne
  simp only [takes_seq, takes_one, takes_longRun, hinline]
  constructor
  · rintro ⟨_, more, rfl, ⟨c, rfl, hc⟩, hmore⟩
    exact ⟨by simp, List.forall_mem_cons.mpr ⟨hc, hmore⟩⟩
  · rintro ⟨hne, htext⟩
    obtain ⟨c, more, rfl⟩ := List.exists_cons_of_ne_nil hne
    obtain ⟨hc, hmore⟩ := List.forall_mem_cons.mp htext
    exact ⟨[c], more, rfl, ⟨c, rfl, hc⟩, hmore⟩

theorem takes_closing_iff (text rest : List Char) :
    (Pattern.all [.text ")", .run isBlank, .text ")"]).Takes text rest ↔
      ∃ b₂, text = ')' :: (b₂ ++ [')']) ∧ ∀ c ∈ b₂, isBlank c = true := by
  have hclose := fun text rest => takes_blanks_iff (show isBlank ')' = false from rfl) text rest
  simp only [Pattern.all, takes_seq, takes_text]
  constructor
  · rintro ⟨_, _, rfl, rfl, b₂, _, rfl, hb₂, rfl⟩
    exact ⟨b₂, rfl, (hclose _ _).mp hb₂⟩
  · rintro ⟨b₂, rfl, hb₂⟩
    exact ⟨[')'], _, rfl, rfl, b₂, _, rfl, (hclose _ _).mpr hb₂, rfl⟩

/-- The template fits what encloses a ring. -/
theorem ringTemplate_fits_iff (polygon : List Char) (parts : List (List Char)) :
    ringTemplate.Fits polygon parts [] ↔ ∃ ring, parts = [ring] ∧ Encloses polygon ring := by
  simp only [ringTemplate, Template.Fits, takes_opening_iff, takes_ring_iff, takes_closing_iff]
  constructor
  · rintro ⟨_, _, rfl, ⟨b₀, b₁, rfl, hb₀, hb₁⟩, ring, _, _, rfl, hring, rfl, _, _, rfl,
      ⟨b₂, rfl, hb₂⟩, rfl, rfl⟩
    exact ⟨ring, rfl, b₀, b₁, b₂, by simp, ⟨hb₀, hb₁, hb₂⟩, hring⟩
  · rintro ⟨ring, rfl, b₀, b₁, b₂, rfl, ⟨hb₀, hb₁, hb₂⟩, hring⟩
    exact ⟨_, ring ++ ')' :: (b₂ ++ [')']), by simp, ⟨b₀, b₁, rfl, hb₀, hb₁⟩, ring, _, [], rfl,
      hring, rfl, _, [], (List.append_nil _).symm, ⟨b₂, rfl, hb₂⟩, rfl, rfl⟩

/-- A polygon encloses one ring only: the blanks end at the first parentheses, and from the
end of the polygon backwards at the last but one. -/
theorem Encloses.unique {polygon ring ring' : List Char} (h : Encloses polygon ring)
    (h' : Encloses polygon ring') : ring = ring' := by
  obtain ⟨b₀, b₁, b₂, rfl, ⟨hb₀, hb₁, hb₂⟩, _⟩ := h
  obtain ⟨b₀', b₁', b₂', hsame, ⟨hb₀', hb₁', hb₂'⟩, _⟩ := h'
  have hinner := (append_cons_inj '(' _ _ _ _ (ne_of_blank rfl hb₀) (ne_of_blank rfl hb₀')
    (List.append_cancel_left hsame)).2
  have hring := (append_cons_inj '(' _ _ _ _ (ne_of_blank rfl hb₁) (ne_of_blank rfl hb₁') hinner).2
  have hreverse : b₂.reverse ++ ')' :: ring.reverse = b₂'.reverse ++ ')' :: ring'.reverse := by
    simpa using congrArg List.reverse hring
  have hblank : ∀ {b : List Char}, (∀ c ∈ b, isBlank c = true) → ∀ c ∈ b.reverse, c ≠ ')' :=
    fun hb c hc => ne_of_blank rfl hb c (List.mem_reverse.mp hc)
  exact List.reverse_inj.mp (append_cons_inj ')' _ _ _ _ (hblank hb₂) (hblank hb₂') hreverse).2

theorem check_of_encloses {polygon ring : List Char} (h : Encloses polygon ring) :
    check polygon = checkRing ring := by
  have hmatch : ringTemplate.matchAll? polygon = some [ring] := by
    refine Template.matchAll?_eq_some_of_unique _ ringTemplate_bounded _ _
      ((ringTemplate_fits_iff _ _).mpr ⟨ring, rfl, h⟩) ?_
    intro parts hparts
    obtain ⟨ring', rfl, h'⟩ := (ringTemplate_fits_iff _ _).mp hparts
    rw [h'.unique h]
  rw [check, hmatch]

theorem check_of_not_encloses {polygon : List Char} (h : ¬∃ ring, Encloses polygon ring) :
    check polygon = .error (.illegalPolygon (.ofList polygon)) := by
  have hmatch : ringTemplate.matchAll? polygon = none := by
    rw [Template.matchAll?_eq_none_iff _ ringTemplate_bounded]
    intro parts hparts
    obtain ⟨ring, _, hring⟩ := (ringTemplate_fits_iff _ _).mp hparts
    exact h ⟨ring, hring⟩
  rw [check, hmatch]

/-! The ring. -/

theorem find?_stray_iff (pieces : List (List Char)) (stray : List Char) :
    (pieces.find? fun p => !point.accepts p) = some stray ↔
      ¬IsPoint stray ∧ ∃ before after, pieces = before ++ stray :: after ∧
        ∀ piece ∈ before, IsPoint piece := by
  simp [List.find?_eq_some_iff_append, ← point_accepts_iff]

theorem find?_stray_eq_none_iff (pieces : List (List Char)) :
    (pieces.find? fun p => !point.accepts p) = none ↔ ∀ piece ∈ pieces, IsPoint piece := by
  simp [List.find?_eq_none, ← point_accepts_iff]

/-- The first piece that is no point is reported. -/
theorem checkRing_of_stray {ring stray : List Char} {before after : List (List Char)}
    (hpieces : trimmedPieces ring = before ++ stray :: after)
    (hbefore : ∀ piece ∈ before, IsPoint piece) (hstray : ¬IsPoint stray) :
    checkRing ring = .error (.illegalPoint (.ofList stray)) := by
  have hfind := (find?_stray_iff _ _).mpr ⟨hstray, before, after, hpieces, hbefore⟩
  rw [checkRing, points_eq, hfind]

/-- If all pieces are points, the first and the last one are compared as texts. -/
theorem checkRing_of_points {ring first last : List Char}
    (hpoints : ∀ piece ∈ trimmedPieces ring, IsPoint piece)
    (hfirst : (trimmedPieces ring).head? = some first)
    (hlast : (trimmedPieces ring).getLast? = some last) :
    checkRing ring = if first = last then .ok ()
      else .error (.unclosedPolygon (.ofList first) (.ofList last)) := by
  have hfind := (find?_stray_eq_none_iff _).mpr hpoints
  rw [checkRing, points_eq, hfind]
  simp only [List.headD_eq_head?_getD, List.getLastD_eq_getLast?, hfirst, hlast, Option.getD_some]

/-! Outcomes. -/

/-- What the check of a polygon comes to. -/
inductive Outcome (polygon : List Char) : Except QueryError Unit → Prop
  /-- The text does not enclose a ring. -/
  | formless (hform : ¬∃ ring, Encloses polygon ring) :
      Outcome polygon (.error (.illegalPolygon (.ofList polygon)))
  /-- This is the first piece of the ring that is no point. -/
  | stray {ring stray : List Char} {before after : List (List Char)}
      (hform : Encloses polygon ring)
      (hpieces : trimmedPieces ring = before ++ stray :: after)
      (hbefore : ∀ piece ∈ before, IsPoint piece) (hstray : ¬IsPoint stray) :
      Outcome polygon (.error (.illegalPoint (.ofList stray)))
  /-- All pieces are points, and the first and the last one differ as texts. -/
  | unclosed {ring first last : List Char} (hform : Encloses polygon ring)
      (hpoints : ∀ piece ∈ trimmedPieces ring, IsPoint piece)
      (hfirst : (trimmedPieces ring).head? = some first)
      (hlast : (trimmedPieces ring).getLast? = some last) (hends : first ≠ last) :
      Outcome polygon (.error (.unclosedPolygon (.ofList first) (.ofList last)))
  /-- All pieces are points, and the first and the last one are the same text. -/
  | closed {ring : List Char} (hform : Encloses polygon ring)
      (hpoints : ∀ piece ∈ trimmedPieces ring, IsPoint piece)
      (hends : (trimmedPieces ring).head? = (trimmedPieces ring).getLast?) :
      Outcome polygon (.ok ())

/-- Each text has an outcome, and the check comes to it. -/
theorem outcome_check (polygon : List Char) : Outcome polygon (check polygon) := by
  by_cases hform : ∃ ring, Encloses polygon ring
  · obtain ⟨ring, hring⟩ := hform
    rw [check_of_encloses hring]
    cases hfind : (trimmedPieces ring).find? fun p => !point.accepts p with
    | some stray =>
        obtain ⟨hstray, before, after, hpieces, hbefore⟩ := (find?_stray_iff _ _).mp hfind
        rw [checkRing_of_stray hpieces hbefore hstray]
        exact .stray hring hpieces hbefore hstray
    | none =>
        have hpoints := (find?_stray_eq_none_iff _).mp hfind
        have hne := trimmedPieces_ne_nil ring
        have hfirst := List.head?_eq_some_head hne
        have hlast := List.getLast?_eq_some_getLast hne
        rw [checkRing_of_points hpoints hfirst hlast]
        split
        · next hends => exact .closed hring hpoints (by rw [hfirst, hlast, hends])
        · next hends => exact .unclosed hring hpoints hfirst hlast hends
  · rw [check_of_not_encloses hform]
    exact .formless hform

theorem check_of_outcome {polygon : List Char} {outcome : Except QueryError Unit}
    (h : Outcome polygon outcome) : check polygon = outcome := by
  cases h with
  | formless hform => exact check_of_not_encloses hform
  | stray hform hpieces hbefore hstray =>
      rw [check_of_encloses hform, checkRing_of_stray hpieces hbefore hstray]
  | unclosed hform hpoints hfirst hlast hends =>
      rw [check_of_encloses hform, checkRing_of_points hpoints hfirst hlast, if_neg hends]
  | @closed ring hform hpoints hends =>
      have hfirst := List.head?_eq_some_head (trimmedPieces_ne_nil ring)
      rw [check_of_encloses hform, checkRing_of_points hpoints hfirst (hends.symm.trans hfirst),
        if_pos rfl]

/-- The check has the outcome that the text of the polygon tells, and no other. -/
theorem check_eq_iff (polygon : List Char) (outcome : Except QueryError Unit) :
    check polygon = outcome ↔ Outcome polygon outcome := by
  constructor
  · rintro rfl
    exact outcome_check polygon
  · exact check_of_outcome

end RecordQuery.Polygon
