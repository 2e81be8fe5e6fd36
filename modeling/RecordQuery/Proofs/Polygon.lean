import RecordQuery.Proofs.Polygon.Checking

/-!
The characters of a polygon that passes the check: behind its keyword there are
blanks, digits, signs and parentheses only. So it has no quote and no further
letter, and where none of its blanks is a line feed it is a polygon of the
grammar.
-/

namespace RecordQuery.Polygon

open Pattern Text

/-- A character of a checked polygon behind the keyword. -/
def isShapeChar (c : Char) : Bool :=
  isBlank c || isDigit c || ['-', '.', ',', '(', ')'].contains c

theorem point_each : point.Each fun s => ∀ c ∈ s, isShapeChar c = true := by
  have hblank : ∀ c, isBlank c = true → isShapeChar c = true := by
    intro c h
    simp [isShapeChar, h]
  have hdigit : ∀ c, isDigit c = true → isShapeChar c = true := by
    intro c h
    simp [isShapeChar, h]
  have hminus : isShapeChar '-' = true := rfl
  have hdot : isShapeChar '.' = true := rfl
  simp +contextual [point, Grammar.number, someOf, Pattern.all, Pattern.optional, Pattern.text,
    Each, hblank, hdigit, hminus, hdot]

theorem isShapeChar_of_point (s : List Char) (h : point.accepts s = true) :
    ∀ c ∈ s, isShapeChar c = true :=
  forall_of_takes _ point point_each s [] ((accepts_iff point s).mp h)

theorem point_of_checkRing (ring : List Char) (h : checkRing ring = .ok ()) :
    ∀ p ∈ points ring, point.accepts p = true := by
  intro p hp
  unfold checkRing at h
  split at h
  · simp at h
  · next hnone =>
    have := List.find?_eq_none.mp hnone p hp
    simpa using this

theorem isShapeChar_of_checkRing (ring : List Char) (h : checkRing ring = .ok ()) :
    ∀ c ∈ ring, isShapeChar c = true := by
  intro c hc
  rcases eq_or_mem_pieces ',' ring c hc with rfl | ⟨piece, hpiece, hmem⟩
  · rfl
  · rcases isBlank_or_mem_trim piece c hmem with hblank | htrim
    · simp [isShapeChar, hblank]
    · have hpoint : trim piece ∈ points ring := by
        rw [points_eq]
        exact List.mem_map_of_mem hpiece
      exact isShapeChar_of_point _ (point_of_checkRing ring h _ hpoint) c htrim

theorem exists_ring_of_check (polygon : List Char) (h : check polygon = .ok ()) :
    ∃ ring, Encloses polygon ring ∧ checkRing ring = .ok () := by
  by_cases hring : ∃ ring, Encloses polygon ring
  · obtain ⟨ring, hring⟩ := hring
    exact ⟨ring, hring, (check_of_encloses hring).symm.trans h⟩
  · rw [check_of_not_encloses hring] at h
    cases h

theorem shape_of_check (polygon : List Char) (h : check polygon = .ok ()) :
    ∃ shape, polygon = "POLYGON".toList ++ shape ∧ ∀ c ∈ shape, isShapeChar c = true := by
  obtain ⟨ring, ⟨b₀, b₁, b₂, rfl, ⟨hb₀, hb₁, hb₂⟩, _⟩, hring⟩ := exists_ring_of_check polygon h
  refine ⟨_, rfl, ?_⟩
  intro c hc
  simp only [List.mem_append, List.mem_cons, List.not_mem_nil, or_false] at hc
  rcases hc with hc | rfl | hc | rfl | hc | rfl | hc | rfl
  · simp [isShapeChar, hb₀ c hc]
  · rfl
  · simp [isShapeChar, hb₁ c hc]
  · rfl
  · exact isShapeChar_of_checkRing ring hring c hc
  · rfl
  · simp [isShapeChar, hb₂ c hc]
  · rfl

/-- A polygon that does not pass the check has another form, a point that is none, or ends
that differ. -/
theorem error_of_check (polygon : List Char) (e : QueryError) (h : check polygon = .error e) :
    e = .illegalPolygon (.ofList polygon) ∨ (∃ point, e = .illegalPoint point) ∨
      ∃ first last, e = .unclosedPolygon first last := by
  unfold check at h
  split at h
  · unfold checkRing at h
    split at h
    · exact .inr (.inl ⟨_, (Except.error.inj h).symm⟩)
    · dsimp only at h
      split at h
      · cases h
      · exact .inr (.inr ⟨_, _, (Except.error.inj h).symm⟩)
  · exact .inl (Except.error.inj h).symm

/-- On one line, what passes the check is a polygon of the grammar. -/
theorem accepts_of_check (polygon : List Char) (h : check polygon = .ok ())
    (hinline : ∀ c ∈ polygon, Grammar.isInline c = true) :
    Grammar.polygon.accepts polygon = true := by
  obtain ⟨ring, ⟨b₀, b₁, b₂, rfl, ⟨hb₀, _, _⟩, _⟩, _⟩ := exists_ring_of_check polygon h
  simp only [accepts_iff, Grammar.polygon, Pattern.all, takes_seq, takes_text, takes_run,
    takes_shortRun]
  refine ⟨_, _, rfl, rfl, b₀, _, rfl, ⟨hb₀, ?_⟩, ['('], _, rfl, rfl,
    b₁ ++ '(' :: (ring ++ ')' :: b₂), [')'], by simp, ⟨by simp, ?_⟩, rfl⟩
  · intro c hc
    obtain rfl : '(' = c := by simpa using hc
    rfl
  · intro c hc
    refine hinline c ?_
    simp only [List.mem_append, List.mem_cons] at hc ⊢
    rcases hc with hc | rfl | hc | rfl | hc <;> simp [*]

end RecordQuery.Polygon
