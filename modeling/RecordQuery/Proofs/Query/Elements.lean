import RecordQuery.Proofs.Query.Operands

/-!
Where a list of literals is split. A comma divides a list if it stands outside quotes, and
no literal has another one there, so the pieces between these commas are the literals that
were joined. The search for elements finds each of them, one match after the other, and
there is no text that it passes over.
-/

namespace RecordQuery

namespace Text

variable (separator : Char)

/-- The pieces of a text between the separators that stand outside quotes. -/
def outerPieces : Bool → List Char → List (List Char)
  | _, [] => [[]]
  | inside, c :: rest =>
    if c = separator ∧ inside = false then [] :: outerPieces false rest
    else (outerPieces (if c = '\'' then !inside else inside) rest).modifyHead (c :: ·)

/-- A text without the separator outside quotes belongs to one piece, and the quoting goes on
behind it. -/
theorem outerPieces_append (hseparator : separator ≠ '\'') (inside : Bool) (s rest : List Char)
    (h : separator ∉ skeleton inside s) :
    outerPieces separator inside (s ++ rest) =
      (outerPieces separator (endsInside inside s) rest).modifyHead (s ++ ·) := by
  induction s generalizing inside with
  | nil => exact (congrFun List.modifyHead_id (outerPieces separator inside rest)).symm
  | cons c s ih =>
      have hinner : ¬(c = separator ∧ inside = false) := by
        rintro ⟨rfl, rfl⟩
        simp [skeleton, hseparator] at h
      have htail : separator ∉ skeleton (if c = '\'' then !inside else inside) s :=
        fun hmem => h (mem_skeleton_cons inside c s hmem)
      rw [List.cons_append, outerPieces, if_neg hinner, ih _ htail, List.modifyHead_modifyHead,
        endsInside]
      rfl

/-- Texts that close their quotes, without the separator outside of them, are the pieces of
what they are joined to. -/
theorem outerPieces_join (hseparator : separator ≠ '\'') (texts : List (List Char))
    (hne : texts ≠ [])
    (h : ∀ s ∈ texts, endsInside false s = false ∧ separator ∉ skeleton false s) :
    outerPieces separator false (join [separator] texts) = texts := by
  induction texts with
  | nil => exact absurd rfl hne
  | cons s texts ih =>
      obtain ⟨hclosed, houter⟩ := h s (by simp)
      cases texts with
      | nil =>
          have happend := outerPieces_append separator hseparator false s [] houter
          rw [List.append_nil] at happend
          rw [join, happend]
          simp [outerPieces]
      | cons next texts =>
          have hlater := ih (by simp) fun t ht => h t (by simp [ht])
          rw [join, List.append_assoc, outerPieces_append separator hseparator false s _ houter,
            hclosed, List.singleton_append, outerPieces, if_pos ⟨rfl, rfl⟩, hlater,
            List.modifyHead_cons, List.append_nil]
          exact List.cons_ne_nil next texts

end Text

namespace Query

open Text

theorem outerPieces_elements (elements : List (List Char)) (hne : elements ≠ [])
    (hall : ∀ u ∈ elements, Grammar.literal.accepts u = true) :
    outerPieces ',' false (join [','] elements) = elements := by
  refine outerPieces_join ',' (by decide) elements hne fun u hu => ?_
  have hsealed := Grammar.sealed_of_takes_literal u [] ((Pattern.accepts_iff _ _).mp (hall u hu))
  exact ⟨hsealed.closed, fun hcomma => nomatch hsealed.skeleton_mem ',' hcomma⟩

/-- Literals that are joined by commas are read one by one, in their order. The commas
between them are those outside quotes, and nothing is left of the text beside the matches. -/
theorem readList_elements (elements : List (List Char)) (hne : elements ≠ [])
    (hall : ∀ u ∈ elements, Grammar.literal.accepts u = true) :
    outerPieces ',' false (join [','] elements) = elements ∧
      element.remove (join [','] elements ++ [',']) = [] ∧
      ∃ literals, readList (join [','] elements) = .ok literals ∧
        elements.map Literal.classifyChars = literals.map .ok := by
  obtain ⟨literals, hliterals⟩ := exists_mapM_eq_ok Literal.classifyChars elements
    fun u hu => Literal.classifyChars_isOk u (hall u hu)
  refine ⟨outerPieces_elements elements hne hall, ?_, literals, ?_,
    (mapM_eq_ok_iff _ _ _).mp hliterals⟩
  · rw [Template.remove, scan_elements elements hne hall]
  · rw [readList_join elements hne hall, hliterals]

/-- Three of the seven commas stand between the elements. -/
theorem readList_elements_of_quoted :
    let elements := ["'a,b'".toList, "1+2".toList, "'it''s,, 1=1,'".toList, "f()".toList]
    let literals : List Literal := [.plain "a,b", .arithmetic (.plain "1") .add (.plain "2"),
      .plain "it's,, 1=1,", .call "f" none]
    elements ≠ [] ∧ (∀ u ∈ elements, Grammar.literal.accepts u = true) ∧
      readList "'a,b',1+2,'it''s,, 1=1,',f()".toList = .ok literals := by
  intro elements literals
  have hne : elements ≠ [] := List.cons_ne_nil _ _
  have hall : ∀ u ∈ elements, Grammar.literal.accepts u = true := by decide +kernel
  obtain ⟨-, -, found, hread, hfound⟩ := readList_elements elements hne hall
  have hclassified : elements.mapM Literal.classifyChars = .ok literals :=
    eq_ok_of_toOption (by decide +kernel)
  rw [(mapM_eq_ok_iff _ _ _).mpr hfound] at hclassified
  obtain rfl := Except.ok.inj hclassified
  exact ⟨hne, hall, hread⟩

end Query

end RecordQuery
