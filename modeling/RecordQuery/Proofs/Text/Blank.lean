import Mathlib.Data.List.TakeWhile
import RecordQuery.Text.Blank

/-!
What trimming leaves. Nothing but blanks is lost, so that nothing is left of a
text exactly if it is blank. A character that is not blank keeps what is on its
one side apart from what is trimmed on the other.
-/

namespace RecordQuery.Text

theorem ne_of_blank {s : List Char} {c : Char} (hc : isBlank c = false)
    (h : ∀ d ∈ s, isBlank d = true) : ∀ d ∈ s, d ≠ c := by
  rintro d hd rfl
  exact Bool.false_ne_true (hc.symm.trans (h d hd))

theorem isBlank_or_mem_trim (s : List Char) (c : Char) (hc : c ∈ s) :
    isBlank c = true ∨ c ∈ trim s := by
  have hstart : isBlank c = true ∨ c ∈ trimStart s := by
    rw [← List.takeWhile_append_dropWhile (p := isBlank) (l := s), List.mem_append] at hc
    exact hc.imp (List.all_eq_true.mp List.all_takeWhile c) id
  rcases hstart with h | h
  · exact .inl h
  · rw [← List.mem_reverse, ← List.takeWhile_append_dropWhile (p := isBlank)
      (l := (trimStart s).reverse), List.mem_append] at h
    rcases h with h | h
    · exact .inl (List.all_eq_true.mp List.all_takeWhile c h)
    · exact .inr (by simpa [trim, trimEnd] using h)

theorem trimStart_of_blank {s : List Char} (h : ∀ c ∈ s, isBlank c = true) : trimStart s = [] :=
  List.dropWhile_eq_nil_iff.mpr h

theorem trimEnd_of_blank {s : List Char} (h : ∀ c ∈ s, isBlank c = true) : trimEnd s = [] := by
  have hreverse : ∀ c ∈ s.reverse, isBlank c = true := fun c hc => h c (List.mem_reverse.mp hc)
  rw [trimEnd, List.dropWhile_eq_nil_iff.mpr hreverse, List.reverse_nil]

theorem trim_isEmpty_iff (s : List Char) :
    (trim s).isEmpty = true ↔ ∀ c ∈ s, isBlank c = true := by
  constructor
  · intro h c hc
    rcases isBlank_or_mem_trim s c hc with hblank | htrim
    · exact hblank
    · rw [List.isEmpty_iff.mp h] at htrim
      exact absurd htrim (by simp)
  · intro h
    simp [trim, trimStart_of_blank h, trimEnd]

/-- Nothing is cut off at a start that is not blank. -/
theorem trimStart_of_head? (s : List Char) (h : ∀ c ∈ s.head?, isBlank c = false) :
    trimStart s = s := by
  cases s with
  | nil => rfl
  | cons c s =>
      have hc := h c rfl
      simp [trimStart, hc]

theorem head?_trimStart (s : List Char) : ∀ c ∈ (trimStart s).head?, isBlank c = false := by
  intro c hc
  have := List.head?_dropWhile_not isBlank s
  rw [trimStart] at hc
  simpa [Option.mem_def.mp hc] using this

theorem trimEnd_prefix (s : List Char) : trimEnd s <+: s := by
  have hsuffix := List.dropWhile_suffix isBlank (l := s.reverse)
  have := List.reverse_prefix.mpr hsuffix
  rwa [List.reverse_reverse] at this

theorem trimEnd_trimEnd (s : List Char) : trimEnd (trimEnd s) = trimEnd s := by
  have hreverse := trimStart_of_head? _ (head?_trimStart s.reverse)
  unfold trimStart at hreverse
  unfold trimEnd
  rw [List.reverse_reverse, hreverse]

/-- What has been trimmed stays as it is. -/
theorem trim_trim (s : List Char) : trim (trim s) = trim s := by
  have hstart : trimStart (trim s) = trim s := by
    refine trimStart_of_head? _ fun c hc => head?_trimStart s c ?_
    obtain ⟨blanks, happend⟩ := trimEnd_prefix (trimStart s)
    have hhead : (trimEnd (trimStart s)).head? = some c := hc
    rw [← happend, List.head?_append, hhead]
    rfl
  rw [trim, hstart, trim, trimEnd_trimEnd]

theorem mem_of_mem_trim {s : List Char} {c : Char} (h : c ∈ trim s) : c ∈ s := by
  have hends := trimEnd_prefix (trimStart s)
  exact (List.dropWhile_sublist isBlank).mem (hends.mem h)

/-- Blanks in front of what is not blank are cut off. -/
theorem trimStart_append {blanks s : List Char} (hblanks : ∀ c ∈ blanks, isBlank c = true)
    (hs : ∀ c ∈ s.head?, isBlank c = false) : trimStart (blanks ++ s) = s := by
  rw [trimStart, List.dropWhile_append_of_pos hblanks]
  exact trimStart_of_head? s hs

theorem trimStart_append_cons (s : List Char) {c : Char} (rest : List Char)
    (hc : isBlank c = false) : trimStart (s ++ c :: rest) = trimStart s ++ c :: rest := by
  induction s with
  | nil => simp [trimStart, hc]
  | cons d s ih =>
      simp only [trimStart] at ih ⊢
      by_cases hd : isBlank d = true <;> simp [hd, ih]

theorem trimEnd_append_cons (s : List Char) {c : Char} (rest : List Char)
    (hc : isBlank c = false) : trimEnd (s ++ c :: rest) = s ++ c :: trimEnd rest := by
  have hstart := trimStart_append_cons rest.reverse s.reverse hc
  simp only [trimStart] at hstart
  simp [trimEnd, hstart]

/-- A text is blank or has a character that is not. -/
theorem blank_or_exists_append (s : List Char) :
    (∀ c ∈ s, isBlank c = true) ∨ ∃ u c v, s = u ++ c :: v ∧ isBlank c = false := by
  by_cases h : ∀ c ∈ s, isBlank c = true
  · exact .inl h
  · obtain ⟨c, hc⟩ := Classical.not_forall.mp h
    obtain ⟨hmem, hc⟩ := Classical.not_imp.mp hc
    obtain ⟨u, v, rfl⟩ := List.append_of_mem hmem
    exact .inr ⟨u, c, v, rfl, by simpa using hc⟩

/-- The first character of a text that is not blank is not trimmed at the end. -/
theorem trimEnd_cons {d : Char} {s : List Char} (h : ¬∀ c ∈ d :: s, isBlank c = true) :
    trimEnd (d :: s) = d :: trimEnd s := by
  obtain ⟨u, c, v, hsplit, hc⟩ := (blank_or_exists_append (d :: s)).resolve_left h
  cases u with
  | nil =>
      obtain ⟨rfl, rfl⟩ := List.cons.inj hsplit
      exact trimEnd_append_cons [] s hc
  | cons e u =>
      have hs : s = u ++ c :: v := (List.cons.inj hsplit).2
      have hd : d = e := (List.cons.inj hsplit).1
      rw [hsplit, trimEnd_append_cons _ _ hc, hs, trimEnd_append_cons _ _ hc, hd, List.cons_append]

/-- The two ends may be trimmed in any order. -/
theorem trimStart_trimEnd (s : List Char) : trimStart (trimEnd s) = trim s := by
  rcases blank_or_exists_append s with h | ⟨u, c, v, rfl, hc⟩
  · rw [trim, trimEnd_of_blank h, trimStart_of_blank h]
    rfl
  · rw [trim, trimEnd_append_cons _ _ hc, trimStart_append_cons _ _ hc,
      trimStart_append_cons _ _ hc, trimEnd_append_cons _ _ hc]

end RecordQuery.Text
