import RecordQuery.Pattern.Template
import RecordQuery.Proofs.Pattern.Takes

/-!
How a template reads a text. `Fits` says that the pieces of a template can take
a text one after another, whatever the priority: a match always is such a
fitting, and where only one fitting exists it is the match.

A reading of a text by a template is the text cut into segments: characters in
gaps, and matches. Every text has a reading, and the scan of the text reports the
matches and the gaps of any of its readings.
-/

namespace RecordQuery

namespace Template

open Pattern

/-- The pieces take the text one after another up to the rest, and these are the
kept parts. -/
def Fits : Template → List Char → List (List Char) → List Char → Prop
  | [], s, parts, rest => parts = [] ∧ s = rest
  | .skip p :: pieces, s, parts, rest =>
    ∃ u after, s = u ++ after ∧ p.Takes u after ∧ Fits pieces after parts rest
  | .keep p :: pieces, s, parts, rest =>
    ∃ u after later, s = u ++ after ∧ p.Takes u after ∧ parts = u :: later ∧
      Fits pieces after later rest

/-- No pattern of the template measures more than there is. -/
def Bounded (template : Template) : Prop :=
  ∀ piece ∈ template, match piece with
    | .skip p | .keep p => p.Bounded

theorem fits_of_match? (template : Template) (hb : template.Bounded) (s : List Char)
    (parts : List (List Char)) (rest : List Char)
    (h : template.match? s = some (parts, rest)) : template.Fits s parts rest := by
  induction template generalizing s parts with
  | nil =>
      simp only [match?, Option.some.injEq, Prod.mk.injEq] at h
      exact ⟨h.1.symm, h.2⟩
  | cons piece pieces ih =>
      have hpieces : Template.Bounded pieces := fun q hq => hb q (by simp [hq])
      have hpiece := hb piece (by simp)
      cases piece with
      | skip p =>
          obtain ⟨n, hn, hmatch⟩ := List.exists_of_findSome?_eq_some h
          exact ⟨s.take n, s.drop n, (List.take_append_drop n s).symm,
            takes_of_mem_ends p hpiece s n hn, ih hpieces _ _ hmatch⟩
      | keep p =>
          obtain ⟨n, hn, hmatch⟩ := List.exists_of_findSome?_eq_some h
          obtain ⟨⟨later, rest'⟩, hlater, heq⟩ := Option.map_eq_some_iff.mp hmatch
          simp only [Prod.mk.injEq] at heq
          obtain ⟨rfl, rfl⟩ := heq
          exact ⟨s.take n, s.drop n, later, (List.take_append_drop n s).symm,
            takes_of_mem_ends p hpiece s n hn, rfl, ih hpieces _ _ hlater⟩

theorem match?_isSome_of_fits (template : Template) (s : List Char)
    (parts : List (List Char)) (rest : List Char) (h : template.Fits s parts rest) :
    (template.match? s).isSome = true := by
  induction template generalizing s parts with
  | nil => rfl
  | cons piece pieces ih =>
      cases piece with
      | skip p =>
          obtain ⟨u, after, rfl, hu, hafter⟩ := h
          simp only [match?, List.findSome?_isSome_iff]
          exact ⟨u.length, hu, by simpa using ih after parts hafter⟩
      | keep p =>
          obtain ⟨u, after, later, rfl, hu, rfl, hafter⟩ := h
          simp only [match?, List.findSome?_isSome_iff]
          exact ⟨u.length, hu, by simpa using ih after later hafter⟩

theorem match?_eq_none_iff (template : Template) (hb : template.Bounded) (s : List Char) :
    template.match? s = none ↔ ∀ parts rest, ¬template.Fits s parts rest := by
  constructor
  · intro hnone parts rest hfits
    have := match?_isSome_of_fits template s parts rest hfits
    simp [hnone] at this
  · intro hno
    cases h : template.match? s with
    | none => rfl
    | some found => exact absurd (fits_of_match? template hb s found.1 found.2 h) (hno _ _)

/-- A fitting that is the only one is the match. -/
theorem match?_eq_some_of_unique (template : Template) (hb : template.Bounded) (s : List Char)
    (parts : List (List Char)) (rest : List Char) (h : template.Fits s parts rest)
    (hunique : ∀ parts' rest', template.Fits s parts' rest' → parts' = parts ∧ rest' = rest) :
    template.match? s = some (parts, rest) := by
  obtain ⟨⟨parts', rest'⟩, hmatch⟩ :=
    Option.isSome_iff_exists.mp (match?_isSome_of_fits template s parts rest h)
  obtain ⟨rfl, rfl⟩ := hunique parts' rest' (fits_of_match? template hb s parts' rest' hmatch)
  exact hmatch

theorem match?_skip_word (chars : List Char) (pieces : Template) (s : List Char) :
    match? (.skip (.word chars) :: pieces) (chars ++ s) = match? pieces s := by
  simp [match?, ends]

/-- A part that is kept is the first end behind which the other pieces match. If
the ends go up, it is enough that they match behind no shorter one. -/
theorem match?_keep_of_least (p : Pattern) (hp : p.Bounded) (pieces : Template)
    (u after : List Char) (later : List (List Char)) (rest : List Char)
    (horder : (p.ends (u ++ after)).Pairwise (· < ·)) (hu : p.Takes u after)
    (hafter : match? pieces after = some (later, rest))
    (hleast : ∀ u' after', u ++ after = u' ++ after' → p.Takes u' after' →
      (match? pieces after').isSome = true → u.length ≤ u'.length) :
    match? (.keep p :: pieces) (u ++ after) = some (u :: later, rest) := by
  obtain ⟨before, longer, hends⟩ := List.append_of_mem hu
  have hbefore : ∀ n ∈ before, match? pieces ((u ++ after).drop n) = none := by
    intro n hn
    have hmem : n ∈ p.ends (u ++ after) := by simp [hends, hn]
    have hlt : n < u.length := by
      rw [hends, List.pairwise_append] at horder
      exact horder.2.2 n hn u.length (by simp)
    rw [← Option.not_isSome_iff_eq_none]
    intro hsome
    have hle := hleast _ _ (List.take_append_drop n _).symm (takes_of_mem_ends p hp _ n hmem) hsome
    rw [List.length_take] at hle
    omega
  rw [match?, hends, List.findSome?_append, List.findSome?_eq_none_iff.mpr]
  · simp [hafter]
  · intro n hn
    rw [hbefore n hn]
    rfl

/-- If there is one end only behind which the other pieces match, their order
does not matter. -/
theorem match?_keep_of_only (p : Pattern) (hp : p.Bounded) (pieces : Template)
    (u after : List Char) (later : List (List Char)) (rest : List Char) (hu : p.Takes u after)
    (hafter : match? pieces after = some (later, rest))
    (honly : ∀ u' after', u ++ after = u' ++ after' → p.Takes u' after' →
      (match? pieces after').isSome = true → u' = u) :
    match? (.keep p :: pieces) (u ++ after) = some (u :: later, rest) := by
  cases h : match? (.keep p :: pieces) (u ++ after) with
  | none =>
      rw [match?, List.findSome?_eq_none_iff] at h
      have := h u.length hu
      simp [hafter] at this
  | some found =>
      obtain ⟨n, hn, hmatch⟩ := List.exists_of_findSome?_eq_some h
      obtain ⟨⟨parts, rest'⟩, hlater, rfl⟩ := Option.map_eq_some_iff.mp hmatch
      have htake := honly _ _ (List.take_append_drop n _).symm (takes_of_mem_ends p hp _ n hn)
        (by simp [hlater])
      have hdrop : (u ++ after).drop n = after := by
        have := List.take_append_drop n (u ++ after)
        rw [htake] at this
        exact List.append_cancel_left this
      rw [hdrop, hafter, Option.some.injEq, Prod.mk.injEq] at hlater
      simp [htake, hlater]

/-! A match of the whole text is a match at its start by a template with one more
piece, which stands for the end of the text. So what holds of `match?` carries over. -/

/-- Takes nothing, and that only where nothing follows. -/
def textEnd : Pattern :=
  .measured fun s => if s.isEmpty then some 0 else none

theorem takes_textEnd (text rest : List Char) :
    textEnd.Takes text rest ↔ text = [] ∧ rest = [] := by
  rw [textEnd, takes_measured]
  cases text with
  | nil => simp
  | cons c text => simp

/-- The template that has to reach the end of the text. -/
def toEnd (template : Template) : Template :=
  template ++ [.skip textEnd]

theorem toEnd_cons (piece : Piece) (pieces : Template) :
    toEnd (piece :: pieces) = piece :: toEnd pieces := rfl

theorem Bounded.toEnd {template : Template} (hb : template.Bounded) :
    template.toEnd.Bounded := by
  intro piece hpiece
  rcases List.mem_append.mp hpiece with hpiece | hpiece
  · exact hb piece hpiece
  · obtain rfl := List.mem_singleton.mp hpiece
    intro s n hn
    obtain ⟨-, hzero⟩ := Option.ite_none_right_eq_some.mp hn
    obtain rfl := Option.some.inj hzero
    exact Nat.zero_le s.length

theorem fits_toEnd_iff (template : Template) (s : List Char) (parts : List (List Char))
    (rest : List Char) :
    template.toEnd.Fits s parts rest ↔ template.Fits s parts [] ∧ rest = [] := by
  induction template generalizing s parts with
  | nil =>
      constructor
      · rintro ⟨u, after, rfl, hend, rfl, rfl⟩
        obtain ⟨rfl, rfl⟩ := (takes_textEnd u after).mp hend
        exact ⟨⟨rfl, rfl⟩, rfl⟩
      · rintro ⟨⟨rfl, rfl⟩, rfl⟩
        exact ⟨[], [], rfl, (takes_textEnd [] []).mpr ⟨rfl, rfl⟩, rfl, rfl⟩
  | cons piece pieces ih =>
      -- What is said of the rest moves out from under the quantifiers.
      rw [toEnd_cons]
      cases piece with
      | skip p => simp only [Fits, ih, ← and_assoc, exists_and_right]
      | keep p => simp only [Fits, ih, ← and_assoc, exists_and_right]

theorem match?_toEnd (template : Template) (s : List Char) :
    template.toEnd.match? s = (template.matchAll? s).map (·, []) := by
  induction template generalizing s with
  | nil => cases s <;> rfl
  | cons piece pieces ih =>
      rw [toEnd_cons]
      cases piece with
      | skip p => simp only [match?, matchAll?, ih, List.map_findSome?, Function.comp_def]
      | keep p =>
          simp only [match?, matchAll?, ih, List.map_findSome?, Option.map_map, Function.comp_def]

theorem matchAll?_eq_some_iff_toEnd (template : Template) (s : List Char)
    (parts : List (List Char)) :
    template.matchAll? s = some parts ↔ template.toEnd.match? s = some (parts, []) := by
  simp [match?_toEnd]

theorem fits_of_matchAll? (template : Template) (hb : template.Bounded) (s : List Char)
    (parts : List (List Char)) (h : template.matchAll? s = some parts) :
    template.Fits s parts [] := by
  have hfits := fits_of_match? template.toEnd hb.toEnd s parts []
    ((matchAll?_eq_some_iff_toEnd template s parts).mp h)
  exact ((fits_toEnd_iff template s parts []).mp hfits).1

theorem matchAll?_eq_none_iff (template : Template) (hb : template.Bounded) (s : List Char) :
    template.matchAll? s = none ↔ ∀ parts, ¬template.Fits s parts [] := by
  have hnone : template.matchAll? s = none ↔ template.toEnd.match? s = none := by
    simp [match?_toEnd]
  rw [hnone, match?_eq_none_iff template.toEnd hb.toEnd s]
  simp [fits_toEnd_iff]

theorem matchAll?_eq_some_of_unique (template : Template) (hb : template.Bounded) (s : List Char)
    (parts : List (List Char)) (h : template.Fits s parts [])
    (hunique : ∀ parts', template.Fits s parts' [] → parts' = parts) :
    template.matchAll? s = some parts := by
  refine (matchAll?_eq_some_iff_toEnd template s parts).mpr
    (match?_eq_some_of_unique template.toEnd hb.toEnd s parts []
      ((fits_toEnd_iff template s parts []).mpr ⟨h, rfl⟩) ?_)
  intro parts' rest' hend
  obtain ⟨hfits, rfl⟩ := (fits_toEnd_iff template s parts' rest').mp hend
  exact ⟨hunique parts' hfits, rfl⟩

/-! Splitting a text at the matches. -/

theorem split_nil (template : Template) : template.split [] = [[]] := by
  rw [split]

theorem split_of_match (template : Template) {s rest : List Char} {parts : List (List Char)}
    (h : template.match? s = some (parts, rest)) (hlt : rest.length < s.length) :
    template.split s = [] :: template.split rest := by
  cases s with
  | nil => cases hlt
  | cons c tail =>
      rw [split, h]
      exact if_pos (Nat.le_of_lt_succ hlt)

theorem split_of_not_match (template : Template) {c : Char} {tail : List Char}
    (h : template.match? (c :: tail) = none) :
    template.split (c :: tail) = (template.split tail).modifyHead (c :: ·) := by
  rw [split, h]

/-- A fitting splits the text into what is matched and the rest. -/
theorem Fits.exists_append {template : Template} {s rest : List Char}
    {parts : List (List Char)} (h : template.Fits s parts rest) : ∃ text, s = text ++ rest := by
  induction template generalizing s parts with
  | nil => exact ⟨[], h.2⟩
  | cons piece pieces ih =>
      cases piece with
      | skip p =>
          obtain ⟨u, after, rfl, _, hafter⟩ := h
          obtain ⟨text, rfl⟩ := ih hafter
          exact ⟨u ++ text, (List.append_assoc u text rest).symm⟩
      | keep p =>
          obtain ⟨u, after, later, rfl, _, _, hafter⟩ := h
          obtain ⟨text, rfl⟩ := ih hafter
          exact ⟨u ++ text, (List.append_assoc u text rest).symm⟩

end Template

/-- A piece of a text that was read with a template. -/
inductive Segment where
  /-- A character that belongs to no match. -/
  | gap (c : Char)
  /-- A match: all of its text, and the parts that are kept. -/
  | found (text : List Char) (parts : List (List Char))

namespace Segment

def chars : Segment → List Char
  | .gap c => [c]
  | .found text _ => text

/-- The text that was read. -/
def spell (segments : List Segment) : List Char :=
  segments.flatMap chars

/-- The kept parts of the matches. -/
def kept (segments : List Segment) : List (List (List Char)) :=
  segments.filterMap fun
    | .gap _ => none
    | .found _ parts => some parts

/-- The characters in the gaps. -/
def outside (segments : List Segment) : List Char :=
  segments.filterMap fun
    | .gap c => some c
    | .found _ _ => none

@[simp] theorem spell_nil : spell [] = [] := rfl

@[simp] theorem spell_cons (segment : Segment) (segments : List Segment) :
    spell (segment :: segments) = segment.chars ++ spell segments := by
  simp [spell]

@[simp] theorem spell_append (first second : List Segment) :
    spell (first ++ second) = spell first ++ spell second := by
  simp [spell]

@[simp] theorem spell_map_gap (s : List Char) : spell (s.map .gap) = s := by
  induction s with
  | nil => rfl
  | cons c s ih => simp [chars, ih]

@[simp] theorem outside_append (first second : List Segment) :
    outside (first ++ second) = outside first ++ outside second := by
  simp [outside]

@[simp] theorem outside_map_gap (s : List Char) : outside (s.map .gap) = s := by
  rw [outside, List.filterMap_map]
  exact List.filterMap_some

@[simp] theorem kept_append (first second : List Segment) :
    kept (first ++ second) = kept first ++ kept second := by
  simp [kept]

@[simp] theorem kept_map_gap (s : List Char) : kept (s.map .gap) = [] := by
  simp [kept]

end Segment

namespace Template

open Segment

/-- The segments are the reading of their text: no match begins in a gap, and
the matches are the preferred ones. -/
inductive Reads (template : Template) : List Segment → Prop
  | nil : Reads template []
  | gap (c : Char) (segments : List Segment) :
      template.match? (c :: spell segments) = none → Reads template segments →
      Reads template (.gap c :: segments)
  | found (text : List Char) (parts : List (List Char)) (segments : List Segment) :
      text ≠ [] → template.match? (text ++ spell segments) = some (parts, spell segments) →
      Reads template segments → Reads template (.found text parts :: segments)

theorem Reads.append_right {template : Template} {first later : List Segment}
    (h : template.Reads (first ++ later)) : template.Reads later := by
  induction first with
  | nil => exact h
  | cons segment first ih =>
      cases h with
      | gap _ _ _ hreads => exact ih hreads
      | found _ _ _ _ _ hreads => exact ih hreads

/-- Where a match begins, a reading has no gap. -/
theorem Reads.match?_gap {template : Template} {s : List Char} {later : List Segment}
    (h : template.Reads (s.map .gap ++ later)) (before after : List Char)
    (hs : s = before ++ after) (hne : after ≠ []) :
    template.match? (after ++ spell later) = none := by
  obtain ⟨c, after, rfl⟩ := List.exists_cons_of_ne_nil hne
  rw [hs, List.map_append, List.append_assoc] at h
  have hgap := h.append_right
  cases hgap with
  | gap _ _ hnone => simpa using hnone

theorem reads_append_gaps (template : Template) (s : List Char) (later : List Segment)
    (hs : ∀ before after, s = before ++ after → after ≠ [] →
      template.match? (after ++ spell later) = none)
    (hlater : template.Reads later) : template.Reads (s.map .gap ++ later) := by
  induction s with
  | nil => exact hlater
  | cons c s ih =>
      refine .gap c _ (by simpa using hs [] (c :: s) rfl (by simp)) (ih ?_)
      rintro before after rfl hne
      exact hs (c :: before) after rfl hne

theorem scan_of_reads (template : Template) (segments : List Segment)
    (h : template.Reads segments) :
    template.scan (spell segments) = (kept segments, outside segments) := by
  induction h with
  | nil => simp [scan, kept, outside]
  | gap c segments hnone _ ih =>
      have hscan : template.scan (c :: spell segments) =
          ((template.scan (spell segments)).1, c :: (template.scan (spell segments)).2) := by
        rw [scan, hnone]
      simpa [chars, ih, kept, outside] using hscan
  | found text parts segments hne hmatch _ ih =>
      obtain ⟨c, tail, rfl⟩ := List.exists_cons_of_ne_nil hne
      have hscan : template.scan (c :: (tail ++ spell segments)) =
          (parts :: (template.scan (spell segments)).1, (template.scan (spell segments)).2) := by
        rw [scan]
        rw [List.cons_append] at hmatch
        rw [hmatch]
        simp
      simpa [chars, ih, kept, outside] using hscan

/-- No fitting of the template is empty. -/
def Consuming (template : Template) : Prop :=
  ∀ s parts rest, template.Fits s parts rest → s ≠ rest

theorem exists_reads (template : Template) (hb : template.Bounded) (hc : template.Consuming)
    (s : List Char) : ∃ segments, spell segments = s ∧ template.Reads segments := by
  induction hlen : s.length using Nat.strongRecOn generalizing s with
  | ind n ih =>
      cases s with
      | nil => exact ⟨[], rfl, .nil⟩
      | cons c tail =>
          cases hmatch : template.match? (c :: tail) with
          | none =>
              obtain ⟨segments, rfl, hreads⟩ := ih tail.length (by simp at hlen; omega) tail rfl
              exact ⟨.gap c :: segments, by simp [chars], .gap c segments hmatch hreads⟩
          | some found =>
              obtain ⟨parts, rest⟩ := found
              have hfits := fits_of_match? template hb _ _ _ hmatch
              obtain ⟨text, htext⟩ := hfits.exists_append
              have hne : text ≠ [] := by
                rintro rfl
                exact hc _ _ _ hfits htext
              have hpos : 0 < text.length := List.length_pos_iff.mpr hne
              have hsum := congrArg List.length htext
              simp only [List.length_append] at hsum
              obtain ⟨segments, rfl, hreads⟩ := ih rest.length (by omega) rest rfl
              refine ⟨.found text parts :: segments, by simp [chars, htext], ?_⟩
              exact .found text parts segments hne (by rw [← htext]; exact hmatch) hreads

end Template

end RecordQuery
