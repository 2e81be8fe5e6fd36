import RecordQuery.Proofs.Entries
import RecordQuery.Proofs.Text.Edits
import RecordQuery.Schema

/-!
The name that is suggested for an unknown property. The search gives the first of the
declared names with the least distance in lower case, and the distance is the least number
of edits. So what is suggested is the closest name, and it is suggested if it is within
three edits.

There is one exception. A name that differs from the unknown one in case only is at the
distance nought. It is the closest name there can be and is not suggested, and being the
closest it also keeps every other name from being suggested.
-/

namespace RecordQuery.Schema

open Text

variable {α : Type} {number : String → Nat} {entries : List String} {best : String}

/-- The first entry with the least number. -/
def IsLeastBy (number : String → Nat) (entries : List String) (best : String) : Prop :=
  ∃ before after, entries = before ++ best :: after ∧
    (∀ other ∈ before, number best < number other) ∧ ∀ other ∈ after, number best ≤ number other

namespace IsLeastBy

theorem mem (h : IsLeastBy number entries best) : best ∈ entries := by
  obtain ⟨before, after, rfl, -, -⟩ := h
  simp

theorem le (h : IsLeastBy number entries best) {other : String} (hother : other ∈ entries) :
    number best ≤ number other := by
  obtain ⟨before, after, rfl, hbefore, hafter⟩ := h
  rcases List.mem_append.mp hother with hother | hother
  · exact Nat.le_of_lt (hbefore other hother)
  · rcases List.mem_cons.mp hother with rfl | hother
    · exact Nat.le_refl _
    · exact hafter other hother

theorem cons_of_lt (h : IsLeastBy number entries best) {entry : String}
    (hlt : number best < number entry) : IsLeastBy number (entry :: entries) best := by
  obtain ⟨before, after, rfl, hbefore, hafter⟩ := h
  refine ⟨entry :: before, after, rfl, ?_, hafter⟩
  intro other hother
  rcases List.mem_cons.mp hother with rfl | hother
  · exact hlt
  · exact hbefore other hother

theorem cons_of_le (h : IsLeastBy number entries best) {entry : String}
    (hle : number entry ≤ number best) : IsLeastBy number (entry :: entries) entry :=
  ⟨[], entries, rfl, by simp, fun _ hother => Nat.le_trans hle (h.le hother)⟩

/-- Of two entries that are first with the least number neither stands before the other. -/
theorem unique {best' : String} (h : IsLeastBy number entries best)
    (h' : IsLeastBy number entries best') : best = best' := by
  have hsame : number best = number best' := Nat.le_antisymm (h.le h'.mem) (h'.le h.mem)
  obtain ⟨before, after, rfl, hbefore, -⟩ := h
  obtain ⟨before', after', heq, hbefore', -⟩ := h'
  rcases List.append_eq_append_iff.mp heq with ⟨more, rfl, hmore⟩ | ⟨more, rfl, hmore⟩
  · cases more with
    | nil => exact (List.cons.inj hmore).1
    | cons c more =>
        obtain ⟨rfl, -⟩ := List.cons.inj hmore
        exact absurd hsame (Nat.ne_of_gt (hbefore' best (by simp)))
  · cases more with
    | nil => exact (List.cons.inj hmore).1.symm
    | cons c more =>
        obtain ⟨rfl, -⟩ := List.cons.inj hmore
        exact absurd hsame (Nat.ne_of_lt (hbefore best' (by simp)))

end IsLeastBy

theorem leastBy_eq_none_iff (number : String → Nat) (entries : List String) :
    leastBy number entries = none ↔ entries = [] := by
  cases entries with
  | nil => simp [leastBy]
  | cons entry rest =>
      simp only [leastBy]
      split
      · split <;> simp
      · simp

theorem isLeastBy_of_leastBy (h : leastBy number entries = some best) :
    IsLeastBy number entries best := by
  induction entries generalizing best with
  | nil => cases h
  | cons entry rest ih =>
      rw [leastBy] at h
      cases hrest : leastBy number rest with
      | none =>
          obtain rfl := (leastBy_eq_none_iff number rest).mp hrest
          rw [hrest] at h
          obtain rfl := Option.some.inj h
          exact ⟨[], [], rfl, by simp, by simp⟩
      | some least =>
          have hleast := ih hrest
          simp only [hrest] at h
          split at h
          · next hlt =>
            obtain rfl := Option.some.inj h
            exact hleast.cons_of_lt hlt
          · next hle =>
            obtain rfl := Option.some.inj h
            exact hleast.cons_of_le (Nat.le_of_not_lt hle)

theorem leastBy_eq_some_iff (number : String → Nat) (entries : List String) (best : String) :
    leastBy number entries = some best ↔ IsLeastBy number entries best := by
  refine ⟨isLeastBy_of_leastBy, fun h => ?_⟩
  cases hleast : leastBy number entries with
  | none =>
      rw [leastBy_eq_none_iff] at hleast
      subst hleast
      exact absurd h.mem (by simp)
  | some least => rw [(isLeastBy_of_leastBy hleast).unique h]

/-! Names. -/

/-- The first of the non-empty names that is closest to a name in lower case. -/
def IsClosest (name : String) (names : List String) (best : String) : Prop :=
  IsLeastBy (nameDistance name) (names.filter (· ≠ "")) best

/-- The closest name is suggested if some name is within three edits, and none otherwise. -/
def SuggestsClosest (name : String) (names : List String) (suggestion : Option String) : Prop :=
  (suggestion.isSome = true ↔ ∃ other ∈ names, other ≠ "" ∧ nameDistance name other ≤ 3) ∧
    ∀ best, suggestion = some best → IsClosest name names best

theorem nameDistance_eq_zero_iff (name other : String) :
    nameDistance name other = 0 ↔ lowercase other.toList = lowercase name.toList := by
  rw [nameDistance, distance_eq_zero_iff]
  exact eq_comm

theorem suggest_eq_some_iff (name : String) (names : List String) (best : String) :
    suggest name names = some best ↔
      IsClosest name names best ∧ 0 < nameDistance name best ∧ nameDistance name best ≤ 3 := by
  rw [IsClosest, ← leastBy_eq_some_iff, suggest]
  cases hleast : leastBy (nameDistance name) (names.filter (· ≠ "")) with
  | none => simp
  | some least =>
      simp only [Option.bind_eq_bind, Option.bind_some, Option.some.injEq]
      constructor
      · intro h
        split at h
        · next hnear =>
          obtain rfl := Option.some.inj h
          exact ⟨rfl, hnear⟩
        · cases h
      · rintro ⟨rfl, hnear⟩
        exact if_pos hnear

/-- The exception is the only one. -/
theorem suggestsClosest_suggest_iff (name : String) (names : List String) :
    SuggestsClosest name names (suggest name names) ↔
      ∀ other ∈ names, other ≠ "" → lowercase other.toList ≠ lowercase name.toList := by
  have hmem : ∀ other, other ∈ names.filter (· ≠ "") ↔ other ∈ names ∧ other ≠ "" := by simp
  constructor
  · rintro ⟨hsome, -⟩ other hother hne heq
    have hzero := (nameDistance_eq_zero_iff name other).mpr heq
    obtain ⟨best, hbest⟩ := Option.isSome_iff_exists.mp
      (hsome.mpr ⟨other, hother, hne, by omega⟩)
    obtain ⟨hclosest, hpos, -⟩ := (suggest_eq_some_iff name names best).mp hbest
    have := hclosest.le ((hmem other).mpr ⟨hother, hne⟩)
    omega
  · intro hcase
    refine ⟨⟨fun hsome => ?_, ?_⟩, fun best h => ((suggest_eq_some_iff name names best).mp h).1⟩
    · obtain ⟨best, hbest⟩ := Option.isSome_iff_exists.mp hsome
      obtain ⟨hclosest, -, hnear⟩ := (suggest_eq_some_iff name names best).mp hbest
      obtain ⟨hbest, hne⟩ := (hmem best).mp hclosest.mem
      exact ⟨best, hbest, hne, hnear⟩
    · rintro ⟨other, hother, hne, hnear⟩
      have hother := (hmem other).mpr ⟨hother, hne⟩
      cases hleast : leastBy (nameDistance name) (names.filter (· ≠ "")) with
      | none =>
          rw [(leastBy_eq_none_iff _ _).mp hleast] at hother
          cases hother
      | some best =>
          have hclosest := isLeastBy_of_leastBy hleast
          have hle := hclosest.le hother
          obtain ⟨hbest, hne⟩ := (hmem best).mp hclosest.mem
          have hpos := (nameDistance_eq_zero_iff name best).not.mpr (hcase best hbest hne)
          rw [(suggest_eq_some_iff name names best).mpr ⟨hclosest, by omega, by omega⟩]
          rfl

/-- The error for an undeclared name suggests the closest declared one, unless a declared
name differs from it in case only. -/
theorem suggestion_is_closest_iff (schema : Schema α) (ref : PropertyRef)
    (hmissing : ref.text ∉ schema.names) :
    ∃ suggestion, schema.require ref = .error (.propertyNotFound ref.text suggestion) ∧
      (∀ other, IsLeast {n | Edits n (lowercase ref.text.toList) (lowercase other.toList)}
        (nameDistance ref.text other)) ∧
      (∀ best, suggestion = some best ↔ IsClosest ref.text schema.names best ∧
        0 < nameDistance ref.text best ∧ nameDistance ref.text best ≤ 3) ∧
      (SuggestsClosest ref.text schema.names suggestion ↔ ∀ other ∈ schema.names, other ≠ "" →
        lowercase other.toList ≠ lowercase ref.text.toList) := by
  have hnone : schema.find? ref.text = none := Entries.get?_eq_none_of_not_mem hmissing
  refine ⟨suggest ref.text schema.names, by rw [require, hnone], ?_,
    suggest_eq_some_iff ref.text schema.names, suggestsClosest_suggest_iff ref.text schema.names⟩
  exact fun other => isLeast_distance _ _

/-- Two edits lead to the second name and two to the third. The first is empty. -/
theorem suggestion_is_closest_iff_of_tie :
    let schema : Schema Json := ofProperties
      [⟨"", .text, .resolvable⟩, ⟨"Name", .text, .resolvable⟩, ⟨"mane", .text, .resolvable⟩]
    "nmae" ∉ schema.names ∧
      schema.require ⟨"nmae"⟩ = .error (.propertyNotFound "nmae" (some "Name")) ∧
      SuggestsClosest "nmae" schema.names (some "Name") := by
  intro schema
  have hmissing : "nmae" ∉ schema.names := by decide
  obtain ⟨suggestion, herror, -, hsome, hclosest⟩ :=
    suggestion_is_closest_iff schema ⟨"nmae"⟩ hmissing
  have hbest : IsClosest "nmae" schema.names "Name" := ⟨[], ["mane"], by decide, by decide +kernel,
    by decide +kernel⟩
  obtain rfl := (hsome "Name").mpr ⟨hbest, by decide +kernel, by decide +kernel⟩
  exact ⟨hmissing, herror, hclosest.mpr (by decide +kernel)⟩

/-- The declared name is no edit away from the one with a capital, and is not suggested. -/
theorem case_twin_is_not_suggested :
    let schema : Schema Json := ofProperties [⟨"name", .text, .resolvable⟩]
    "Name" ∉ schema.names ∧
      schema.require ⟨"Name"⟩ = .error (.propertyNotFound "Name" none) ∧
      ¬SuggestsClosest "Name" schema.names none := by
  intro schema
  have hmissing : "Name" ∉ schema.names := by decide
  have hnone : suggest "Name" schema.names = none := by decide +kernel
  refine ⟨hmissing, ?_, ?_⟩
  · have hfind : schema.find? "Name" = none := Entries.get?_eq_none_of_not_mem hmissing
    rw [require, hfind, hnone]
  · rintro ⟨hsome, -⟩
    exact absurd (hsome.mpr ⟨"name", by decide, by decide, by decide +kernel⟩) (by simp)

end RecordQuery.Schema
