import RecordQuery.Projection
import RecordQuery.Proofs.Text.Pieces

/-!
Projections one after another. Whether a field is kept depends on its path and on whether
there is an object or an array in it, and a projection changes neither of these for a field
that it keeps. So of two projections in a row the second keeps just the fields that both
keep.

All else follows from this: a projection does nothing to what it has left, lists with the
same entries project alike, and lists that only exclude may be joined. It does not matter
what the keys of a record are, and the record may as well be an array.
-/

namespace RecordQuery.Projection

/-! ### What is kept twice -/

theorem isContainer_project (projection : Projection) (path : List Char) (json : Json) :
    isContainer (projection.project path json) = isContainer json := by
  cases json <;> simp [project, isContainer]

/-- A field that has been projected is kept if it would have been before. -/
theorem keeps_project (projection other : Projection) (path inner : List Char) (json : Json) :
    projection.keeps path (other.project inner json) = projection.keeps path json := by
  rw [keeps, isContainer_project, keeps]

/-- The projection keeps the fields that both of two others keep. -/
def Joins (both first second : Projection) : Prop :=
  ∀ path json, both.keeps path json = (first.keeps path json && second.keeps path json)

section Joins

variable {both first second : Projection}

mutual

/-- What two projections leave one after the other is what both keep. -/
theorem project_project (h : both.Joins first second) (path : List Char) (json : Json) :
    second.project path (first.project path json) = both.project path json := by
  cases json with
  | object fields => simp only [project, projectFields_projectFields h path fields]
  | array items => simp only [project, projectItems_projectItems h path items]
  | _ => simp only [project]

theorem projectFields_projectFields (h : both.Joins first second) (path : List Char)
    (fields : List (String × Json)) :
    second.projectFields path (first.projectFields path fields) =
      both.projectFields path fields := by
  cases fields with
  | nil => rfl
  | cons field rest =>
      obtain ⟨key, value⟩ := field
      have hvalue := project_project h (childPath path key) value
      have hrest := projectFields_projectFields h path rest
      rw [projectFields, projectFields, h (childPath path key) value]
      cases hfirst : first.keeps (childPath path key) value with
      | false => simpa using hrest
      | true => rw [if_pos rfl, projectFields, keeps_project, hvalue, hrest, Bool.true_and]

theorem projectItems_projectItems (h : both.Joins first second) (path : List Char)
    (items : List Json) :
    second.projectItems path (first.projectItems path items) = both.projectItems path items := by
  cases items with
  | nil => rfl
  | cons item rest =>
      simp only [projectItems, project_project h path item, projectItems_projectItems h path rest]

end

end Joins

/-- Projections that keep the same fields do the same. -/
theorem project_eq_of_keeps_eq {first second : Projection}
    (h : ∀ path json, first.keeps path json = second.keeps path json) (path : List Char)
    (json : Json) : first.project path json = second.project path json :=
  calc first.project path json
    _ = second.project path (first.project path json) :=
        (project_project (fun path json => by rw [← h, Bool.and_self]) path json).symm
    _ = second.project path json :=
        project_project (fun path json => by rw [h, Bool.and_self]) path json

/-! ### Lists of entries -/

theorem mem_includes_ofText (fields : String) (ref : PropertyRef) :
    ref ∈ (ofText fields).includes ↔ ref ∈ entries fields ∧ ref.isExclusion = false := by
  simp [ofText]

theorem mem_excludes_ofText (fields : String) (ref : PropertyRef) :
    ref ∈ (ofText fields).excludes ↔ ∃ entry ∈ entries fields, entry.excluded? = some ref :=
  List.mem_filterMap

/-- Whether a field is kept depends on which paths are listed, and not on their order and
number. -/
theorem keeps_eq_of_same_members {first second : Projection}
    (hincludes : ∀ ref, ref ∈ first.includes ↔ ref ∈ second.includes)
    (hexcludes : ∀ ref, ref ∈ first.excludes ↔ ref ∈ second.excludes) (path : List Char)
    (json : Json) : first.keeps path json = second.keeps path json := by
  have hany {refs others : List PropertyRef} (hsame : ∀ ref, ref ∈ refs ↔ ref ∈ others)
      (p : PropertyRef → Bool) : refs.any p = others.any p := by
    rw [Bool.eq_iff_iff, List.any_eq_true, List.any_eq_true]
    exact exists_congr fun ref => and_congr_left' (hsame ref)
  have hempty : first.includes.isEmpty = second.includes.isEmpty := by
    rw [Bool.eq_iff_iff, List.isEmpty_iff, List.isEmpty_iff, List.eq_nil_iff_forall_not_mem,
      List.eq_nil_iff_forall_not_mem]
    exact forall_congr' fun ref => not_congr (hincludes ref)
  simp only [keeps, drops, covers, leads, hempty, hany hincludes, hany hexcludes]

/-- The entries of two lists with a comma between them are those of both. -/
theorem entries_append (first second : String) :
    entries (first ++ "," ++ second) = entries first ++ entries second := by
  have hlist : (first ++ "," ++ second).toList = first.toList ++ ',' :: second.toList := by simp
  simp only [entries, hlist, Text.pieces_append_cons, List.map_append, List.filter_append]

/-- Every entry of the list is a path behind a minus sign. -/
def OnlyExcludes (fields : String) : Prop :=
  ∀ entry ∈ entries fields, entry.isExclusion = true

theorem OnlyExcludes.append {first second : String} (hfirst : OnlyExcludes first)
    (hsecond : OnlyExcludes second) : OnlyExcludes (first ++ "," ++ second) := by
  intro entry hentry
  rw [entries_append, List.mem_append] at hentry
  exact hentry.elim (hfirst entry) (hsecond entry)

/-- Where nothing is included by name, all is kept that is not excluded. -/
theorem OnlyExcludes.keeps_eq {fields : String} (h : OnlyExcludes fields) (path : List Char)
    (json : Json) : (ofText fields).keeps path json = !(ofText fields).drops path := by
  have hincludes : (ofText fields).includes = [] := by
    rw [List.eq_nil_iff_forall_not_mem]
    intro ref href
    obtain ⟨hentry, hinclusion⟩ := (mem_includes_ofText fields ref).mp href
    exact Bool.false_ne_true (hinclusion.symm.trans (h ref hentry))
  simp [keeps, covers, hincludes]

theorem drops_append (first second : String) (path : List Char) :
    (ofText (first ++ "," ++ second)).drops path =
      ((ofText first).drops path || (ofText second).drops path) := by
  simp only [drops, ofText, entries_append, List.filterMap_append, List.any_append]

/-- Projecting again with the same list changes nothing, the order of entries and how often
they are in the list does not matter, and two lists that only exclude do one after the other
what both do together. This is for all records, whatever they are and whatever keys they
have. -/
theorem projections_compose (fields : String) (record : Json) :
    (ofText fields).apply ((ofText fields).apply record) = (ofText fields).apply record ∧
      (∀ other, (∀ entry, entry ∈ entries other ↔ entry ∈ entries fields) →
        (ofText other).apply record = (ofText fields).apply record) ∧
      ∀ other, OnlyExcludes fields → OnlyExcludes other →
        (ofText other).apply ((ofText fields).apply record) =
          (ofText (fields ++ "," ++ other)).apply record := by
  refine ⟨?_, fun other hsame => ?_, fun other hfields hother => ?_⟩
  · exact project_project (fun path json => (Bool.and_self _).symm) [] record
  · refine project_eq_of_keeps_eq (keeps_eq_of_same_members ?_ ?_) [] record
    · intro ref
      rw [mem_includes_ofText, mem_includes_ofText, hsame]
    · intro ref
      simp only [mem_excludes_ofText, hsame]
  · refine project_project (fun path json => ?_) [] record
    rw [hfields.keeps_eq, hother.keeps_eq, (hfields.append hother).keeps_eq, drops_append,
      Bool.not_or]

/-- An array of records with an empty key and a dotted one, projected by a list in two orders
and by exclusions in two steps. -/
theorem projections_compose_of_array :
    let record : Json := .array [.object [("", .object [("a", .integer 1), ("b", .null)]),
      ("a.b", .array [.integer 2]), ("c", .object [("b", .integer 3), ("d", .boolean true)])]]
    (∀ entry, entry ∈ entries "-c.d,, a,c ,a" ↔ entry ∈ entries "a,c,-c.d") ∧
      (ofText "-c.d,, a,c ,a").apply record = (ofText "a,c,-c.d").apply record ∧
      OnlyExcludes "-a.b" ∧ OnlyExcludes "-c.d, -b" ∧
      (ofText "-c.d, -b").apply ((ofText "-a.b").apply record) =
        (ofText "-a.b,-c.d, -b").apply record := by
  intro record
  have hlist : entries "a,c,-c.d" = [⟨"a"⟩, ⟨"c"⟩, ⟨"-c.d"⟩] := by decide
  have hother : entries "-c.d,, a,c ,a" = [⟨"-c.d"⟩, ⟨"a"⟩, ⟨"c"⟩, ⟨"a"⟩] := by decide
  have hsame : ∀ entry, entry ∈ entries "-c.d,, a,c ,a" ↔ entry ∈ entries "a,c,-c.d" := by
    intro entry
    rw [hlist, hother]
    simp only [List.mem_cons, List.not_mem_nil, or_false]
    constructor
    · rintro (rfl | rfl | rfl | rfl) <;> simp
    · rintro (rfl | rfl | rfl) <;> simp
  have hfirst : OnlyExcludes "-a.b" := by unfold OnlyExcludes; decide
  have hsecond : OnlyExcludes "-c.d, -b" := by unfold OnlyExcludes; decide
  exact ⟨hsame, (projections_compose _ record).2.1 _ hsame, hfirst, hsecond,
    (projections_compose _ record).2.2 _ hfirst hsecond⟩

end RecordQuery.Projection
