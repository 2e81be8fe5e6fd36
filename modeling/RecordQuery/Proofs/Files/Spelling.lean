import RecordQuery.Proofs.Files.Place
import RecordQuery.Proofs.Text.Pieces

/-!
The spelling of paths. A path that is made of names has these names again, unless one of
them is empty or has a slash. Names that are taken from a path are neither, and a path
that is made of some of them is not longer than the path they are taken from.
-/

namespace RecordQuery.Path

/-- The sizes of names with a slash behind each. -/
def spread : List String → Nat
  | [] => 0
  | name :: names => name.utf8ByteSize + 1 + spread names

/-- A path that is made of names has one slash less than it has names. -/
theorem utf8ByteSize_intercalate {names : List String} (hne : names ≠ []) :
    ("/".intercalate names).utf8ByteSize + 1 = spread names := by
  induction names with
  | nil => exact absurd rfl hne
  | cons name names ih =>
      by_cases hnames : names = []
      · simp [hnames, spread]
      · have hslash : "/".utf8ByteSize = 1 := rfl
        rw [String.intercalate_cons_of_ne_nil hnames, String.utf8ByteSize_append,
          String.utf8ByteSize_append, hslash, Nat.add_assoc, ih hnames, spread]

theorem spread_le {names more : List String} (h : names.Sublist more) :
    spread names ≤ spread more := by
  induction h with
  | slnil => exact Nat.le_refl 0
  | cons name _ ih => exact Nat.le_trans ih (Nat.le_add_left _ _)
  | cons_cons name _ ih => exact Nat.add_le_add_left ih _

/-- Names that are left out make a path shorter. -/
theorem utf8ByteSize_intercalate_le {names more : List String} (h : names.Sublist more) :
    ("/".intercalate names).utf8ByteSize ≤ ("/".intercalate more).utf8ByteSize := by
  by_cases hnames : names = []
  · simp [hnames]
  · have hmore : more ≠ [] := fun hnil => hnames (List.sublist_nil.mp (hnil ▸ h))
    have hle := spread_le h
    rw [← utf8ByteSize_intercalate hnames, ← utf8ByteSize_intercalate hmore] at hle
    exact Nat.le_of_succ_le_succ hle

/-- The names between the slashes of a text. -/
def namesOf (s : List Char) : List String :=
  ((Text.pieces '/' s).filter (!·.isEmpty)).map .ofList

theorem namesOf_slash (s : List Char) : namesOf ('/' :: s) = namesOf s := by
  rw [namesOf, Text.pieces_cons_self]
  rfl

/-- The names of a text do not add up to more than the text. -/
theorem utf8ByteSize_namesOf_le (s : List Char) :
    ("/".intercalate (namesOf s)).utf8ByteSize ≤ (String.ofList s).utf8ByteSize := by
  have hpieces : "/".intercalate ((Text.pieces '/' s).map .ofList) = .ofList s := by
    have hpieces : (Text.pieces '/' s).map (String.toList ∘ String.ofList) = Text.pieces '/' s :=
      List.map_id'' (fun _ => String.toList_ofList) _
    rw [← String.toList_inj, String.toList_intercalate, List.map_map, hpieces]
    calc ['/'].intercalate (Text.pieces '/' s)
      _ = Text.join ['/'] (Text.pieces '/' s) := (Text.join_eq_intercalate _ _).symm
      _ = s := Text.join_pieces '/' s
      _ = (String.ofList s).toList := String.toList_ofList.symm
  rw [← hpieces]
  exact utf8ByteSize_intercalate_le (List.filter_sublist.map _)

/-- Names that a path can be made of: none is empty or has a slash. -/
structure AreNames (names : List String) : Prop where
  nonempty : ∀ name ∈ names, name.toList ≠ []
  no_slash : ∀ name ∈ names, '/' ∉ name.toList

theorem AreNames.of_sublist {names more : List String} (h : AreNames more)
    (hnames : names.Sublist more) : AreNames names where
  nonempty name hname := h.nonempty name (hnames.subset hname)
  no_slash name hname := h.no_slash name (hnames.subset hname)

/-- Names of which a path is made that can lead somewhere: there is no null character, and
the path is not too long. -/
structure AreFit (absolute : Bool) (names : List String) : Prop where
  no_null : ∀ name ∈ names, '\x00' ∉ name.toList
  size : (ofParts absolute names).text.utf8ByteSize ≤ Files.maxPathSize

theorem AreFit.of_sublist {absolute : Bool} {names more : List String}
    (h : AreFit absolute more) (hnames : names.Sublist more) : AreFit absolute names where
  no_null name hname := h.no_null name (hnames.subset hname)
  size := by
    have hsize := h.size
    have hle := utf8ByteSize_intercalate_le hnames
    simp only [ofParts, String.utf8ByteSize_append] at hsize ⊢
    omega

theorem toList_ofParts (absolute : Bool) (names : List String) :
    (ofParts absolute names).text.toList =
      (if absolute then ['/'] else []) ++ ['/'].intercalate (names.map String.toList) := by
  cases absolute <;> simp [ofParts, String.toList_intercalate]

/-- A path has the names that it is made of. -/
theorem segments_ofParts (absolute : Bool) {names : List String} (h : AreNames names) :
    (ofParts absolute names).segments = names := by
  have hnames : namesOf (['/'].intercalate (names.map String.toList)) = names := by
    by_cases hne : names = []
    · rw [hne]
      rfl
    · have hmapped : names.map String.toList ≠ [] := by simpa
      have hpieces := Text.pieces_intercalate '/' hmapped (List.forall_mem_map.mpr h.no_slash)
      have hfilter : (names.map String.toList).filter (!·.isEmpty) = names.map String.toList :=
        List.filter_eq_self.mpr (List.forall_mem_map.mpr fun name hname => by
          simpa using h.nonempty name hname)
      rw [namesOf, hpieces, hfilter, List.map_map]
      exact List.map_id'' (fun _ => String.ofList_toList) names
  cases absolute with
  | false => rw [segments, toList_ofParts]; exact hnames
  | true => rw [segments, toList_ofParts]; exact (namesOf_slash _).trans hnames

/-- Names begin with a character that is no slash. -/
theorem exists_intercalate_eq_cons {names : List String} (h : AreNames names)
    (hne : names ≠ []) :
    ∃ c rest, ['/'].intercalate (names.map String.toList) = c :: rest ∧ c ≠ '/' := by
  obtain ⟨name, names, rfl⟩ := List.exists_cons_of_ne_nil hne
  obtain ⟨c, rest, hname⟩ := List.exists_cons_of_ne_nil (h.nonempty name List.mem_cons_self)
  have hslash : c ≠ '/' := by
    rintro rfl
    exact h.no_slash name List.mem_cons_self (hname ▸ List.mem_cons_self)
  cases names with
  | nil => exact ⟨c, rest, by simp [hname], hslash⟩
  | cons next names => exact ⟨c, _, by rw [List.map_cons, List.map_cons, hname]; rfl, hslash⟩

/-- A path of names is absolute if it is made as one. -/
theorem isAbsolute_ofParts (absolute : Bool) {names : List String} (h : AreNames names)
    (hne : names ≠ []) : (ofParts absolute names).isAbsolute = absolute := by
  obtain ⟨c, rest, hcons, hslash⟩ := exists_intercalate_eq_cons h hne
  cases absolute with
  | true => simp [isAbsolute, toList_ofParts]
  | false => simp [isAbsolute, toList_ofParts, hcons, hslash]

/-- A path of names that fit is a proper one. -/
theorem isProper_ofParts {absolute : Bool} {names : List String} (h : AreNames names)
    (hne : names ≠ []) (hfit : AreFit absolute names) :
    (ofParts absolute names).IsProper where
  nonempty := by
    obtain ⟨c, rest, hcons, _⟩ := exists_intercalate_eq_cons h hne
    have htext : (ofParts absolute names).text.toList ≠ [] := by
      rw [toList_ofParts, hcons]
      exact List.append_ne_nil_of_right_ne_nil _ (List.cons_ne_nil c rest)
    simpa using htext
  no_null := by
    rw [toList_ofParts]
    simp only [List.contains_eq_mem, decide_eq_false_iff_not, List.mem_append, not_or]
    refine ⟨by cases absolute <;> decide, fun hmem => ?_⟩
    rcases Text.mem_of_mem_intercalate hmem with hslash | ⟨text, htext, hnull⟩
    · simp at hslash
    · obtain ⟨name, hname, rfl⟩ := List.mem_map.mp htext
      exact hfit.no_null name hname hnull
  size := hfit.size

theorem mem_namesOf {s : List Char} {name : String} (h : name ∈ namesOf s) :
    name.toList ∈ Text.pieces '/' s ∧ name.toList ≠ [] := by
  obtain ⟨piece, hpiece, rfl⟩ := List.mem_map.mp h
  rw [String.toList_ofList]
  obtain ⟨hmem, hempty⟩ := List.mem_filter.mp hpiece
  exact ⟨hmem, by simpa using hempty⟩

/-- The names of a path and its first slash are not longer than the path. -/
theorem utf8ByteSize_segments_le (path : Path) :
    (ofParts path.isAbsolute path.segments).text.utf8ByteSize ≤ path.text.utf8ByteSize := by
  have htext : path.text = String.ofList path.text.toList := String.ofList_toList.symm
  simp only [ofParts, String.utf8ByteSize_append]
  cases habsolute : path.isAbsolute with
  | false =>
      have hempty : (if false = true then "/" else "").utf8ByteSize = 0 := rfl
      have hle := utf8ByteSize_namesOf_le path.text.toList
      rw [← htext] at hle
      rw [hempty, Nat.zero_add]
      exact hle
  | true =>
      obtain ⟨rest, hrest⟩ : ∃ rest, path.text.toList = '/' :: rest :=
        List.head?_eq_some_iff.mp (by simpa [isAbsolute] using habsolute)
      have hle := utf8ByteSize_namesOf_le rest
      have hsegments : path.segments = namesOf rest := by
        show namesOf path.text.toList = namesOf rest
        rw [hrest, namesOf_slash]
      have hcons : String.ofList ('/' :: rest) = "/" ++ String.ofList rest := by
        rw [← String.toList_inj]
        simp
      rw [htext, hrest, hsegments, hcons, String.utf8ByteSize_append]
      exact Nat.add_le_add_left hle _

/-- Paths can be made of the names of any path. -/
theorem areNames_segments (path : Path) : AreNames path.segments where
  nonempty _ hname := (mem_namesOf hname).2
  no_slash _ hname hslash := (Text.mem_of_mem_pieces '/' (mem_namesOf hname).1 hslash).1 rfl

/-- Those of a proper path fit. -/
theorem areFit_segments {path : Path} (h : path.IsProper) :
    AreFit path.isAbsolute path.segments where
  no_null name hname hnull := by
    have hmem := (Text.mem_of_mem_pieces '/' (mem_namesOf hname).1 hnull).2
    exact absurd hmem (by simpa using h.no_null)
  size := Nat.le_trans (utf8ByteSize_segments_le path) h.size

theorem parts_sublist (path : Path) : path.parts.Sublist path.segments := by
  unfold parts
  split
  · exact List.nil_sublist _
  · next first rest hsegments =>
      rw [hsegments]
      have hrest : (rest.filter (· != ".")).Sublist rest := List.filter_sublist
      split
      · exact hrest.cons first
      · exact hrest.cons_cons first

/-- The parts are the names but for some dots. -/
theorem parts_filter (path : Path) :
    path.parts.filter (· != ".") = path.segments.filter (· != ".") := by
  unfold parts
  split
  · next hsegments => rw [hsegments]
  · next first rest hsegments =>
      rw [hsegments]
      split
      · next hfirst =>
          have hdot : first = "." := by simpa using (Bool.and_eq_true_iff.mp hfirst).1
          rw [hdot]
          simp
      · simp [List.filter_cons]

/-- The parts before the last are the names before it but for some dots. -/
theorem exists_parts_eq {path : Path} {names : List String} {last : String}
    (hsegments : path.segments = names ++ [last]) (hlast : last ≠ ".") :
    ∃ above, path.parts = above ++ [last] ∧
      above.filter (· != ".") = names.filter (· != ".") := by
  rw [parts, hsegments]
  cases names with
  | nil => exact ⟨[], by simp [hlast], rfl⟩
  | cons first rest =>
      by_cases hfirst : (first == "." && path.isAbsolute) = true
      · have hdot : first = "." := by simpa using (Bool.and_eq_true_iff.mp hfirst).1
        refine ⟨rest.filter (· != "."), by simp [hfirst, hlast], ?_⟩
        rw [hdot]
        simp
      · refine ⟨first :: rest.filter (· != "."), by simp [hfirst, hlast], ?_⟩
        simp [List.filter_cons]

end RecordQuery.Path
