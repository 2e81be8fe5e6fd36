import RecordQuery.Proofs.Files.Extension
import RecordQuery.Proofs.Files.Spelling

/-!
Making directories. Those on the way to a path can be made if no file is in their place,
and then the way leads to a directory. What is made is on the way, whether all could be
made or not.
-/

namespace RecordQuery.Files

/-- Names that lead to directories, or to places where directories can be made: none is
too long, and none stands for a file. -/
def Passable (files : Files) : Location → List String → Prop
  | _, [] => True
  | directory, name :: names =>
    (name = "." ∨ name = ".." ∨ name.utf8ByteSize ≤ maxNameSize ∧
      ∀ content, files.node? (directory ++ [name]) ≠ some (.file content)) ∧
      Passable files (entered directory name) names

theorem passable_append (files : Files) (directory : Location) (names more : List String) :
    files.Passable directory (names ++ more) ↔
      files.Passable directory names ∧ files.Passable (passed directory names) more := by
  induction names generalizing directory with
  | nil => exact (true_and _).symm.to_iff
  | cons name names ih =>
      rw [List.cons_append, Passable, Passable, ih, and_assoc]
      rfl

theorem enter_of_passable {files : Files} {directory : Location} {name : String}
    (h : files.Passable directory [name]) :
    files.enter directory name = .ok (entered directory name) ∨
      files.enter directory name = .error .notFound := by
  rcases h.1 with rfl | rfl | ⟨hsize, hfile⟩
  · exact .inl rfl
  · exact .inl rfl
  · by_cases hdots : name = "." ∨ name = ".."
    · exact .inl ((enter_eq_ok_iff _ _ _ _).mpr ⟨rfl, hdots.imp_right .inl⟩)
    · obtain ⟨hdot, hdots⟩ := not_or.mp hdots
      have hentry := (entry?_eq_ok_iff files directory name _).mpr ⟨hsize, rfl⟩
      rw [enter, entered, if_neg hdot, if_neg hdot, if_neg hdots, if_neg hdots, hentry]
      rcases hnode : files.node? (directory ++ [name]) with _ | _ | content
      · exact .inr rfl
      · exact .inl rfl
      · exact absurd hnode (hfile content)

/-- Names that can be passed lead to a directory unless one is missing. -/
theorem descend_of_passable {files : Files} {directory : Location} {names : List String}
    (h : files.Passable directory names) :
    files.descend directory names = .ok (passed directory names) ∨
      files.descend directory names = .error .notFound := by
  induction names generalizing directory with
  | nil => exact .inl rfl
  | cons name names ih =>
      rcases enter_of_passable ⟨h.1, trivial⟩ with henter | henter
      · rw [descend, henter]
        exact ih h.2
      · exact .inr (by rw [descend, henter]; rfl)

/-- A way that leads to a directory goes on to the directories in it. -/
theorem descend_concat {files : Files} {directory : Location} {names : List String}
    {name : String} (h : files.descend directory names = .ok (passed directory names))
    (hname : name = "." ∨ name = ".." ∨ name.utf8ByteSize ≤ maxNameSize ∧
      files.node? (passed directory names ++ [name]) = some .directory) :
    files.descend directory (names ++ [name]) = .ok (passed directory (names ++ [name])) := by
  rw [descend_append, h, passed_append]
  exact (descend_cons_eq_ok_iff _ _ _ _ _).mpr ⟨hname, rfl⟩

theorem passable_filter (files : Files) (directory : Location) (names : List String) :
    files.Passable directory (names.filter (· != ".")) ↔ files.Passable directory names := by
  induction names generalizing directory with
  | nil => rfl
  | cons name names ih =>
      by_cases hdot : name = "."
      · subst hdot
        exact (ih directory).trans ⟨fun h => ⟨.inl rfl, h⟩, fun h => h.2⟩
      · rw [List.filter_cons_of_pos (by simpa using hdot), Passable, Passable, ih]

/-- Names that lead to a directory can be passed. -/
theorem passable_of_descend {files : Files} {directory location : Location}
    {names : List String} (h : files.descend directory names = .ok location) :
    files.Passable directory names := by
  induction names generalizing directory with
  | nil => trivial
  | cons name names ih =>
      obtain ⟨hname, hrest⟩ := (descend_cons_eq_ok_iff _ _ _ _ _).mp h
      refine ⟨hname.imp_right (Or.imp_right fun ⟨hsize, hdirectory⟩ => ⟨hsize, ?_⟩), ih hrest⟩
      intro content hfile
      cases hdirectory.symm.trans hfile

section

variable {before after : Files}

/-- Where no file is new, what could be passed still can. -/
theorem passable_mono (hfiles : ∀ location content,
    after.node? location = some (.file content) → before.node? location = some (.file content))
    {directory : Location} {names : List String} (h : before.Passable directory names) :
    after.Passable directory names := by
  induction names generalizing directory with
  | nil => trivial
  | cons name names ih =>
      obtain ⟨hname, hrest⟩ := h
      refine ⟨hname.imp_right (Or.imp_right fun ⟨hsize, hfile⟩ => ⟨hsize, ?_⟩), ih hrest⟩
      exact fun content hafter => hfile content (hfiles _ _ hafter)

/-- New directories are no obstacles. -/
theorem Extends.passable (h : before.Extends after) {directory : Location} {names : List String}
    (hnames : before.Passable directory names) : after.Passable directory names := by
  refine passable_mono (fun location content hafter => ?_) hnames
  rcases h.node location with heq | ⟨_, hdirectory⟩
  · rwa [← heq]
  · cases hdirectory.symm.trans hafter

/-- What cannot be passed for a file cannot be passed with more directories either. -/
theorem Extends.passable_before (h : before.Extends after) {directory : Location}
    {names : List String} (hnames : after.Passable directory names) :
    before.Passable directory names :=
  passable_mono (fun _ _ => h.node?_eq_some) hnames

/-- A way that leads to a directory still does so with more directories. -/
theorem Extends.descend (h : before.Extends after) {directory location : Location}
    {names : List String} (hnames : before.descend directory names = .ok location) :
    after.descend directory names = .ok location :=
  descend_mono (fun _ => h.node?_eq_some) hnames

theorem Extends.root_eq (h : before.Extends after) (absolute : Bool) :
    after.root absolute = before.root absolute := by
  rw [root, root, h.current]

theorem Extends.target_eq (h : before.Extends after) (path : Path) :
    after.target path = before.target path := by
  rw [target, target, h.root_eq]

end

section

variable {files : Files} {path : Path} {directory location : Location} {name : String}

/-- A directory that is there need not be made. -/
theorem ensureDirectory_of_directory (h : files.place path = .ok (.directory location)) :
    files.ensureDirectory path = .ok files := by
  simp only [ensureDirectory, makeDirectory, hasDirectory, find, h]
  rfl

theorem ensureDirectory_of_entry
    (h : files.place path = .ok (.entry directory name (some .directory))) :
    files.ensureDirectory path = .ok files := by
  simp only [ensureDirectory, makeDirectory, hasDirectory, find, h]
  rfl

theorem ensureDirectory_of_none (h : files.place path = .ok (.entry directory name none)) :
    files.ensureDirectory path = .ok (files.put (directory ++ [name]) .directory) := by
  simp only [ensureDirectory, makeDirectory, h]
  rfl

theorem ensureDirectory_of_notFound (h : files.place path = .error .notFound) :
    files.ensureDirectory path = .error .notFound := by
  simp only [ensureDirectory, makeDirectory, h]
  rfl

end

section

variable {files : Files} {path : Path} {start : Location} {names : List String} {name : String}

/-- A directory is made at a proper path whose way is there. -/
theorem ensureDirectory_of_descend (hproper : path.IsProper)
    (hsegments : path.segments = names ++ [name]) (hstart : files.root path.isAbsolute = start)
    (hpassable : files.Passable start (names ++ [name]))
    (hdescend : files.descend start names = .ok (passed start names)) :
    ∃ after, files.ensureDirectory path = .ok after ∧
      after.descend start (names ++ [name]) = .ok (passed start (names ++ [name])) := by
  subst hstart
  have hname := ((passable_append _ _ _ _).mp hpassable).2.1
  by_cases hdots : name = "." ∨ name = ".."
  · have hall := descend_concat hdescend (hdots.imp_right .inl)
    have hplace : files.place path =
        .ok (.directory (passed (files.root path.isAbsolute) (names ++ [name]))) := by
      rw [place_of_isProper files hproper, hsegments, List.getLast?_concat]
      simp only [if_pos hdots, hall]
      rfl
    exact ⟨files, ensureDirectory_of_directory hplace, hall⟩
  · obtain ⟨hdot, hdots⟩ := not_or.mp hdots
    obtain ⟨hsize, hfile⟩ := (hname.resolve_left hdot).resolve_left hdots
    have hplace node (hnode : files.node? (passed (files.root path.isAbsolute) names ++ [name]) =
        node) := (place_eq_entry_iff files path _ _ _).mpr
      ⟨hproper, hdot, hdots, hsize, hnode, names, hsegments, hdescend⟩
    match hnode : files.node? (passed (files.root path.isAbsolute) names ++ [name]) with
    | none =>
        have hmade := ensureDirectory_of_none (hplace _ hnode)
        have hextends := extends_of_ensureDirectory hmade
        refine ⟨_, hmade, descend_concat (hextends.descend hdescend) (.inr (.inr ⟨hsize, ?_⟩))⟩
        exact node?_put_self files .directory (by simp)
    | some .directory =>
        exact ⟨files, ensureDirectory_of_entry (hplace _ hnode),
          descend_concat hdescend (.inr (.inr ⟨hsize, hnode⟩))⟩
    | some (.file content) => exact absurd hnode (hfile content)

/-- No directory is made where the way to it is not there. -/
theorem ensureDirectory_of_descend_notFound (hproper : path.IsProper)
    (hsegments : path.segments = names ++ [name]) (hstart : files.root path.isAbsolute = start)
    (hdescend : files.descend start names = .error .notFound) :
    files.ensureDirectory path = .error .notFound := by
  refine ensureDirectory_of_notFound ?_
  rw [place_of_isProper files hproper, hstart, hsegments, List.getLast?_concat,
    List.dropLast_concat, descend_append, hdescend]
  simp only
  split <;> rfl

end

/-- The directories of names that can be passed are made, and then the names lead there. -/
theorem ensureDirectories_of_passable (files : Files) (absolute : Bool) (names : List String)
    (hnames : Path.AreNames names.reverse) (hfit : Path.AreFit absolute names.reverse)
    (hpassable : files.Passable (files.root absolute) names.reverse) :
    ∃ after, ensureDirectories absolute names files = (.ok (), after) ∧
      after.descend (files.root absolute) names.reverse =
        .ok (passed (files.root absolute) names.reverse) := by
  induction names with
  | nil => exact ⟨files, rfl, rfl⟩
  | cons name above ih =>
      rw [List.reverse_cons] at hnames hfit hpassable ⊢
      have habove := ((passable_append _ _ _ _).mp hpassable).1
      have hproper := Path.isProper_ofParts hnames (by simp) hfit
      have hsegments := Path.segments_ofParts absolute hnames
      have habsolute := Path.isAbsolute_ofParts absolute hnames (by simp)
      have hstart : files.root (Path.ofParts absolute (above.reverse ++ [name])).isAbsolute =
          files.root absolute := by rw [habsolute]
      -- The directory can be made at once, or else as soon as those above it are there.
      rcases descend_of_passable habove with hdescend | hdescend
      · obtain ⟨after, hmade, hway⟩ :=
          ensureDirectory_of_descend hproper hsegments hstart hpassable hdescend
        exact ⟨after, by simp only [ensureDirectories, List.reverse_cons, hmade], hway⟩
      · have hmissing := ensureDirectory_of_descend_notFound hproper hsegments hstart hdescend
        obtain ⟨middle, hmiddle, hdescend'⟩ :=
          ih (hnames.of_sublist (List.sublist_append_left _ _))
            (hfit.of_sublist (List.sublist_append_left _ _)) habove
        have hextends : files.Extends middle := by
          simpa only [hmiddle] using extends_ensureDirectories absolute above files
        obtain ⟨after, hmade, hway⟩ :=
          ensureDirectory_of_descend hproper hsegments ((hextends.root_eq _).trans hstart)
            (hextends.passable hpassable) hdescend'
        exact ⟨after, by simp only [ensureDirectories, List.reverse_cons, hmissing, hmiddle, hmade],
          hway⟩

/-- A new directory is at the target of its path. -/
theorem node?_ensureDirectory_of_ne {before after : Files} {path : Path} {location : Location}
    (h : before.ensureDirectory path = .ok after) (hne : location ≠ before.target path) :
    after.node? location = before.node? location := by
  rcases ensureDirectory_cases h with rfl | ⟨directory, name, hplace, rfl⟩
  · rfl
  · rw [← eq_target_of_place hplace] at hne
    exact node?_put_of_ne before .directory hne

/-- New directories are on the way of the names that they are made for. -/
theorem node?_ensureDirectories_of_not_mem (files : Files) (absolute : Bool) (names : List String)
    (hnames : Path.AreNames names.reverse) {location : Location}
    (h : location ∉ way (files.root absolute) names.reverse) :
    (ensureDirectories absolute names files).2.node? location = files.node? location := by
  suffices hall : files.Extends (ensureDirectories absolute names files).2 ∧
      (ensureDirectories absolute names files).2.node? location = files.node? location from hall.2
  refine ensureDirectories_induction
    (motive := fun after => files.Extends after ∧ after.node? location = files.node? location)
    ⟨.refl files, rfl⟩ ?step
  case step =>
    rintro before after made ⟨more, rfl⟩ hne ⟨hextends, hbefore⟩ hmade
    refine ⟨hextends.trans (extends_of_ensureDirectory hmade), ?_⟩
    rw [List.reverse_append] at hnames h
    have hmadeNames := hnames.of_sublist (List.sublist_append_left made.reverse more.reverse)
    have htarget : before.target (.ofParts absolute made.reverse) =
        passed (files.root absolute) made.reverse := by
      rw [target, Path.segments_ofParts absolute hmadeNames,
        Path.isAbsolute_ofParts absolute hmadeNames (by simpa), hextends.root_eq]
    rw [← hbefore]
    refine node?_ensureDirectory_of_ne hmade ?_
    rw [htarget]
    rintro rfl
    exact h (mem_way_append _ (passed_mem_way _ _))

/-- The directories made for a path are on the way to its target. -/
theorem node?_ensureParents_of_not_mem (files : Files) (path : Path) {location : Location}
    (h : location ∉ way (files.root path.isAbsolute) path.parts.dropLast) :
    (files.ensureParents path).2.node? location = files.node? location := by
  have hsublist := (List.dropLast_sublist path.parts).trans path.parts_sublist
  have hnames := path.areNames_segments.of_sublist hsublist
  rw [ensureParents]
  refine node?_ensureDirectories_of_not_mem files _ _ ?_ ?_ <;> rwa [List.reverse_reverse]

/-- The way to the directory of a path is a part of the way to its target. -/
theorem mem_way_segments {directory location : Location} {path : Path}
    (h : location ∈ way directory path.parts.dropLast) :
    location ∈ way directory path.segments := by
  obtain ⟨more, hmore⟩ := List.dropLast_prefix path.parts
  have hparts := mem_way_append more h
  rwa [hmore, ← mem_way_filter, path.parts_filter, mem_way_filter] at hparts

/-- What is new after directories were made for a path is a directory on the way to it. -/
theorem node?_ensureParents (files : Files) (path : Path) (location : Location) :
    (files.ensureParents path).2.node? location = files.node? location ∨
      files.node? location = none ∧
        (files.ensureParents path).2.node? location = some .directory ∧
        location ∈ way (files.root path.isAbsolute) path.segments := by
  by_cases hway : location ∈ way (files.root path.isAbsolute) path.parts.dropLast
  · exact ((extends_ensureParents files path).node location).imp_right fun ⟨hnone, hdirectory⟩ =>
      ⟨hnone, hdirectory, mem_way_segments hway⟩
  · exact .inl (node?_ensureParents_of_not_mem files path hway)

section

variable {files : Files} {path : Path} {names : List String} {last : String}

/-- The directories on the way to a path are made if the way can be passed. -/
theorem ensureParents_of_passable (hproper : path.IsProper)
    (hsegments : path.segments = names ++ [last]) (hlast : last ≠ ".")
    (hpassable : files.Passable (files.root path.isAbsolute) names) :
    ∃ middle, files.ensureParents path = (.ok (), middle) ∧
      middle.descend (files.root path.isAbsolute) names =
        .ok (passed (files.root path.isAbsolute) names) := by
  obtain ⟨above, hparts, hfilter⟩ := Path.exists_parts_eq hsegments hlast
  have hsublist : above.Sublist path.segments :=
    (hparts ▸ List.sublist_append_left above [last]).trans path.parts_sublist
  have hpassable' : files.Passable (files.root path.isAbsolute) above := by
    rwa [← passable_filter, hfilter, passable_filter]
  obtain ⟨middle, hmade, hdescend⟩ := ensureDirectories_of_passable files path.isAbsolute
    above.reverse (by rw [List.reverse_reverse]; exact path.areNames_segments.of_sublist hsublist)
    (by rw [List.reverse_reverse]; exact (Path.areFit_segments hproper).of_sublist hsublist)
    (by rwa [List.reverse_reverse])
  refine ⟨middle, by rw [ensureParents, hparts, List.dropLast_concat, hmade], ?_⟩
  rw [List.reverse_reverse, ← descend_filter, ← passed_filter, hfilter, descend_filter,
    passed_filter] at hdescend
  exact hdescend

/-- No directory is made at the target, unless it is on the way itself. -/
theorem node?_ensureParents_target (hsegments : path.segments = names ++ [last])
    (hlast : last ≠ ".")
    (htarget : files.target path ∉ way (files.root path.isAbsolute) names) :
    (files.ensureParents path).2.node? (files.target path) =
      files.node? (files.target path) := by
  obtain ⟨above, hparts, hfilter⟩ := Path.exists_parts_eq hsegments hlast
  refine node?_ensureParents_of_not_mem files path ?_
  rwa [hparts, List.dropLast_concat, ← mem_way_filter, hfilter, mem_way_filter]

end

end RecordQuery.Files
