import Mathlib.Data.List.Induction
import RecordQuery.Proofs.Files.Making

/-!
Writing files. A file is written with the directories on the way to it, if the path
admits a file. In a tree, where all that exists is in a directory, these are the only
paths at which a file can be written.
-/

namespace RecordQuery.Files

theorem write_of_place {files : Files} {path : Path} {directory : Location} {name : String}
    {node : Option Node} (content : Content)
    (h : files.place path = .ok (.entry directory name node)) :
    files.write path content =
      if node = some .directory ∨ path.endsWithSlash = true then .error .isDirectory
      else .ok (files.put (files.target path) (.file content)) := by
  rw [write, h, ← eq_target_of_place h]
  rcases node with _ | _ | old
  · cases path.endsWithSlash <;> rfl
  · rfl
  · cases path.endsWithSlash <;> rfl

/-- A file is written at the target of a path that ends at a name, if no directory is there. -/
theorem write_eq_ok_iff (files after : Files) (path : Path) (content : Content) :
    files.write path content = .ok after ↔
      path.endsWithSlash = false ∧
        (∃ directory name node, files.place path = .ok (.entry directory name node)) ∧
        files.node? (files.target path) ≠ some .directory ∧
        after = files.put (files.target path) (.file content) := by
  constructor
  · intro h
    obtain ⟨place, hplace, hplaced⟩ := (bind_eq_ok_iff _ _ _).mp h
    cases place with
    | directory location => cases hplaced
    | entry directory name node =>
        rw [write_of_place content hplace] at h
        split at h
        · cases h
        · next hfree =>
            obtain ⟨hdirectory, hslash⟩ := not_or.mp hfree
            rw [node?_target_of_place hplace]
            exact ⟨by simpa using hslash, ⟨_, _, _, hplace⟩, hdirectory, (Except.ok.inj h).symm⟩
  · rintro ⟨hslash, ⟨directory, name, node, hplace⟩, hfree, rfl⟩
    rw [node?_target_of_place hplace] at hfree
    rw [write_of_place content hplace, if_neg (by simp [hfree, hslash])]

/-- A place without a directory is not on a way through directories. -/
theorem descend_put {files : Files} {location : Location} (node : Node)
    (hfree : files.node? location ≠ some .directory) {directory finish : Location}
    {names : List String} (h : files.descend directory names = .ok finish) :
    (files.put location node).descend directory names = .ok finish := by
  refine descend_mono (fun place hdirectory => ?_) h
  have hne : place ≠ location := by
    rintro rfl
    exact hfree hdirectory
  rw [node?_put_of_ne files node hne, hdirectory]

/-- The path leads to what is written at it. -/
theorem find_of_write {before after : Files} {path : Path} {content : Content}
    (h : before.write path content = .ok after) : after.find path = .ok (.file content) := by
  obtain ⟨hslash, ⟨directory, name, node, hplace⟩, hfree, rfl⟩ := (write_eq_ok_iff _ _ _ _).mp h
  have hplace' : (before.put (before.target path) (.file content)).place path =
      .ok (.entry directory name (some (.file content))) := by
    obtain ⟨hproper, hdot, hdots, hsize, _, names, hsegments, hdescend⟩ :=
      (place_eq_entry_iff _ _ _ _ _).mp hplace
    refine (place_eq_entry_iff _ _ _ _ _).mpr
      ⟨hproper, hdot, hdots, hsize, ?_, names, hsegments, descend_put _ hfree hdescend⟩
    rw [← eq_target_of_place hplace]
    exact node?_put_self before _ (by simp)
  rw [find, hplace']
  simp only [hslash]
  rfl

/-- All that is there is in a directory, also the directory where relative paths start. -/
structure IsTree (files : Files) : Prop where
  current : files.node? files.current = some .directory
  parent : ∀ location name node, files.node? (location ++ [name]) = some node →
    files.node? location = some .directory

theorem exists_mem_of_lookup {location : Location} {nodes : List (Location × Node)} {node : Node}
    (h : lookup location nodes = some node) : (location, node) ∈ nodes := by
  induction nodes with
  | nil => cases h
  | cons entry nodes ih =>
      obtain ⟨place, old⟩ := entry
      by_cases hplace : place = location
      · subst hplace
        rw [lookup, if_pos rfl] at h
        rw [Option.some.inj h]
        exact List.mem_cons_self
      · rw [lookup, if_neg hplace] at h
        exact List.mem_cons_of_mem _ (ih h)

namespace IsTree

variable {files : Files}

/-- It is enough to look at the nodes that are listed. -/
theorem of_nodes (hcurrent : files.node? files.current = some .directory)
    (hnodes : ∀ entry ∈ files.nodes, files.node? entry.1.dropLast = some .directory) :
    files.IsTree where
  current := hcurrent
  parent location name node hnode := by
    rw [node?, if_neg (by simp)] at hnode
    simpa using hnodes _ (exists_mem_of_lookup hnode)

theorem node?_root (h : files.IsTree) (absolute : Bool) :
    files.node? (files.root absolute) = some .directory := by
  cases absolute with
  | false => exact h.current
  | true => rfl

theorem node?_dropLast (h : files.IsTree) {location : Location} {node : Node}
    (hnode : files.node? location = some node) : files.node? location.dropLast = some .directory := by
  rcases List.eq_nil_or_concat' location with rfl | ⟨directory, name, rfl⟩
  · rfl
  · rw [List.dropLast_concat]
    exact h.parent _ _ _ hnode

theorem node?_entered (h : files.IsTree) {directory : Location} {name : String}
    (hdirectory : files.node? directory = some .directory)
    (hname : name = "." ∨ name = ".." ∨ name.utf8ByteSize ≤ maxNameSize ∧
      files.node? (directory ++ [name]) = some .directory) :
    files.node? (entered directory name) = some .directory := by
  unfold entered
  split
  · exact hdirectory
  · split
    · exact h.node?_dropLast hdirectory
    · next hdot hdots => exact ((hname.resolve_left hdot).resolve_left hdots).2

/-- A way through directories passes nothing else. -/
theorem node?_of_mem_way (h : files.IsTree) {directory finish : Location} {names : List String}
    (hdirectory : files.node? directory = some .directory)
    (hdescend : files.descend directory names = .ok finish) {location : Location}
    (hlocation : location ∈ way directory names) :
    files.node? location = some .directory := by
  induction names generalizing directory with
  | nil =>
      obtain rfl := List.mem_singleton.mp hlocation
      exact hdirectory
  | cons name names ih =>
      obtain ⟨hname, hrest⟩ := (descend_cons_eq_ok_iff _ _ _ _ _).mp hdescend
      rcases List.mem_cons.mp hlocation with rfl | hlocation
      · exact hdirectory
      · exact ih (h.node?_entered hdirectory hname) hrest hlocation

/-- Something put in a directory, in place of nothing or of a file, belongs to the tree. -/
theorem put (h : files.IsTree) {directory : Location} {name : String} (node : Node)
    (hdirectory : files.node? directory = some .directory)
    (hfree : files.node? (directory ++ [name]) ≠ some .directory) :
    (files.put (directory ++ [name]) node).IsTree where
  current := by
    have hne : files.current ≠ directory ++ [name] := fun heq => hfree (heq ▸ h.current)
    exact (node?_put_of_ne files node hne).trans h.current
  parent location other child hchild := by
    by_cases hself : location ++ [other] = directory ++ [name]
    · obtain ⟨rfl, _⟩ := List.append_singleton_inj.mp hself
      exact (node?_put_of_ne files node (by simp)).trans hdirectory
    · have hlocation := h.parent _ _ _ ((node?_put_of_ne files node hself).symm.trans hchild)
      have hne : location ≠ directory ++ [name] := fun heq => hfree (heq ▸ hlocation)
      exact (node?_put_of_ne files node hne).trans hlocation

/-- A place is in a directory. -/
theorem node?_of_place (h : files.IsTree) {path : Path} {directory : Location} {name : String}
    {node : Option Node} (hplace : files.place path = .ok (.entry directory name node)) :
    files.node? directory = some .directory := by
  obtain ⟨_, _, _, _, _, names, _, hdescend⟩ := (place_eq_entry_iff _ _ _ _ _).mp hplace
  rw [eq_passed_of_descend hdescend]
  exact h.node?_of_mem_way (h.node?_root _) hdescend (passed_mem_way _ _)

theorem ensureDirectory (h : files.IsTree) {after : Files} {path : Path}
    (hmade : files.ensureDirectory path = .ok after) : after.IsTree := by
  rcases ensureDirectory_cases hmade with rfl | ⟨directory, name, hplace, rfl⟩
  · exact h
  · have hnone := node?_target_of_place hplace
    rw [← eq_target_of_place hplace] at hnone
    exact h.put .directory (h.node?_of_place hplace) (by simp [hnone])

theorem ensureParents (h : files.IsTree) (path : Path) : (files.ensureParents path).2.IsTree :=
  ensureDirectories_induction h fun _ _ _ _ _ hbefore hmade => hbefore.ensureDirectory hmade

theorem write (h : files.IsTree) {after : Files} {path : Path} {content : Content}
    (hwritten : files.write path content = .ok after) : after.IsTree := by
  obtain ⟨_, ⟨directory, name, node, hplace⟩, hfree, rfl⟩ := (write_eq_ok_iff _ _ _ _).mp hwritten
  rw [← eq_target_of_place hplace] at hfree ⊢
  exact h.put _ (h.node?_of_place hplace) hfree

/-- What is in a directory is found on a way that does not go up. -/
theorem descend_of_node? (h : files.IsTree) {directory : Location} {names : List String}
    (hdown : ".." ∉ names) (hpassable : files.Passable directory names)
    (hnode : files.node? (passed directory names) = some .directory) :
    files.descend directory names = .ok (passed directory names) := by
  induction names using List.reverseRecOn with
  | nil => rfl
  | append_singleton names name ih =>
      rw [List.mem_append, List.mem_singleton, not_or] at hdown
      obtain ⟨hdown, hdots⟩ := hdown
      obtain ⟨hnames, hname, _⟩ := (passable_append _ _ _ _).mp hpassable
      by_cases hdot : name = "."
      · subst hdot
        rw [passed_append] at hnode
        exact descend_concat (ih hdown hnames hnode) (.inl rfl)
      · rw [passed_concat _ _ hdot (Ne.symm hdots)] at hnode
        have hsize := ((hname.resolve_left hdot).resolve_left (Ne.symm hdots)).1
        exact descend_concat (ih hdown hnames (h.parent _ _ _ hnode)) (.inr (.inr ⟨hsize, hnode⟩))

end IsTree

/-- A file can be made at the path. The path ends at a name; no file is on the way to it,
there is no directory at its end, and it does not pass there before. -/
structure Admits (files : Files) (path : Path) : Prop where
  proper : path.IsProper
  no_slash : path.endsWithSlash = false
  way : ∃ names last, path.segments = names ++ [last] ∧ last ≠ "." ∧ last ≠ ".." ∧
    last.utf8ByteSize ≤ maxNameSize ∧ files.Passable (files.root path.isAbsolute) names ∧
    files.target path ∉ way (files.root path.isAbsolute) names
  free : files.node? (files.target path) ≠ some .directory

section

variable {files : Files} {path : Path}

/-- A path that admits a file gets it, with the directories on the way. -/
theorem exists_write_of_admits (h : files.Admits path) (content : Content) :
    ∃ middle after, files.ensureParents path = (.ok (), middle) ∧
      middle.write path content = .ok after := by
  obtain ⟨names, last, hsegments, hdot, hdots, hsize, hpassable, htarget⟩ := h.way
  obtain ⟨middle, hmade, hdescend⟩ := ensureParents_of_passable h.proper hsegments hdot hpassable
  have hextends : files.Extends middle := by
    simpa only [hmade] using extends_ensureParents files path
  have hnode : middle.node? (files.target path) = files.node? (files.target path) := by
    simpa only [hmade] using node?_ensureParents_target hsegments hdot htarget
  have hplace := (place_eq_entry_iff middle path _ last _).mpr ⟨h.proper, hdot, hdots, hsize, rfl,
    names, hsegments, by rw [hextends.root_eq, hdescend]⟩
  refine ⟨middle, _, hmade, (write_eq_ok_iff _ _ _ _).mpr ⟨h.no_slash, ⟨_, _, _, hplace⟩, ?_, rfl⟩⟩
  rw [hextends.target_eq, hnode]
  exact h.free

/-- In a tree no other path gets a file. -/
theorem IsTree.admits_of_write (htree : files.IsTree) {middle after : Files} {content : Content}
    (hmade : files.ensureParents path = (.ok (), middle))
    (hwritten : middle.write path content = .ok after) : files.Admits path := by
  have hextends : files.Extends middle := by
    simpa only [hmade] using extends_ensureParents files path
  have hmiddle : middle.IsTree := by
    simpa only [hmade] using htree.ensureParents path
  obtain ⟨hslash, ⟨directory, last, node, hplace⟩, hfree, _⟩ := (write_eq_ok_iff _ _ _ _).mp hwritten
  obtain ⟨hproper, hdot, hdots, hsize, _, names, hsegments, hdescend⟩ :=
    (place_eq_entry_iff _ _ _ _ _).mp hplace
  rw [hextends.target_eq] at hfree
  rw [hextends.root_eq] at hdescend
  have hroot := hextends.node?_eq_some (htree.node?_root path.isAbsolute)
  exact {
    proper := hproper
    no_slash := hslash
    way := ⟨names, last, hsegments, hdot, hdots, hsize,
      hextends.passable_before (passable_of_descend hdescend),
      fun hway => hfree (hmiddle.node?_of_mem_way hroot hdescend hway)⟩
    free := fun hdirectory => hfree (hextends.node?_eq_some hdirectory) }

/-- In a tree a path that does not go up and admits a file leads to the file that is there. -/
theorem IsTree.has_of_content? (htree : files.IsTree) (h : files.Admits path)
    (hdown : ".." ∉ path.segments) {content : Content}
    (hcontent : files.content? (files.target path) = some content) : files.has path = true := by
  obtain ⟨names, last, hsegments, hdot, hdots, hsize, hpassable, _⟩ := h.way
  have hnode : files.node? (files.target path) = some (.file content) := by
    unfold content? at hcontent
    split at hcontent
    · next hfile => rw [hfile, Option.some.inj hcontent]
    · cases hcontent
  have htarget : files.target path = passed (files.root path.isAbsolute) names ++ [last] := by
    rw [target, hsegments, passed_concat _ _ hdot hdots]
  rw [hsegments, List.mem_append, not_or] at hdown
  rw [htarget] at hnode
  have hdescend := htree.descend_of_node? hdown.1 hpassable (htree.parent _ _ _ hnode)
  have hplace := (place_eq_entry_iff files path _ last _).mpr
    ⟨h.proper, hdot, hdots, hsize, hnode, names, hsegments, hdescend⟩
  rw [has, find, hplace]
  simp only [h.no_slash]
  rfl

end

end RecordQuery.Files
