import Mathlib.Data.List.Basic
import RecordQuery.Files.Basic
import RecordQuery.Proofs.Outcome

/-!
Where paths lead. The names of a path lead from one directory to the next, and if they
lead anywhere then to the same location in all trees: a dot stays, two dots go up, and
every other name goes down.
-/

namespace RecordQuery

/-- The text of the path is neither empty nor too long and has no null character. -/
structure Path.IsProper (path : Path) : Prop where
  nonempty : path.text.isEmpty = false
  no_null : path.text.toList.contains '\x00' = false
  size : path.text.utf8ByteSize ≤ Files.maxPathSize

namespace Files

/-- The directory in which absolute or relative paths begin. -/
def root (files : Files) (absolute : Bool) : Location :=
  if absolute then [] else files.current

/-- The location that a name in a directory stands for, whatever is there. -/
def entered (directory : Location) (name : String) : Location :=
  if name = "." then directory
  else if name = ".." then directory.dropLast
  else directory ++ [name]

/-- The location that some names stand for, one after the other. -/
def passed (directory : Location) (names : List String) : Location :=
  names.foldl entered directory

/-- The locations that names stand for one after the other, from the directory on. -/
def way (directory : Location) : List String → List Location
  | [] => [directory]
  | name :: names => directory :: way (entered directory name) names

/-- The location that a path stands for, whatever is there. -/
def target (files : Files) (path : Path) : Location :=
  passed (files.root path.isAbsolute) path.segments

theorem passed_append (directory : Location) (names more : List String) :
    passed directory (names ++ more) = passed (passed directory names) more :=
  List.foldl_append

theorem passed_concat (directory : Location) (names : List String) {name : String}
    (hdot : name ≠ ".") (hdots : name ≠ "..") :
    passed directory (names ++ [name]) = passed directory names ++ [name] := by
  rw [passed_append]
  simp [passed, entered, hdot, hdots]

theorem entry?_eq_ok_iff (files : Files) (directory : Location) (name : String)
    (node : Option Node) :
    files.entry? directory name = .ok node ↔
      name.utf8ByteSize ≤ maxNameSize ∧ files.node? (directory ++ [name]) = node := by
  unfold entry?
  split <;> simp <;> omega

/-- A name leads to a directory: the directory itself, the one above it, or one in it. -/
theorem enter_eq_ok_iff (files : Files) (directory location : Location) (name : String) :
    files.enter directory name = .ok location ↔
      location = entered directory name ∧ (name = "." ∨ name = ".." ∨
        name.utf8ByteSize ≤ maxNameSize ∧ files.node? (directory ++ [name]) = some .directory) := by
  by_cases hdot : name = "."
  · simp [enter, entered, hdot, eq_comm]
  · by_cases hdots : name = ".."
    · simp [enter, entered, hdots, eq_comm]
    · rw [enter, entered, if_neg hdot, if_neg hdot, if_neg hdots, if_neg hdots, bind_eq_ok_iff]
      simp only [hdot, hdots, false_or, entry?_eq_ok_iff]
      constructor
      · rintro ⟨_ | _ | _, ⟨hsize, hnode⟩, h⟩
        · cases h
        · cases h
          exact ⟨rfl, hsize, hnode⟩
        · cases h
      · rintro ⟨rfl, hsize, hnode⟩
        exact ⟨_, ⟨hsize, hnode⟩, rfl⟩

theorem descend_cons_eq_ok_iff (files : Files) (directory location : Location) (name : String)
    (names : List String) :
    files.descend directory (name :: names) = .ok location ↔
      (name = "." ∨ name = ".." ∨ name.utf8ByteSize ≤ maxNameSize ∧
        files.node? (directory ++ [name]) = some .directory) ∧
      files.descend (entered directory name) names = .ok location := by
  rw [descend, bind_eq_ok_iff]
  simp only [enter_eq_ok_iff]
  constructor
  · rintro ⟨_, ⟨rfl, hname⟩, hrest⟩
    exact ⟨hname, hrest⟩
  · rintro ⟨hname, hrest⟩
    exact ⟨_, ⟨rfl, hname⟩, hrest⟩

/-- Names that lead to a directory lead to the location that they stand for. -/
theorem eq_passed_of_descend {files : Files} {directory location : Location}
    {names : List String} (h : files.descend directory names = .ok location) :
    location = passed directory names := by
  induction names generalizing directory with
  | nil => exact (Except.ok.inj h).symm
  | cons name names ih => exact ih ((descend_cons_eq_ok_iff _ _ _ _ _).mp h).2

/-- Where all directories are kept, names lead to where they led. -/
theorem descend_mono {before after : Files} (hkept : ∀ location,
    before.node? location = some .directory → after.node? location = some .directory)
    {directory location : Location} {names : List String}
    (h : before.descend directory names = .ok location) :
    after.descend directory names = .ok location := by
  induction names generalizing directory with
  | nil => exact h
  | cons name names ih =>
      obtain ⟨hname, hrest⟩ := (descend_cons_eq_ok_iff _ _ _ _ _).mp h
      refine (descend_cons_eq_ok_iff _ _ _ _ _).mpr ⟨?_, ih hrest⟩
      exact hname.imp_right (Or.imp_right (And.imp_right (hkept _)))

theorem descend_append (files : Files) (directory : Location) (names more : List String) :
    files.descend directory (names ++ more) =
      (files.descend directory names >>= fun location => files.descend location more) := by
  induction names generalizing directory with
  | nil => rfl
  | cons name names ih =>
      show (files.enter directory name >>= fun next => files.descend next (names ++ more)) =
        ((files.enter directory name >>= fun next => files.descend next names) >>=
          fun location => files.descend location more)
      cases files.enter directory name with
      | error e => rfl
      | ok next => exact ih next

/-- Only a proper path ends anywhere. -/
theorem isProper_of_place {files : Files} {path : Path} {place : Place}
    (h : files.place path = .ok place) : path.IsProper := by
  unfold Files.place at h
  split at h
  · cases h
  · split at h
    · cases h
    · split at h
      · cases h
      · next hnonempty hnull hsize =>
          exact ⟨by simpa using hnonempty, by simpa using hnull, Nat.le_of_not_lt hsize⟩

/-- Where a proper path ends is decided by its last name and the directory before it. -/
theorem place_of_isProper (files : Files) {path : Path} (h : path.IsProper) :
    files.place path =
      match path.segments.getLast? with
      | none => .ok (.directory (files.root path.isAbsolute))
      | some name =>
        if name = "." ∨ name = ".." then
          files.descend (files.root path.isAbsolute) path.segments >>= fun location =>
            .ok (.directory location)
        else
          files.descend (files.root path.isAbsolute) path.segments.dropLast >>= fun directory =>
            files.entry? directory name >>= fun node => .ok (.entry directory name node) := by
  have hsize : ¬maxPathSize < path.text.utf8ByteSize := Nat.not_lt.mpr h.size
  unfold Files.place
  simp only [h.nonempty, h.no_null, hsize, Bool.false_eq_true, if_false]
  rfl

/-- A path ends at its last name in the directory that the names before lead to. -/
theorem place_eq_entry_iff (files : Files) (path : Path) (directory : Location) (name : String)
    (node : Option Node) :
    files.place path = .ok (.entry directory name node) ↔
      path.IsProper ∧ name ≠ "." ∧ name ≠ ".." ∧ name.utf8ByteSize ≤ maxNameSize ∧
        files.node? (directory ++ [name]) = node ∧
        ∃ names, path.segments = names ++ [name] ∧
          files.descend (files.root path.isAbsolute) names = .ok directory := by
  by_cases hproper : path.IsProper
  · rw [place_of_isProper files hproper]
    rcases List.eq_nil_or_concat' path.segments with hnil | ⟨names, last, hlast⟩
    · simp [hnil]
    · simp only [hlast, List.getLast?_concat, List.dropLast_concat, List.append_singleton_inj]
      by_cases hdots : last = "." ∨ last = ".."
      · simp only [if_pos hdots, bind_eq_ok_iff]
        grind
      · simp only [if_neg hdots, bind_eq_ok_iff, entry?_eq_ok_iff]
        grind
  · exact ⟨fun h => absurd (isProper_of_place h) hproper, fun h => absurd h.1 hproper⟩

/-- A path that ends at a name in a directory ends at its target. -/
theorem eq_target_of_place {files : Files} {path : Path} {directory : Location} {name : String}
    {node : Option Node} (h : files.place path = .ok (.entry directory name node)) :
    directory ++ [name] = files.target path := by
  obtain ⟨_, hdot, hdots, _, _, names, hsegments, hdescend⟩ :=
    (place_eq_entry_iff _ _ _ _ _).mp h
  rw [target, hsegments, passed_concat _ _ hdot hdots, ← eq_passed_of_descend hdescend]

theorem node?_target_of_place {files : Files} {path : Path} {directory : Location} {name : String}
    {node : Option Node} (h : files.place path = .ok (.entry directory name node)) :
    files.node? (files.target path) = node := by
  rw [← eq_target_of_place h]
  exact ((place_eq_entry_iff _ _ _ _ _).mp h).2.2.2.2.1

/-! Single dots in a way make no difference. -/

theorem descend_filter (files : Files) (directory : Location) (names : List String) :
    files.descend directory (names.filter (· != ".")) = files.descend directory names := by
  induction names generalizing directory with
  | nil => rfl
  | cons name names ih =>
      by_cases hdot : name = "."
      · subst hdot
        exact ih directory
      · rw [List.filter_cons_of_pos (by simpa using hdot), descend, descend]
        simp only [ih]

theorem passed_filter (directory : Location) (names : List String) :
    passed directory (names.filter (· != ".")) = passed directory names := by
  induction names generalizing directory with
  | nil => rfl
  | cons name names ih =>
      by_cases hdot : name = "."
      · subst hdot
        exact ih directory
      · rw [List.filter_cons_of_pos (by simpa using hdot)]
        exact ih (entered directory name)

theorem mem_way_self (directory : Location) (names : List String) :
    directory ∈ way directory names := by
  cases names <;> exact List.mem_cons_self

theorem passed_mem_way (directory : Location) (names : List String) :
    passed directory names ∈ way directory names := by
  induction names generalizing directory with
  | nil => exact List.mem_singleton_self directory
  | cons name names ih => exact List.mem_cons_of_mem directory (ih (entered directory name))

theorem mem_way_append {directory location : Location} {names : List String} (more : List String)
    (h : location ∈ way directory names) : location ∈ way directory (names ++ more) := by
  induction names generalizing directory with
  | nil =>
      obtain rfl := List.mem_singleton.mp h
      exact mem_way_self location more
  | cons name names ih =>
      rcases List.mem_cons.mp h with rfl | h
      · exact List.mem_cons_self
      · exact List.mem_cons_of_mem directory (ih h)

theorem mem_way_filter (directory location : Location) (names : List String) :
    location ∈ way directory (names.filter (· != ".")) ↔ location ∈ way directory names := by
  induction names generalizing directory with
  | nil => rfl
  | cons name names ih =>
      by_cases hdot : name = "."
      · subst hdot
        refine (ih directory).trans ⟨List.mem_cons_of_mem directory, fun h => ?_⟩
        rcases List.mem_cons.mp h with rfl | h
        · exact mem_way_self location names
        · exact h
      · rw [List.filter_cons_of_pos (by simpa using hdot), way, way, List.mem_cons, List.mem_cons,
          ih (entered directory name)]

end Files

end RecordQuery
