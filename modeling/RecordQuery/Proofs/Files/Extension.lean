import RecordQuery.Proofs.Files.Place

/-!
Trees that differ by new directories only. Making directories, also where it fails half
way, leaves such a tree, in which every file has the content that it had.
-/

namespace RecordQuery.Files

/-- The second tree has all that the first has, and besides that only directories. -/
structure Extends (before after : Files) : Prop where
  current : after.current = before.current
  node : ∀ location, after.node? location = before.node? location ∨
    before.node? location = none ∧ after.node? location = some .directory

namespace Extends

theorem refl (files : Files) : files.Extends files :=
  ⟨rfl, fun _ => .inl rfl⟩

theorem trans {first second third : Files} (h : first.Extends second)
    (h' : second.Extends third) : first.Extends third := by
  refine ⟨h'.current.trans h.current, fun location => ?_⟩
  rcases h'.node location with heq | ⟨hnone, hdirectory⟩
  · rw [heq]
    exact h.node location
  · rcases h.node location with heq | ⟨hnone', _⟩
    · exact .inr ⟨heq ▸ hnone, hdirectory⟩
    · exact .inr ⟨hnone', hdirectory⟩

/-- What is there stays there. -/
theorem node?_eq_some {before after : Files} (h : before.Extends after) {location : Location}
    {node : Node} (hnode : before.node? location = some node) :
    after.node? location = some node := by
  rcases h.node location with heq | ⟨hnone, _⟩
  · rw [heq, hnode]
  · cases hnone.symm.trans hnode

/-- No file is new, and none has another content. -/
theorem content?_eq {before after : Files} (h : before.Extends after) (location : Location) :
    after.content? location = before.content? location := by
  unfold content?
  rcases h.node location with heq | ⟨hnone, hdirectory⟩
  · rw [heq]
  · rw [hnone, hdirectory]

end Extends

/-- A directory is there already, or else it is made at the name where the path ends. -/
theorem ensureDirectory_cases {before after : Files} {path : Path}
    (h : before.ensureDirectory path = .ok after) :
    after = before ∨ ∃ directory name, before.place path = .ok (.entry directory name none) ∧
      after = before.put (directory ++ [name]) .directory := by
  unfold ensureDirectory at h
  split at h
  · next hmade =>
      obtain ⟨place, hplace, hput⟩ := (bind_eq_ok_iff _ _ _).mp hmade
      match place, hput with
      | .entry directory name none, rfl =>
        exact .inr ⟨directory, name, hplace, (Except.ok.inj h).symm⟩
  · split at h
    · exact .inl (Except.ok.inj h).symm
    · cases h
  · cases h

/-- What each new directory preserves is preserved where directories are made for names,
whether this succeeds or fails half way. -/
theorem ensureDirectories_induction {motive : Files → Prop} {absolute : Bool}
    {names : List String} {files : Files} (start : motive files)
    (step : ∀ before after made, made <:+ names → made ≠ [] → motive before →
      before.ensureDirectory (.ofParts absolute made.reverse) = .ok after → motive after) :
    motive (ensureDirectories absolute names files).2 := by
  induction names with
  | nil => exact start
  | cons name above ih =>
      have hlast (before after : Files) := step before after _ (List.suffix_refl (name :: above))
        (List.cons_ne_nil name above)
      have habove := ih fun before after made hmade =>
        step before after made (hmade.trans (List.suffix_cons name above))
      unfold ensureDirectories
      simp only
      split
      · next hmade => exact hlast _ _ start hmade
      · split
        · next hmiddle =>
            rw [hmiddle] at habove
            split
            · next hmade => exact hlast _ _ habove hmade
            · exact habove
        · next hmiddle =>
            rw [hmiddle] at habove
            exact habove
      · exact start

theorem extends_of_ensureDirectory {before after : Files} {path : Path}
    (h : before.ensureDirectory path = .ok after) : before.Extends after := by
  rcases ensureDirectory_cases h with rfl | ⟨directory, name, hplace, rfl⟩
  · exact .refl after
  · obtain ⟨_, _, _, _, hnone, _⟩ := (place_eq_entry_iff _ _ _ _ _).mp hplace
    refine ⟨rfl, fun location => ?_⟩
    by_cases hlocation : location = directory ++ [name]
    · subst hlocation
      exact .inr ⟨hnone, node?_put_self before .directory (by simp)⟩
    · exact .inl (node?_put_of_ne before .directory hlocation)

theorem extends_ensureDirectories (absolute : Bool) (names : List String) (files : Files) :
    files.Extends (ensureDirectories absolute names files).2 :=
  ensureDirectories_induction (.refl files) fun _ _ _ _ _ hbefore hmade =>
    hbefore.trans (extends_of_ensureDirectory hmade)

/-- Directories that are made on the way to a path are all that is new. -/
theorem extends_ensureParents (files : Files) (path : Path) :
    files.Extends (files.ensureParents path).2 :=
  extends_ensureDirectories _ _ files

end RecordQuery.Files
