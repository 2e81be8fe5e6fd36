import RecordQuery.Proofs.Execution.Creating

/-!
Command lines one after the other. Trees stay trees, so what a single command line may do
to the files holds for each of any number of them. A file keeps its content through all
of them but where a configuration is created in its place: by force, or at a path that
goes up from a directory that is missing.
-/

namespace RecordQuery

/-- The files after some calls. -/
def Files.afterCalls (files : Files) (calls : List Call) : Files :=
  calls.foldl (fun files call => (call.outcome files).files) files

namespace Call

/-- The call may replace a file at the location: it creates a configuration there, and is
forced to or has a path that goes up. -/
def Endangers (call : Call) (files : Files) (location : Location) : Prop :=
  ∃ path force, call.Creates path force ∧ files.target path = location ∧
    (force = true ∨ ".." ∈ path.segments)

variable (call : Call) {files : Files}

/-- A tree stays a tree with the same working directory. -/
theorem isTree_outcome (htree : files.IsTree) :
    (call.outcome files).files.IsTree ∧ (call.outcome files).files.current = files.current := by
  by_cases hcreates : ∃ path force, call.Creates path force
  · obtain ⟨path, force, hcreates⟩ := hcreates
    exact ⟨(hcreates.created files).isTree htree, (hcreates.created files).current_eq⟩
  · rw [call.files_outcome_of_not_creates files fun path force h => hcreates ⟨path, force, h⟩]
    exact ⟨htree, rfl⟩

/-- A file that is not in danger keeps its content. -/
theorem content?_outcome (htree : files.IsTree) {location : Location} {content : Content}
    (hcontent : files.content? location = some content) (hsafe : ¬call.Endangers files location) :
    (call.outcome files).files.content? location = some content := by
  have hregular := call.isRegular htree
  by_cases hcreates : ∃ path force, call.Creates path force
  · obtain ⟨path, force, hcreates⟩ := hcreates
    have hcreation := hregular.creation path force hcreates
    by_cases htarget : location = files.target path
    · subst htarget
      by_cases herror : (call.outcome files).error = none
      · have hforce : force = false := Bool.eq_false_iff.mpr fun hforce =>
          hsafe ⟨path, force, hcreates, rfl, .inl hforce⟩
        have hdown : ".." ∉ path.segments := fun hdots =>
          hsafe ⟨path, force, hcreates, rfl, .inr hdots⟩
        cases (hcreation.fresh herror hforce hdown).symm.trans hcontent
      · rw [hcreation.failed herror, hcontent]
    · rcases hcreation.elsewhere location htarget with hnode | ⟨hnone, _⟩
      · rwa [Files.content?, hnode]
      · rw [Files.content?, hnone] at hcontent
        cases hcontent
  · rwa [hregular.others fun path force h => hcreates ⟨path, force, h⟩]

end Call

namespace Files

variable {files : Files}

theorem IsTree.afterCalls (htree : files.IsTree) (calls : List Call) :
    (files.afterCalls calls).IsTree := by
  induction calls generalizing files with
  | nil => exact htree
  | cons call calls ih => exact ih (call.isTree_outcome htree).1

theorem content?_afterCalls (htree : files.IsTree) (calls : List Call) {location : Location}
    {content : Content} (hcontent : files.content? location = some content)
    (hsafe : ∀ call ∈ calls, ¬call.Endangers files location) :
    (files.afterCalls calls).content? location = some content := by
  induction calls generalizing files with
  | nil => exact hcontent
  | cons call calls ih =>
      obtain ⟨hcall, hcalls⟩ := List.forall_mem_cons.mp hsafe
      obtain ⟨htree', hcurrent⟩ := call.isTree_outcome htree
      refine ih htree' (call.content?_outcome htree hcontent hcall) fun other hother => ?_
      rintro ⟨path, force, hcreates, htarget, hdanger⟩
      refine hcalls other hother ⟨path, force, hcreates, ?_, hdanger⟩
      rw [← htarget, target, target, root, root, hcurrent]

/-- In any sequence of calls each changes the files only as a single one may, and files
that are in danger from none of them keep their content to the end. -/
theorem isRegular_afterCalls (htree : files.IsTree) (calls : List Call) :
    (∀ earlier call later, calls = earlier ++ call :: later →
      call.IsRegular (files.afterCalls earlier)) ∧
    ∀ location content, files.content? location = some content →
      (∀ call ∈ calls, ¬call.Endangers files location) →
      (files.afterCalls calls).content? location = some content :=
  ⟨fun earlier call _ _ => call.isRegular (htree.afterCalls earlier),
    fun _ _ hcontent hsafe => content?_afterCalls htree calls hcontent hsafe⟩

/-- One configuration is kept and another one made with the directories on the way. -/
theorem isRegular_afterCalls_of_two :
    let files : Files :=
      ⟨[(["work"], .directory), (["work", "config.toml"], .file "mine")], ["work"]⟩
    let invocation (path : Option Path) : Invocation :=
      ⟨⟨false, false, false, false, path⟩, .configuration (.create false)⟩
    let calls : List Call := [⟨invocation (some ⟨"config.toml"⟩), ⟨none, none, none⟩, ""⟩,
      ⟨invocation none, ⟨none, some "/work/up/..", none⟩, ""⟩]
    (files.afterCalls calls).content? ["work", "config.toml"] = some (.ofText "mine") ∧
      (files.afterCalls calls).content? ["work", "cqlf", "config.toml"] =
        some (.ofText Configuration.starter) := by
  intro files invocation calls
  have htree : files.IsTree := .of_nodes rfl (by decide)
  have hregular := isRegular_afterCalls htree calls
  refine ⟨hregular.2 _ _ rfl fun call hcall => ?_, ?_⟩
  · rintro ⟨path, force, ⟨hcommand, hpath⟩, htarget, hdanger⟩
    simp only [calls, List.mem_cons, List.not_mem_nil, or_false] at hcall
    rcases hcall with rfl | rfl
    · cases hcommand
      cases hpath
      revert hdanger
      decide +kernel
    · cases hpath
      revert htarget
      decide +kernel
  · have hcreation := (hregular.1 [calls[0]] calls[1] [] rfl).creation
      ⟨"/work/up/../cqlf/config.toml"⟩ false ⟨rfl, by decide +kernel⟩
    exact hcreation.written (by decide +kernel)

end Files

/-- A file that is there is replaced without force: the path goes up from a directory that
is missing when the file is looked for, and is there when the file is written. -/
theorem Call.replaces_unforced :
    let files : Files :=
      ⟨[(["work"], .directory), (["work", "config.toml"], .file "mine")], ["work"]⟩
    let path : Path := ⟨"missing/../config.toml"⟩
    let call : Call :=
      ⟨⟨⟨false, false, false, false, some path⟩, .configuration (.create false)⟩,
        ⟨none, none, none⟩, ""⟩
    call.Creates path false ∧ files.content? (files.target path) = some (.ofText "mine") ∧
      (call.outcome files).error = none ∧
      (call.outcome files).files.content? (files.target path) ≠ some (.ofText "mine") := by
  intro files path call
  have htree : files.IsTree := .of_nodes rfl (by decide)
  have herror : (call.outcome files).error = none := by decide +kernel
  have hcreation := (call.isRegular htree).creation path false ⟨rfl, rfl⟩
  have hstarter : Configuration.starter ≠ "mine" := by
    intro heq
    have hfirst := congrArg (fun text => text.toList.head?) heq
    simp only [Configuration.toList_starter] at hfirst
    revert hfirst
    decide +kernel
  refine ⟨⟨rfl, rfl⟩, by decide +kernel, herror, ?_⟩
  rw [hcreation.written herror, ne_eq, Option.some.injEq, Content.ofText_inj]
  exact hstarter

end RecordQuery
