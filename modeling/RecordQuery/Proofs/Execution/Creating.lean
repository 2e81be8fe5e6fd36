import RecordQuery.Execution
import RecordQuery.Proofs.Configuration
import RecordQuery.Proofs.Files.Writing
import RecordQuery.Proofs.Session

/-!
What command lines do to files. Only the creation of a configuration changes any, and of
these only the file at the path of the configuration, besides directories on the way to
it. What is there already stays, as far as the path leads to it before the directories
are made, unless its replacement is forced.
-/

namespace RecordQuery

/-- A command line with what surrounds it. -/
structure Call where
  invocation : Invocation
  environment : Environment
  standardInput : Content

namespace Call

/-- What the call leaves behind. -/
def outcome (call : Call) (files : Files) : Outcome :=
  call.invocation.execute call.environment call.standardInput files

/-- The call is to create a configuration at a path, perhaps in place of what is there. -/
structure Creates (call : Call) (path : Path) (force : Bool) : Prop where
  command : call.invocation.command = .configuration (.create force)
  path : call.environment.configurationPath call.invocation.settings.schema = .ok path

end Call

section

open RecordQuery.Action

theorem Action.Stays.keeps {α β : Type} {action : Action α} {next : α → Action β}
    (h : action.Stays SameFiles) (hnext : ∀ a, (next a).Stays SameFiles) :
    (action >>= next).Stays SameFiles :=
  h.bind SameFiles.trans hnext

/-- All commands but the creation of a configuration leave the files as they are. -/
theorem Command.stays_run (display : Display) (path : Path) (standardInput : Content)
    (command : Command) (h : ∀ force, command ≠ .configuration (.create force)) :
    (run display path standardInput command).Stays SameFiles := by
  cases command with
  | overview =>
      rw [run]
      split
      · exact stays_pure .refl ()
      · exact stays_print overviewText
  | parse text => exact (stays_lift .refl _ _).keeps fun _ => stays_present _ _ _
  | filter text input grouped fields =>
      exact (stays_files .refl).keeps fun _ => (stays_lift .refl _ _).keeps fun _ =>
        (stays_lift .refl _ _).keeps fun _ => (stays_lift .refl _ _).keeps fun _ =>
          (stays_lift .refl _ _).keeps fun _ => stays_present _ _ _
  | constraints text =>
      exact (stays_files .refl).keeps fun _ => (stays_lift .refl _ _).keeps fun _ =>
        (stays_lift .refl _ _).keeps fun _ => (stays_lift .refl _ _).keeps fun _ =>
          stays_present _ _ _
  | configuration action =>
      cases action with
      | display =>
          exact (stays_files .refl).keeps fun _ => (stays_lift .refl _ _).keeps fun _ =>
            stays_present _ _ _
      | locate => exact (stays_files .refl).keeps fun _ => stays_present _ _ _
      | create force => exact absurd rfl (h force)

/-- A call that creates no configuration leaves the files as they are. -/
theorem Call.files_outcome_of_not_creates (call : Call) (files : Files)
    (h : ∀ path force, ¬call.Creates path force) : (call.outcome files).files = files := by
  have hstays : (call.invocation.act call.environment call.standardInput).Stays SameFiles := by
    unfold Invocation.act
    cases hpath : call.environment.configurationPath call.invocation.settings.schema with
    | error e => exact fun _ => rfl
    | ok path =>
        have hcommand force hforce := h path force ⟨hforce, hpath⟩
        exact (stays_lift .refl _ _).keeps fun _ => (stays_files .refl).keeps fun _ =>
          Command.stays_run _ _ _ _ hcommand
  have hfiles : _ = files := hstays ⟨files, ""⟩
  unfold outcome Invocation.execute
  rcases hrun : (call.invocation.act call.environment call.standardInput).run ⟨files, ""⟩ with
    ⟨_ | _, session⟩
  all_goals
    rw [hrun] at hfiles
    exact hfiles

end

/-- What the creation of a configuration at a path can come to: the error, if it fails, and
the files that it leaves. -/
inductive Files.Created (files : Files) (path : Path) (force : Bool) :
    Option Failure → Files → Prop where
  | alreadyThere (hthere : files.has path = true) (hforce : force = false) :
    Created files path force (some (.configuration (.alreadyThere path))) files
  | directoryFailed (hguard : files.has path = true → force = true) (e : FileError)
    (middle : Files) (hmade : files.ensureParents path = (.error e, middle)) :
    Created files path force (some (.configuration (.directoryFailed e))) middle
  | unwritable (hguard : files.has path = true → force = true) (e : FileError) (middle : Files)
    (hmade : files.ensureParents path = (.ok (), middle))
    (hwritten : middle.write path Configuration.starter = .error e) :
    Created files path force (some (.configuration (.unwritable e))) middle
  | written (hguard : files.has path = true → force = true) (middle after : Files)
    (hmade : files.ensureParents path = (.ok (), middle))
    (hwritten : middle.write path Configuration.starter = .ok after) :
    Created files path force none after

theorem Call.Creates.created {call : Call} {path : Path} {force : Bool}
    (h : call.Creates path force) (files : Files) :
    files.Created path force (call.outcome files).error (call.outcome files).files := by
  have hact : (call.invocation.act call.environment call.standardInput).run ⟨files, ""⟩ =
      (Configuration.create (call.invocation.display files path) path force).run ⟨files, ""⟩ := by
    unfold Invocation.act
    rw [h.path, h.command]
    rfl
  unfold outcome Invocation.execute
  rw [hact]
  unfold Configuration.create
  rw [Action.run_bind, Action.run_files]
  simp only
  by_cases hguard : (files.has path && !force) = true
  · rw [if_pos hguard]
    obtain ⟨hthere, hforce⟩ := Bool.and_eq_true_iff.mp hguard
    exact .alreadyThere hthere (by simpa using hforce)
  · have hguard' : files.has path = true → force = true := by simpa using hguard
    rw [if_neg hguard, Action.run_bind, Action.run_makeParents]
    rcases hmade : files.ensureParents path with ⟨e | _, middle⟩
    · exact .directoryFailed hguard' e middle hmade
    · simp only [Except.mapError]
      rw [Action.run_bind, Action.run_writeFile]
      cases hwritten : middle.write path Configuration.starter with
      | error e =>
          exact .unwritable hguard' e middle hmade hwritten
      | ok after =>
          obtain ⟨output, hpresent⟩ := Action.exists_run_present
            (call.invocation.display files path)
            (.object [("path", .string path.text), ("status", .string "success")])
            ("Created config at: " ++ path.text ++ "\n") ⟨after, ""⟩
          simp only [hpresent]
          exact .written hguard' middle after hmade hwritten

namespace Files.Created

variable {files after : Files} {path : Path} {force : Bool} {error : Option Failure}

/-- A creation that fails makes at most directories. -/
theorem extends_of_error (h : files.Created path force error after) (herror : error ≠ none) :
    files.Extends after := by
  have hextends := extends_ensureParents files path
  cases h with
  | alreadyThere => exact .refl files
  | directoryFailed _ e _ hmade => rwa [hmade] at hextends
  | unwritable _ e _ hmade => rwa [hmade] at hextends
  | written => exact absurd rfl herror

/-- What the path leads to is not replaced unless this is forced. -/
theorem of_has (h : files.Created path force error after) (hforce : force = false)
    (hthere : files.has path = true) :
    error = some (.configuration (.alreadyThere path)) ∧ after = files := by
  have hfree (hguard : files.has path = true → force = true) : False := by
    rw [hforce] at hguard
    cases hguard hthere
  cases h with
  | alreadyThere => exact ⟨rfl, rfl⟩
  | directoryFailed hguard => exact (hfree hguard).elim
  | unwritable hguard => exact (hfree hguard).elim
  | written hguard => exact (hfree hguard).elim

/-- What directories on the way and the text at the path preserve is preserved. -/
theorem files_induction {motive : Files → Prop} (h : files.Created path force error after)
    (start : motive files) (made : motive (files.ensureParents path).2)
    (step : ∀ middle after, files.Extends middle → motive middle →
      middle.write path Configuration.starter = .ok after → motive after) : motive after := by
  have hextends := extends_ensureParents files path
  cases h with
  | alreadyThere => exact start
  | directoryFailed _ e _ hmade => rwa [hmade] at made
  | unwritable _ e _ hmade => rwa [hmade] at made
  | written _ middle _ hmade hwritten =>
      rw [hmade] at made hextends
      exact step middle after hextends made hwritten

/-- Besides the target, only directories on the way are new. -/
theorem node?_of_ne (h : files.Created path force error after) {location : Location}
    (hne : location ≠ files.target path) :
    after.node? location = files.node? location ∨
      files.node? location = none ∧ after.node? location = some .directory ∧
        location ∈ way (files.root path.isAbsolute) path.segments := by
  refine h.files_induction (motive := fun after => after.node? location = files.node? location ∨
    files.node? location = none ∧ after.node? location = some .directory ∧
      location ∈ way (files.root path.isAbsolute) path.segments)
    (.inl rfl) (node?_ensureParents files path location) ?step
  intro middle after hextends hmiddle hwritten
  obtain ⟨_, _, _, rfl⟩ := (write_eq_ok_iff _ _ _ _).mp hwritten
  rwa [node?_put_of_ne middle _ (by rwa [hextends.target_eq])]

theorem current_eq (h : files.Created path force error after) : after.current = files.current := by
  refine h.files_induction (motive := fun after => after.current = files.current) rfl
    (extends_ensureParents files path).current ?step
  intro middle after _ hmiddle hwritten
  obtain ⟨_, _, _, rfl⟩ := (write_eq_ok_iff _ _ _ _).mp hwritten
  exact hmiddle

theorem isTree (h : files.Created path force error after) (htree : files.IsTree) :
    after.IsTree :=
  h.files_induction htree (htree.ensureParents path) fun _ _ _ hmiddle hwritten =>
    hmiddle.write hwritten

/-- A configuration is created if the path admits one and nothing is there that may not be
replaced. -/
theorem error_eq_none_iff (h : files.Created path force error after) (htree : files.IsTree) :
    error = none ↔ files.Admits path ∧ (files.has path = true → force = true) := by
  cases h with
  | alreadyThere hthere hforce => simp [hthere, hforce]
  | directoryFailed hguard e _ hmade =>
      refine ⟨nofun, fun ⟨hadmits, _⟩ => ?_⟩
      obtain ⟨_, _, hmade', _⟩ := exists_write_of_admits hadmits Configuration.starter
      cases hmade.symm.trans hmade'
  | unwritable hguard e _ hmade hwritten =>
      refine ⟨nofun, fun ⟨hadmits, _⟩ => ?_⟩
      obtain ⟨middle, _, hmade', hwritten'⟩ :=
        exists_write_of_admits hadmits Configuration.starter
      obtain rfl : after = middle := congrArg Prod.snd (hmade.symm.trans hmade')
      cases hwritten.symm.trans hwritten'
  | written hguard middle _ hmade hwritten =>
      exact ⟨fun _ => ⟨htree.admits_of_write hmade hwritten, hguard⟩, fun _ => rfl⟩

/-- The path of a new configuration leads to its text. -/
theorem find_of_created (h : files.Created path force none after) :
    after.find path = .ok (.file Configuration.starter) := by
  cases h with
  | written _ _ _ _ hwritten => exact find_of_write hwritten

theorem content?_target (h : files.Created path force none after) :
    after.content? (files.target path) = some (.ofText Configuration.starter) := by
  have hextends := extends_ensureParents files path
  cases h with
  | written _ middle _ hmade hwritten =>
      rw [hmade] at hextends
      obtain ⟨_, ⟨_, _, _, hplace⟩, _, rfl⟩ := (write_eq_ok_iff _ _ _ _).mp hwritten
      have hne : files.target path ≠ [] := by
        rw [← hextends.target_eq, ← eq_target_of_place hplace]
        simp
      rw [content?, hextends.target_eq, node?_put_self middle _ hne]

end Files.Created

/-- What the creation of a configuration may do. -/
structure Outcome.IsCreation (before : Files) (path : Path) (force : Bool) (outcome : Outcome) :
    Prop where
  /-- Only the target of the path gets a content; other places get directories at most. -/
  elsewhere : ∀ location, location ≠ before.target path →
    outcome.files.node? location = before.node? location ∨
      before.node? location = none ∧ outcome.files.node? location = some .directory ∧
        location ∈ Files.way (before.root path.isAbsolute) path.segments
  /-- What the path leads to is not replaced unless this is forced. -/
  kept : force = false → before.has path = true →
    outcome.error = some (.configuration (.alreadyThere path)) ∧ outcome.files = before
  succeeds : outcome.error = none ↔
    before.Admits path ∧ (before.has path = true → force = true)
  failed : outcome.error ≠ none →
    ∀ location, outcome.files.content? location = before.content? location
  written : outcome.error = none →
    outcome.files.content? (before.target path) = some (.ofText Configuration.starter)
  loaded : outcome.error = none → Configuration.schemaAt outcome.files path =
    .ok (.ofDeclarations Configuration.starterDeclarations)
  /-- A path that does not go up finds the file that is there before directories are made. -/
  fresh : outcome.error = none → force = false → ".." ∉ path.segments →
    before.content? (before.target path) = none

/-- What a call may do to the files. -/
structure Call.IsRegular (call : Call) (before : Files) : Prop where
  others : (∀ path force, ¬call.Creates path force) → (call.outcome before).files = before
  creation : ∀ path force, call.Creates path force →
    (call.outcome before).IsCreation before path force

theorem Files.Created.isCreation {files : Files} {path : Path} {force : Bool} {outcome : Outcome}
    (h : files.Created path force outcome.error outcome.files) (htree : files.IsTree) :
    outcome.IsCreation files path force where
  elsewhere _ hne := h.node?_of_ne hne
  kept hforce hthere := h.of_has hforce hthere
  succeeds := h.error_eq_none_iff htree
  failed herror := (h.extends_of_error herror).content?_eq
  written herror := by
    rw [herror] at h
    exact h.content?_target
  loaded herror := by
    rw [herror] at h
    exact Configuration.schemaAt_of_find_starter h.find_of_created
  fresh herror hforce hdown := by
    obtain ⟨hadmits, hguard⟩ := (h.error_eq_none_iff htree).mp herror
    by_contra hcontent
    obtain ⟨content, hcontent⟩ := Option.ne_none_iff_exists'.mp hcontent
    have hthere := htree.has_of_content? hadmits hdown hcontent
    rw [hforce] at hguard
    cases hguard hthere

theorem Call.isRegular (call : Call) {before : Files} (htree : before.IsTree) :
    call.IsRegular before where
  others := call.files_outcome_of_not_creates before
  creation _ _ h := (h.created before).isCreation htree

end RecordQuery
