import RecordQuery.Proofs.Files.Extension
import RecordQuery.Session

/-!
What actions do to the session. An action stays in a relation if it always leads from a
session to a related one, and it fails in a relation if it does so at least where it
fails. In a relation that can be composed, steps that stay in it may come before a step
that fails in it, and steps that cannot fail may come behind.
-/

namespace RecordQuery

namespace Action

variable {α β ε : Type}

theorem run_bind (action : Action α) (next : α → Action β) (session : Session) :
    (action >>= next).run session =
      match action.run session with
      | (.ok a, session) => (next a).run session
      | (.error e, session) => (.error e, session) := by
  simp only [ExceptT.run, bind, ExceptT.bind, ExceptT.mk, StateT.bind]
  rcases action session with ⟨_ | _, _⟩ <;> rfl

theorem run_get (session : Session) :
    (get : Action Session).run session = (.ok session, session) :=
  rfl

theorem run_files (session : Session) : files.run session = (.ok session.files, session) :=
  rfl

/-- Whether it fails or not, the action leads to a related session. -/
def Stays (related : Session → Session → Prop) (action : Action α) : Prop :=
  ∀ session, related session (action.run session).2

/-- Where it fails, the action leads to a related session. -/
def FailsWithin (related : Session → Session → Prop) (action : Action α) : Prop :=
  ∀ session e, (action.run session).1 = .error e → related session (action.run session).2

/-- The action never fails. -/
def Succeeds (action : Action α) : Prop :=
  ∀ session, ∃ a, (action.run session).1 = .ok a

section

variable {related : Session → Session → Prop}

theorem Stays.failsWithin {action : Action α} (h : action.Stays related) :
    action.FailsWithin related :=
  fun session _ _ => h session

theorem Succeeds.failsWithin {action : Action α} (h : action.Succeeds) :
    action.FailsWithin related := by
  intro session e he
  obtain ⟨a, ha⟩ := h session
  cases ha.symm.trans he

theorem stays_pure (hrefl : ∀ session, related session session) (a : α) :
    (pure a : Action α).Stays related :=
  hrefl

theorem stays_throw (hrefl : ∀ session, related session session) (e : Failure) :
    (throw e : Action α).Stays related :=
  hrefl

theorem stays_files (hrefl : ∀ session, related session session) : files.Stays related :=
  hrefl

theorem stays_lift (hrefl : ∀ session, related session session) (cause : ε → Failure)
    (result : Except ε α) : (lift cause result).Stays related := by
  cases result <;> exact hrefl

/-- The steps of an action may stay one by one. -/
theorem Stays.bind (htrans : ∀ a b c, related a b → related b c → related a c)
    {action : Action α} {next : α → Action β} (h : action.Stays related)
    (hnext : ∀ a, (next a).Stays related) : (action >>= next).Stays related := by
  intro session
  have hfirst := h session
  rw [run_bind]
  generalize action.run session = result at hfirst ⊢
  rcases result with ⟨e | a, between⟩
  · exact hfirst
  · exact htrans _ _ _ hfirst (hnext a between)

/-- What comes before a step that may fail must stay. -/
theorem Stays.bind_failsWithin (htrans : ∀ a b c, related a b → related b c → related a c)
    {action : Action α} {next : α → Action β} (h : action.Stays related)
    (hnext : ∀ a, (next a).FailsWithin related) : (action >>= next).FailsWithin related := by
  intro session e he
  have hfirst := h session
  rw [run_bind] at he ⊢
  generalize action.run session = result at hfirst he ⊢
  rcases result with ⟨e' | a, between⟩
  · exact hfirst
  · exact htrans _ _ _ hfirst (hnext a between e he)

/-- What comes behind a step that may fail must not fail itself. -/
theorem FailsWithin.bind_succeeds {action : Action α} {next : α → Action β}
    (h : action.FailsWithin related) (hnext : ∀ a, (next a).Succeeds) :
    (action >>= next).FailsWithin related := by
  intro session e he
  have hfirst := h session
  rw [run_bind] at he ⊢
  generalize action.run session = result at hfirst he ⊢
  rcases result with ⟨e' | a, between⟩
  · exact hfirst e' rfl
  · obtain ⟨b, hb⟩ := hnext a between
    cases hb.symm.trans he

end

theorem succeeds_print (text : String) : (print text).Succeeds :=
  fun _ => ⟨(), rfl⟩

/-- Showing a result does nothing but to print. -/
theorem exists_run_present (display : Display) (json : Json) (text : String) (session : Session) :
    ∃ output, (display.present json text).run session =
      (.ok (), { session with output := output }) := by
  unfold Display.present
  split
  · exact ⟨_, rfl⟩
  · split
    · exact ⟨_, rfl⟩
    · exact ⟨_, rfl⟩

theorem succeeds_present (display : Display) (json : Json) (text : String) :
    (display.present json text).Succeeds := by
  intro session
  obtain ⟨output, hrun⟩ := exists_run_present display json text session
  exact ⟨(), by rw [hrun]⟩

/-- Nothing is printed, and of the files at most directories are new. -/
def Traceless (before after : Session) : Prop :=
  after.output = before.output ∧ before.files.Extends after.files

theorem Traceless.refl (session : Session) : Traceless session session :=
  ⟨rfl, .refl session.files⟩

theorem Traceless.trans (first second third : Session) (h : Traceless first second)
    (h' : Traceless second third) : Traceless first third :=
  ⟨h'.1.trans h.1, h.2.trans h'.2⟩

theorem run_makeParents (path : Path) (session : Session) :
    (makeParents path).run session =
      ((session.files.ensureParents path).1.mapError fun e => .configuration (.directoryFailed e),
        { session with files := (session.files.ensureParents path).2 }) := by
  have hrun : (makeParents path).run session =
      (lift (fun e => .configuration (.directoryFailed e)) (session.files.ensureParents path).1).run
        { session with files := (session.files.ensureParents path).2 } := rfl
  rw [hrun]
  cases (session.files.ensureParents path).1 <;> rfl

theorem run_writeFile (path : Path) (content : Content) (session : Session) :
    (writeFile path content).run session =
      match session.files.write path content with
      | .ok files => (.ok (), { session with files := files })
      | .error e => (.error (.configuration (.unwritable e)), session) := by
  unfold writeFile
  simp only [run_bind, run_get]
  cases session.files.write path content <;> rfl

/-- The files are the same. -/
def SameFiles (before after : Session) : Prop :=
  after.files = before.files

theorem SameFiles.refl (session : Session) : SameFiles session session :=
  rfl

theorem SameFiles.trans (first second third : Session) (h : SameFiles first second)
    (h' : SameFiles second third) : SameFiles first third :=
  Eq.trans h' h

theorem stays_print (text : String) : (print text).Stays SameFiles :=
  fun _ => rfl

theorem stays_present (display : Display) (json : Json) (text : String) :
    (display.present json text).Stays SameFiles := by
  intro session
  obtain ⟨output, hrun⟩ := exists_run_present display json text session
  rw [hrun]
  rfl

/-- Directories on the way are made without a trace, even if one cannot be made. -/
theorem stays_makeParents (path : Path) : (makeParents path).Stays Traceless := by
  intro session
  rw [run_makeParents]
  exact ⟨rfl, Files.extends_ensureParents session.files path⟩

/-- A content that cannot be written leaves no trace. -/
theorem failsWithin_writeFile (path : Path) (content : Content) :
    (writeFile path content).FailsWithin Traceless := by
  intro session e he
  rw [run_writeFile] at he ⊢
  split at he
  · cases he
  · exact .refl session

end Action

end RecordQuery
