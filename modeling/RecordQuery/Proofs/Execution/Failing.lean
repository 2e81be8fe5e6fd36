import RecordQuery.Execution
import RecordQuery.Proofs.Session

/-!
Command lines that fail. Every step that can fail comes before the first that prints or
writes a file, so a command line that fails leaves no trace but its exit status, which
tells the kind of the failure. Directories made on the way to a file stay.
-/

namespace RecordQuery

/-- The exit status that stands for the kind of a failure. -/
inductive Failure.HasStatus : Failure → Nat → Prop where
  | grammar (cause : QueryError) (h : cause.kind = .grammar) : HasStatus (.query cause) 1
  | resolution (cause : QueryError) (h : cause.kind = .resolution) : HasStatus (.query cause) 2
  | evaluation (cause : QueryError) (h : cause.kind = .evaluation) : HasStatus (.query cause) 3
  | input (cause : InputError) : HasStatus (.input cause) 4
  | file (cause : FileError) : HasStatus (.file cause) 4
  | malformedInput : HasStatus .malformedInput 4
  | configuration (cause : ConfigurationError) : HasStatus (.configuration cause) 5

theorem Failure.hasStatus_exitCode (e : Failure) : e.HasStatus e.exitCode := by
  cases e with
  | query cause =>
      cases hkind : cause.kind with
      | grammar => simpa [exitCode, hkind] using HasStatus.grammar cause hkind
      | resolution => simpa [exitCode, hkind] using HasStatus.resolution cause hkind
      | evaluation => simpa [exitCode, hkind] using HasStatus.evaluation cause hkind
  | input cause => exact .input cause
  | configuration cause => exact .configuration cause
  | file cause => exact .file cause
  | malformedInput => exact .malformedInput

/-- The outcome on some files is the error alone: nothing is printed, and no file is new,
is gone or has another content. -/
structure Outcome.IsMere (before : Files) (outcome : Outcome) (e : Failure) : Prop where
  error : outcome.error = some e
  output : outcome.output = ""
  content : ∀ location, outcome.files.content? location = before.content? location
  status : e.HasStatus outcome.exitCode

section

open RecordQuery.Action

/-- What comes before leaves no trace, so the failure of a later step leaves none. -/
theorem Action.Stays.failsTraceless {α β : Type} {action : Action α} {next : α → Action β}
    (h : action.Stays Traceless) (hnext : ∀ a, (next a).FailsWithin Traceless) :
    (action >>= next).FailsWithin Traceless :=
  h.bind_failsWithin Traceless.trans hnext

theorem Configuration.failsWithin_display (display : Display) (path : Path) :
    (Configuration.display display path).FailsWithin Traceless :=
  (stays_files .refl).failsTraceless fun _ =>
    (stays_lift .refl _ _).failsTraceless fun _ => (succeeds_present _ _ _).failsWithin

theorem Configuration.failsWithin_locate (display : Display) (path : Path) :
    (locate display path).FailsWithin Traceless :=
  (stays_files .refl).failsTraceless fun _ => (succeeds_present _ _ _).failsWithin

/-- The directories on the way are made before the file is written, and only then is there
anything to print. -/
theorem Configuration.failsWithin_create (display : Display) (path : Path) (force : Bool) :
    (create display path force).FailsWithin Traceless := by
  refine (stays_files .refl).failsTraceless fun files => ?_
  by_cases hthere : (files.has path && !force) = true
  · rw [if_pos hthere]
    exact (stays_throw .refl _).failsWithin
  · rw [if_neg hthere]
    refine (stays_makeParents path).failsTraceless fun _ => ?_
    exact (failsWithin_writeFile path _).bind_succeeds fun _ => succeeds_present _ _ _

theorem Command.failsWithin_runParse (display : Display) (text : String) :
    (runParse display text).FailsWithin Traceless :=
  (stays_lift .refl _ _).failsTraceless fun _ => (succeeds_present _ _ _).failsWithin

theorem Command.failsWithin_runConstraints (display : Display) (path : Path) (text : String) :
    (runConstraints display path text).FailsWithin Traceless :=
  (stays_files .refl).failsTraceless fun _ =>
    (stays_lift .refl _ _).failsTraceless fun _ =>
      (stays_lift .refl _ _).failsTraceless fun _ =>
        (stays_lift .refl _ _).failsTraceless fun _ => (succeeds_present _ _ _).failsWithin

theorem Command.failsWithin_runFilter (display : Display) (path : Path) (standardInput : Content)
    (text : String) (input : Option Path) (grouped : Bool) (fields : Option String) :
    (runFilter display path standardInput text input grouped fields).FailsWithin Traceless :=
  (stays_files .refl).failsTraceless fun _ =>
    (stays_lift .refl _ _).failsTraceless fun _ =>
      (stays_lift .refl _ _).failsTraceless fun _ =>
        (stays_lift .refl _ _).failsTraceless fun _ =>
          (stays_lift .refl _ _).failsTraceless fun _ => (succeeds_present _ _ _).failsWithin

theorem Command.failsWithin_run (display : Display) (path : Path) (standardInput : Content)
    (command : Command) : (run display path standardInput command).FailsWithin Traceless := by
  cases command with
  | overview =>
      rw [run]
      split
      · exact (stays_pure .refl ()).failsWithin
      · exact (succeeds_print _).failsWithin
  | parse text => exact failsWithin_runParse display text
  | filter text input grouped fields =>
      exact failsWithin_runFilter display path standardInput text input grouped fields
  | constraints text => exact failsWithin_runConstraints display path text
  | configuration action =>
      cases action with
      | display => exact Configuration.failsWithin_display display path
      | locate => exact Configuration.failsWithin_locate display path
      | create force => exact Configuration.failsWithin_create display path force

theorem Invocation.failsWithin_act (invocation : Invocation) (environment : Environment)
    (standardInput : Content) : (invocation.act environment standardInput).FailsWithin Traceless :=
  (stays_lift .refl _ _).failsTraceless fun path =>
    (stays_files .refl).failsTraceless fun _ =>
      Command.failsWithin_run _ path standardInput invocation.command

end

/-- A command line that fails leaves no trace but the status that tells why. -/
theorem Invocation.isMere_of_error (invocation : Invocation) (environment : Environment)
    (standardInput : Content) (files : Files) (e : Failure)
    (h : (invocation.execute environment standardInput files).error = some e) :
    (invocation.execute environment standardInput files).IsMere files e := by
  have htraceless := failsWithin_act invocation environment standardInput ⟨files, ""⟩
  unfold execute at h ⊢
  generalize (invocation.act environment standardInput).run ⟨files, ""⟩ = result at h htraceless ⊢
  rcases result with ⟨e' | _, session⟩
  · obtain rfl : e' = e := Option.some.inj h
    obtain ⟨houtput, hextends⟩ := htraceless e' rfl
    exact {
      error := rfl
      output := houtput
      content := hextends.content?_eq
      status := e'.hasStatus_exitCode }
  · cases h

/-- A configuration cannot be written where its directories end: those are made, and that
is all. -/
theorem Invocation.isMere_of_error_of_directory :
    let files : Files := ⟨[(["work"], .directory), (["work", "notes"], .file "mine")], ["work"]⟩
    let invocation : Invocation :=
      ⟨⟨false, false, false, false, some ⟨"new/x/.."⟩⟩, .configuration (.create true)⟩
    let outcome := invocation.execute ⟨none, none, none⟩ "" files
    outcome.IsMere files (.configuration (.unwritable .isDirectory)) ∧
      outcome.files.node? ["work", "new", "x"] = some .directory :=
  ⟨isMere_of_error _ _ _ _ _ (by decide +kernel), by decide +kernel⟩

end RecordQuery
