import RecordQuery.Proofs.Execution.Creating
import RecordQuery.Proofs.Text.Numeral

/-!
The number of records at the end of a listing. A listing of what a query keeps ends with
the number of records in it. Records that are kept one by one all pass. Groups are kept as
a whole, so there the number is that of the records that pass just if no group has both
records that pass and records that do not.
-/

namespace RecordQuery

open Text

namespace Text

/-! The last line of an output. -/

/-- The text is empty or ends with a line end. -/
def EndsLine (text : List Char) : Prop :=
  ∀ c ∈ text.getLast?, c = '\n'

theorem endsLine_append {first second : List Char} (hfirst : EndsLine first)
    (hsecond : EndsLine second) : EndsLine (first ++ second) := by
  intro c hc
  rw [List.getLast?_append] at hc
  cases hlast : second.getLast? with
  | none =>
      rw [hlast] at hc
      exact hfirst c hc
  | some d =>
      rw [hlast] at hc
      exact hsecond c (by rw [hlast]; exact hc)

theorem endsLine_concat (text : List Char) : EndsLine (text ++ ['\n']) := by
  intro c hc
  simpa using hc.symm

theorem endsLine_flatMap {α : Type} (f : α → List Char) (l : List α)
    (h : ∀ x ∈ l, EndsLine (f x)) : EndsLine (l.flatMap f) := by
  induction l with
  | nil => exact nofun
  | cons x l ih =>
      obtain ⟨hx, hl⟩ := List.forall_mem_cons.mp h
      exact endsLine_append hx (ih hl)

/-- Where lines end before them, texts without line ends are found at the end again. -/
theorem append_inj_of_endsLine {before before' line line' : List Char} (hbefore : EndsLine before)
    (hbefore' : EndsLine before') (hline : '\n' ∉ line) (hline' : '\n' ∉ line')
    (h : before ++ line = before' ++ line') : line = line' := by
  have hlast : ∀ {before line : List Char}, EndsLine before → '\n' ∉ line →
      (before ++ line).reverse.takeWhile (· != '\n') = line.reverse := by
    intro before line hbefore hline
    have hclean : ∀ c ∈ line.reverse, (c != '\n') = true := by
      intro c hc
      rw [bne_iff_ne]
      rintro rfl
      exact hline (List.mem_reverse.mp hc)
    rw [List.reverse_append, List.takeWhile_append_of_pos hclean]
    cases hreverse : before.reverse with
    | nil => simp
    | cons c rest =>
        have hc : c = '\n' := hbefore c (by rw [← List.head?_reverse, hreverse]; rfl)
        rw [List.takeWhile_cons_of_neg (by simp [hc]), List.append_nil]
  rw [← List.reverse_inj, ← hlast hbefore hline, ← hlast hbefore' hline', h]

end Text

namespace Batch

/-! Records that are kept and records that pass. -/

/-- How many records of the batch pass. -/
def passing (evaluator : Evaluator Json) (batch : Batch) : Nat :=
  batch.records.countP evaluator.keeps

/-- Some of the records pass and some do not. -/
def IsMixed (evaluator : Evaluator Json) (records : List Json) : Prop :=
  (∃ record ∈ records, evaluator.keeps record = true) ∧
    ∃ record ∈ records, evaluator.keeps record = false

/-- In each group either all records pass or none does. -/
def Unmixed (evaluator : Evaluator Json) : Batch → Prop
  | .flat _ => True
  | .grouped groups => ∀ group ∈ groups, ¬IsMixed evaluator group.2

theorem length_records_project (projection : Projection) (batch : Batch) :
    (batch.project projection).records.length = batch.records.length := by
  cases batch with
  | flat => exact List.length_map projection.apply
  | grouped groups => simp [project, records, List.length_flatMap, Function.comp_def]

/-- Of a group that is kept all records pass just if it is not mixed. -/
theorem countP_eq_length_iff (evaluator : Evaluator Json) (records : List Json)
    (h : records.any evaluator.keeps = true) :
    records.countP evaluator.keeps = records.length ↔ ¬IsMixed evaluator records := by
  rw [List.countP_eq_length, IsMixed, not_and]
  simp [List.any_eq_true.mp h]

theorem countP_of_not_any (evaluator : Evaluator Json) (records : List Json)
    (h : ¬records.any evaluator.keeps = true) :
    records.countP evaluator.keeps = 0 ∧ ¬IsMixed evaluator records := by
  have hnone : ∀ record ∈ records, ¬evaluator.keeps record = true := fun record hrecord hkeeps =>
    h (List.any_eq_true.mpr ⟨record, hrecord, hkeeps⟩)
  refine ⟨List.countP_eq_zero.mpr hnone, ?_⟩
  rintro ⟨⟨record, hrecord, hkeeps⟩, _⟩
  exact hnone record hrecord hkeeps

/-- The groups that are kept have no fewer records than pass, and just as many if none of
them is mixed. -/
theorem length_applyGroups (evaluator : Evaluator Json) (groups : List (String × List Json)) :
    (groups.flatMap (·.2)).countP evaluator.keeps ≤
        ((evaluator.applyGroups groups).flatMap (·.2)).length ∧
      (((evaluator.applyGroups groups).flatMap (·.2)).length =
          (groups.flatMap (·.2)).countP evaluator.keeps ↔
        ∀ group ∈ groups, ¬IsMixed evaluator group.2) := by
  induction groups with
  | nil => simp [Evaluator.applyGroups]
  | cons group groups ih =>
      obtain ⟨hle, hiff⟩ := ih
      rw [List.flatMap_cons, List.countP_append, List.forall_mem_cons, ← hiff]
      by_cases hany : group.2.any evaluator.keeps = true
      · have hkept : evaluator.applyGroups (group :: groups) =
            group :: evaluator.applyGroups groups := List.filter_cons_of_pos hany
        have hgroup := List.countP_le_length (p := evaluator.keeps) (l := group.2)
        rw [hkept, List.flatMap_cons, List.length_append, ← countP_eq_length_iff evaluator _ hany]
        omega
      · have hdropped : evaluator.applyGroups (group :: groups) = evaluator.applyGroups groups :=
          List.filter_cons_of_neg hany
        obtain ⟨hnone, hunmixed⟩ := countP_of_not_any evaluator group.2 hany
        rw [hdropped, hnone, Nat.zero_add]
        exact ⟨hle, by simp [hunmixed]⟩

/-- As many records are kept as pass just if no group is mixed. -/
theorem length_filter_eq_passing_iff (evaluator : Evaluator Json) (batch : Batch) :
    (batch.filter evaluator).records.length = batch.passing evaluator ↔
      batch.Unmixed evaluator := by
  cases batch with
  | flat records =>
      have hcount : (evaluator.apply records).length = records.countP evaluator.keeps :=
        List.countP_eq_length_filter.symm
      exact ⟨fun _ => trivial, fun _ => hcount⟩
  | grouped groups => exact (length_applyGroups evaluator groups).2

/-! Listings. -/

/-- The output ends with a line that gives this number of records. -/
def Reports (output : String) (colored : Bool) (count : Nat) : Prop :=
  ∃ before : String, EndsLine before.toList ∧ output = before ++ summary colored count

theorem reports_render (colored : Bool) (batch : Batch) :
    Reports (batch.render colored) colored batch.records.length := by
  refine ⟨_, ?_, rfl⟩
  cases batch with
  | flat records =>
      simp only [String.toList_join, List.flatMap_map, String.toList_append]
      exact endsLine_flatMap _ _ fun record _ => endsLine_concat _
  | grouped groups =>
      simp only [String.toList_join, List.flatMap_map]
      refine endsLine_flatMap _ _ fun group _ => ?_
      simp only [groupText, String.toList_join, List.flatMap_cons, List.flatMap_map,
        String.toList_append]
      exact endsLine_append (endsLine_concat _)
        (endsLine_flatMap _ _ fun record _ => endsLine_concat _)

/-- The last line has the number in front of a space, behind what depends on colours. -/
theorem exists_line_of_summary (colored : Bool) (count : Nat) :
    ∃ line rest, (summary colored count).toList = line ++ ['\n'] ∧ '\n' ∉ line ∧
      line = (if colored then Style.dim.start else "").toList ++
        (natDigits count ++ ' ' :: rest) := by
  refine ⟨_, ("matching " ++ (if count = 1 then "record" else "records") ++
    (if colored then Style.dim.finish else "")).toList, ?_, ?_, rfl⟩
  · have hspace : " matching ".toList = ' ' :: "matching ".toList := by decide
    cases colored <;> simp [summary, Style.paint, hspace]
  · have hdigits : '\n' ∉ natDigits count := fun hmem =>
      absurd (isDigit_of_mem_natDigits hmem) (by decide)
    rw [List.mem_append, List.mem_append, List.mem_cons]
    rintro (hstart | hdigit | hspace | hrest)
    · revert hstart
      cases colored <;> decide
    · exact hdigits hdigit
    · exact absurd hspace (by decide)
    · revert hrest
      split <;> cases colored <;> decide

/-- An output ends with one number of records only. -/
theorem Reports.unique {output : String} {colored : Bool} {count count' : Nat}
    (h : Reports output colored count) (h' : Reports output colored count') : count = count' := by
  obtain ⟨before, hbefore, rfl⟩ := h
  obtain ⟨before', hbefore', heq⟩ := h'
  obtain ⟨line, rest, hsummary, hclean, hline⟩ := exists_line_of_summary colored count
  obtain ⟨line', rest', hsummary', hclean', hline'⟩ := exists_line_of_summary colored count'
  have hchars := congrArg String.toList heq
  rw [String.toList_append, String.toList_append, hsummary, hsummary', ← List.append_assoc,
    ← List.append_assoc, List.append_cancel_right_eq] at hchars
  have hsame := append_inj_of_endsLine hbefore hbefore' hclean hclean' hchars
  rw [hline, hline'] at hsame
  have hdigits := congrArg (List.takeWhile isDigit) (List.append_cancel_left hsame)
  rw [takeWhile_natDigits _ _ _ (by decide), takeWhile_natDigits _ _ _ (by decide)] at hdigits
  rw [← natOfDigits_natDigits count, hdigits, natOfDigits_natDigits]

end Batch

/-! Runs of the command. -/

/-- What a filter command works on: the batch that it reads, and its query for records of
the declared properties. -/
structure Command.Selects (files : Files) (path : Path) (standardInput : Content)
    (text : String) (input : Option Path) (grouped : Bool) (batch : Batch)
    (evaluator : Evaluator Json) : Prop where
  batch : ∃ content, inputText files standardInput input = .ok content ∧
    Batch.read grouped content = .ok batch
  evaluator : ∃ schema query, Configuration.schemaAt files path = .ok schema ∧
    Query.parse text = .ok query ∧ Evaluator.compile schema query = .ok evaluator

theorem Batch.select_eq_ok_iff (schema : Schema Json) (text : String) (projection : Projection)
    (batch kept : Batch) :
    batch.select schema text projection = .ok kept ↔
      ∃ query evaluator, Query.parse text = .ok query ∧
        Evaluator.compile schema query = .ok evaluator ∧
        (batch.filter evaluator).project projection = kept := by
  simp only [select, bind_eq_ok_iff, pure, Except.pure, Except.ok.injEq]
  constructor
  · rintro ⟨query, hquery, evaluator, hevaluator, hkept⟩
    exact ⟨query, evaluator, hquery, hevaluator, hkept⟩
  · rintro ⟨query, evaluator, hquery, hevaluator, hkept⟩
    exact ⟨query, hquery, evaluator, hevaluator, hkept⟩

theorem Action.run_files_bind {β : Type} (next : Files → Action β) (session : Session) :
    (files >>= next).run session = (next session.files).run session :=
  rfl

theorem Action.run_lift_ok_bind {α β ε : Type} (cause : ε → Failure) (a : α)
    (next : α → Action β) (session : Session) :
    (lift cause (.ok a) >>= next).run session = (next a).run session :=
  rfl

/-- A step that reads a result goes on with the result. -/
theorem Action.exists_of_run_lift_bind {α β ε : Type} (cause : ε → Failure) (result : Except ε α)
    (next : α → Action β) (session : Session) (b : β)
    (h : ((lift cause result >>= next).run session).1 = .ok b) :
    ∃ a, result = .ok a ∧
      (lift cause result >>= next).run session = (next a).run session := by
  cases result with
  | error e => cases h
  | ok a => exact ⟨a, rfl, rfl⟩

/-- A filter command that does not fail shows what its query keeps of its batch. -/
theorem Command.exists_selects_of_run (display : Display) (path : Path) (standardInput : Content)
    (text : String) (input : Option Path) (grouped : Bool) (fields : Option String)
    (session : Session)
    (h : ((runFilter display path standardInput text input grouped fields).run session).1 =
      .ok ()) :
    ∃ batch evaluator,
      Selects session.files path standardInput text input grouped batch evaluator ∧
      let kept := (batch.filter evaluator).project (Projection.ofText (fields.getD ""))
      (runFilter display path standardInput text input grouped fields).run session =
        (display.present kept.toJson (kept.render display.colored)).run session := by
  unfold runFilter at h ⊢
  rw [Action.run_files_bind] at h ⊢
  obtain ⟨schema, hschema, hrun⟩ := Action.exists_of_run_lift_bind _ _ _ _ _ h
  rw [hrun] at h ⊢
  obtain ⟨content, hcontent, hrun⟩ := Action.exists_of_run_lift_bind _ _ _ _ _ h
  rw [hrun] at h ⊢
  obtain ⟨batch, hbatch, hrun⟩ := Action.exists_of_run_lift_bind _ _ _ _ _ h
  rw [hrun] at h ⊢
  obtain ⟨kept, hkept, hrun⟩ := Action.exists_of_run_lift_bind _ _ _ _ _ h
  rw [hrun]
  obtain ⟨query, evaluator, hquery, hevaluator, rfl⟩ :=
    (Batch.select_eq_ok_iff _ _ _ _ _).mp hkept
  exact ⟨batch, evaluator, ⟨⟨content, hcontent, hbatch⟩, schema, query, hschema, hquery,
    hevaluator⟩, rfl⟩

/-- A call that lists what a query keeps, for readers. -/
structure Call.Lists (call : Call) (path : Path) (text : String) (input : Option Path)
    (grouped : Bool) (fields : Option String) : Prop where
  command : call.invocation.command = .filter text input grouped fields
  path : call.environment.configurationPath call.invocation.settings.schema = .ok path
  readable : call.invocation.settings.json = false
  loud : call.invocation.settings.quiet = false

/-- Once the path is known, what is left is to run the command. -/
theorem Call.run_act {call : Call} {path : Path}
    (h : call.environment.configurationPath call.invocation.settings.schema = .ok path)
    (files : Files) :
    (call.invocation.act call.environment call.standardInput).run ⟨files, ""⟩ =
      (call.invocation.command.run (call.invocation.display files path) path
        call.standardInput).run ⟨files, ""⟩ := by
  unfold Invocation.act
  rw [h, Action.run_lift_ok_bind, Action.run_files_bind]

theorem Action.run_present {display : Display} (hreadable : display.json = false)
    (hloud : display.quiet = false) (json : Json) (text : String) (session : Session) :
    (display.present json text).run session =
      (.ok (), { session with output := session.output ++ text }) := by
  unfold Display.present
  rw [hreadable, hloud]
  rfl

theorem Call.Lists.exists_output {call : Call} {path : Path} {text : String} {input : Option Path}
    {grouped : Bool} {fields : Option String} (h : call.Lists path text input grouped fields)
    (files : Files) (hok : (call.outcome files).error = none) :
    ∃ batch evaluator,
      Command.Selects files path call.standardInput text input grouped batch evaluator ∧
      (call.outcome files).output =
        ((batch.filter evaluator).project (Projection.ofText (fields.getD ""))).render
          (call.invocation.display files path).colored := by
  have hact := Call.run_act h.path files
  rw [h.command, Command.run] at hact
  unfold outcome Invocation.execute at hok ⊢
  rw [hact] at hok ⊢
  rcases hrun : (Command.runFilter (call.invocation.display files path) path call.standardInput
    text input grouped fields).run ⟨files, ""⟩ with ⟨_ | _, session⟩
  · rw [hrun] at hok
    cases hok
  · obtain ⟨batch, evaluator, hselects, hpresent⟩ := Command.exists_selects_of_run _ _ _ _ _ _ _ _
      (congrArg Prod.fst hrun)
    refine ⟨batch, evaluator, hselects, ?_⟩
    have hreadable : (call.invocation.display files path).json = false := h.readable
    have hloud : (call.invocation.display files path).quiet = false := h.loud
    simp only [hrun, Action.run_present hreadable hloud] at hpresent
    obtain ⟨-, rfl⟩ := Prod.mk.inj hpresent
    exact String.empty_append

/-- A listing ends with the number of records in it. This is the number of records of the
input that the query accepts if and only if no group has both records that pass and
records that do not, for records that come in no groups always. -/
theorem Call.reports_passing_iff {call : Call} {path : Path} {text : String}
    {input : Option Path} {grouped : Bool} {fields : Option String}
    (h : call.Lists path text input grouped fields) (files : Files)
    (hok : (call.outcome files).error = none) :
    ∃ batch evaluator,
      Command.Selects files path call.standardInput text input grouped batch evaluator ∧
      let colored := (call.invocation.display files path).colored
      Batch.Reports (call.outcome files).output colored (batch.filter evaluator).records.length ∧
      (Batch.Reports (call.outcome files).output colored (batch.passing evaluator) ↔
        batch.Unmixed evaluator) := by
  obtain ⟨batch, evaluator, hselects, houtput⟩ := h.exists_output files hok
  refine ⟨batch, evaluator, hselects, ?_⟩
  intro colored
  have hreports : Batch.Reports (call.outcome files).output colored
      (batch.filter evaluator).records.length := by
    have hrender := Batch.reports_render colored
      ((batch.filter evaluator).project (Projection.ofText (fields.getD "")))
    rwa [Batch.length_records_project, ← houtput] at hrender
  refine ⟨hreports, ?_⟩
  rw [← Batch.length_filter_eq_passing_iff]
  constructor
  · intro hpassing
    exact hreports.unique hpassing
  · intro hcount
    rwa [hcount] at hreports

/-- Two groups, one of which is kept, in colours. -/
theorem Call.reports_passing_iff_of_groups :
    let files : Files := ⟨[(["work"], .directory), (["work", "c.toml"],
      .file "[[schema]]\nname = \"size\"\ntype = \"integer\"\n")], ["work"]⟩
    let call : Call :=
      ⟨⟨⟨false, false, false, false, some ⟨"c.toml"⟩⟩, .filter "size=2" none true (some "size")⟩,
        ⟨none, none, none⟩,
        "\x7b\"north\":[\x7b\"size\":2,\"x\":0\x7d,\x7b\"size\":2\x7d],\"south\":[\x7b\"size\":9\x7d]\x7d"⟩
    call.Lists ⟨"c.toml"⟩ "size=2" none true (some "size") ∧
      (call.outcome files).error = none ∧
      ∃ batch evaluator,
        Command.Selects files ⟨"c.toml"⟩ call.standardInput "size=2" none true batch evaluator ∧
        Batch.Reports (call.outcome files).output true (batch.filter evaluator).records.length ∧
        (Batch.Reports (call.outcome files).output true (batch.passing evaluator) ↔
          batch.Unmixed evaluator) := by
  intro files call
  have hlists : call.Lists ⟨"c.toml"⟩ "size=2" none true (some "size") := ⟨rfl, rfl, rfl, rfl⟩
  have hok : (call.outcome files).error = none := by decide +kernel
  have hcolored : (call.invocation.display files ⟨"c.toml"⟩).colored = true := by decide +kernel
  refine ⟨hlists, hok, ?_⟩
  have hreports := reports_passing_iff hlists files hok
  rwa [hcolored] at hreports

/-- Of two records in a group one matches, and two are reported. -/
theorem Call.reports_more_than_pass :
    let files : Files := ⟨[(["work"], .directory), (["work", "c.toml"],
      .file "[[schema]]\nname = \"size\"\ntype = \"integer\"\n")], ["work"]⟩
    let content := "\x7b\"north\":[\x7b\"size\":1\x7d,\x7b\"size\":2\x7d]\x7d"
    let call : Call :=
      ⟨⟨⟨false, false, false, true, some ⟨"c.toml"⟩⟩, .filter "size=2" none true none⟩,
        ⟨none, none, none⟩, content⟩
    (call.outcome files).error = none ∧
      (do
        let schema ← (Configuration.schemaAt files ⟨"c.toml"⟩).toOption
        let evaluator ← (Query.parse "size=2" >>= Evaluator.compile schema).toOption
        let batch ← (Batch.read true content).toOption
        return batch.passing evaluator) = some 1 ∧
      Batch.Reports (call.outcome files).output false 2 ∧
      ¬Batch.Reports (call.outcome files).output false 1 := by
  intro files content call
  have houtput : (call.outcome files).output =
      "north\n  \x7b\"size\":1\x7d\n  \x7b\"size\":2\x7d\n" ++ Batch.summary false 2 := by
    decide +kernel
  have hreports : Batch.Reports (call.outcome files).output false 2 :=
    ⟨_, by simp [EndsLine], houtput⟩
  refine ⟨by decide +kernel, by decide +kernel, hreports, fun hone => ?_⟩
  exact absurd (hreports.unique hone) (by decide)

end RecordQuery
