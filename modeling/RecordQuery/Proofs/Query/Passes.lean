import RecordQuery.Proofs.Query.Layout
import RecordQuery.Proofs.Query.Operands

/-!
What is parsed. If every pass reads a layout exactly, the passes give the
filters of its clauses, by operator and in textual order for one operator, and
leave nothing but its blanks.
-/

namespace RecordQuery

open Text Segment

/-- The elements by operator, and in the given order for one operator. -/
def byOperator {α : Type} (operatorOf : α → Operator) (operators : List Operator) (l : List α) :
    List α :=
  operators.flatMap fun operator => l.filter fun x => operatorOf x = operator

theorem byOperator_filter_ne {α : Type} (operatorOf : α → Operator) (operator : Operator)
    (operators : List Operator) (h : operator ∉ operators) (l : List α) :
    byOperator operatorOf operators (l.filter fun x => operatorOf x ≠ operator) =
      byOperator operatorOf operators l := by
  induction operators with
  | nil => rfl
  | cons next operators ih =>
      simp only [List.mem_cons, not_or] at h
      simp only [byOperator, List.flatMap_cons, List.filter_filter] at ih ⊢
      rw [ih h.2]
      congr 1
      refine List.filter_congr fun x _ => ?_
      by_cases hx : operatorOf x = next
      · simp [hx, Ne.symm h.1]
      · simp [hx]

/-- What is read from the elements of one operator are the results of the operator. -/
theorem map_filter_operator {α β ε : Type} (operatorOf : α → Operator)
    (operatorOf' : β → Operator) (f : α → Except ε β)
    (hf : ∀ x y, f x = .ok y → operatorOf' y = operatorOf x) (operator : Operator)
    (l : List α) (l' : List β) (h : l.map f = l'.map .ok) :
    (l.filter fun x => operatorOf x = operator).map f =
      (l'.filter fun y => operatorOf' y = operator).map .ok := by
  induction l generalizing l' with
  | nil =>
      obtain rfl : l' = [] := by simpa using h.symm
      rfl
  | cons x l ih =>
      cases l' with
      | nil => simp at h
      | cons y l' =>
          simp only [List.map_cons, List.cons.injEq] at h
          have hsame := hf x y h.1
          by_cases hx : operatorOf x = operator
          · simp [hsame, hx, h.1, ih l' h.2]
          · simp [hsame, hx, ih l' h.2]

theorem mapM_byOperator {α β ε : Type} (operatorOf : α → Operator) (operatorOf' : β → Operator)
    (f : α → Except ε β) (hf : ∀ x y, f x = .ok y → operatorOf' y = operatorOf x)
    (operators : List Operator) (l : List α) (l' : List β) (h : l.mapM f = .ok l') :
    (byOperator operatorOf operators l).mapM f = .ok (byOperator operatorOf' operators l') := by
  rw [mapM_eq_ok_iff] at h ⊢
  induction operators with
  | nil => rfl
  | cons operator operators ih =>
      have hfirst := map_filter_operator operatorOf operatorOf' f hf operator l l' h
      simp only [byOperator, List.flatMap_cons, List.map_append] at ih ⊢
      rw [ih, hfirst]

/-- The passes succeed if the first pass does and the later ones do on what it leaves. -/
theorem Query.readPasses_cons_eq_ok_iff (operator : Operator) (operators : List Operator)
    (s : List Char) (filters : List Filter) (residue : List Char) :
    readPasses (operator :: operators) s = .ok (filters, residue) ↔
      ∃ first later, ((clause operator).scan s).1.mapM (readClause operator) = .ok first ∧
        readPasses operators ((clause operator).scan s).2 = .ok (later, residue) ∧
        filters = first ++ later := by
  simp only [readPasses]
  cases ((clause operator).scan s).1.mapM (readClause operator) with
  | error e => simp [bind, Except.bind]
  | ok first =>
      cases hlater : readPasses operators ((clause operator).scan s).2 with
      | error e => simp [bind, Except.bind]
      | ok result =>
          obtain ⟨later, residue'⟩ := result
          simp only [bind, Except.bind, pure, Except.pure, Except.ok.injEq, Prod.mk.injEq]
          constructor
          · rintro ⟨rfl, rfl⟩
            exact ⟨first, later, rfl, ⟨rfl, rfl⟩, rfl⟩
          · rintro ⟨_, _, rfl, ⟨rfl, rfl⟩, rfl⟩
            exact ⟨rfl, rfl⟩

/-- A query that is not blank is parsed if the passes succeed and leave blanks only. -/
theorem Query.parseChars_eq_ok_iff (query : List Char) (filters : Query)
    (hblank : (Text.trim query).isEmpty = false) :
    parseChars query = .ok filters ↔
      ∃ residue, readPasses Operator.all (query ++ separator) = .ok (filters, residue) ∧
        ∀ c ∈ residue, Text.isBlank c = true := by
  rw [parseChars, if_neg (by simp [hblank])]
  cases readPasses Operator.all (query ++ separator) with
  | error e => simp [bind, Except.bind]
  | ok result =>
      obtain ⟨filters', residue⟩ := result
      simp only [← trim_isEmpty_iff, bind, Except.bind, Except.ok.injEq, Prod.mk.injEq]
      by_cases hresidue : (Text.trim residue).isEmpty = true
      · rw [if_pos hresidue]
        constructor
        · intro h
          exact ⟨residue, ⟨Except.ok.inj h, rfl⟩, hresidue⟩
        · rintro ⟨_, ⟨rfl, _⟩, _⟩
          rfl
      · rw [if_neg hresidue]
        constructor
        · intro h
          exact absurd h (by simp [throw, throwThe, MonadExceptOf.throw])
        · rintro ⟨_, ⟨_, rfl⟩, htrue⟩
          exact absurd htrue hresidue

namespace Layout

/-- What is left when the passes have taken out the clauses of their operators. -/
def residue (operators : List Operator) (layout : Layout) : Layout :=
  operators.foldl (fun left operator => left.without operator) layout

theorem mem_residue (operators : List Operator) (layout : Layout) (item : Item)
    (h : item ∈ layout.residue operators) :
    item ∈ layout ∧ ∀ operator ∈ operators, item.isOf operator = false := by
  induction operators generalizing layout with
  | nil => exact ⟨h, by simp⟩
  | cons operator operators ih =>
      obtain ⟨hmem, hlater⟩ := ih (layout.without operator) h
      obtain ⟨hlayout, hfirst⟩ := List.mem_filter.mp hmem
      refine ⟨hlayout, ?_⟩
      intro o ho
      rcases List.mem_cons.mp ho with rfl | ho
      · simpa using hfirst
      · exact hlater o ho

/-- All passes leave blanks only. -/
theorem isBlank_of_mem_residue (layout : Layout) (hproper : layout.Proper) :
    ∀ c ∈ (layout.residue Operator.all).text, Text.isBlank c = true := by
  intro c hc
  obtain ⟨item, hitem, hchars⟩ := List.mem_flatMap.mp hc
  obtain ⟨hmem, hnone⟩ := mem_residue _ _ _ hitem
  cases item with
  | blank d =>
      obtain rfl := List.mem_singleton.mp hchars
      exact hproper _ hmem
  | written clause =>
      have := hnone clause.operator (Operator.mem_all _)
      simp [Item.isOf] at this

theorem Proper.grammatical {layout : Layout} (h : layout.Proper) :
    ∀ clause ∈ layout.clauses, clause.Grammatical :=
  fun clause hclause => h (.written clause) ((mem_clauses layout clause).mp hclause)

/-- One pass that reads a layout exactly. -/
theorem scan_of_reads (operator : Operator) (layout : Layout)
    (h : (Query.clause operator).Reads (layout.view operator)) :
    (Query.clause operator).scan layout.text =
      ((layout.clauses.filter fun clause => clause.operator = operator).map Clause.parts,
        (layout.without operator).text) := by
  rw [← spell_view operator, Template.scan_of_reads _ _ h, kept_view, outside_view]

theorem mapM_readClause (operator : Operator) (clauses : List Clause)
    (h : ∀ clause ∈ clauses, clause.Grammatical ∧ clause.operator = operator) :
    (clauses.map Clause.parts).mapM (Query.readClause operator) = clauses.mapM Clause.read := by
  induction clauses with
  | nil => rfl
  | cons clause clauses ih =>
      obtain ⟨hgrammatical, hop⟩ := h clause (by simp)
      rw [List.map_cons, List.mapM_cons, List.mapM_cons, ih fun c hc => h c (by simp [hc]), ← hop,
        Query.readClause_parts clause hgrammatical]

/-- The passes over a layout that they read exactly. -/
theorem readPasses_of_readsExactly (operators : List Operator) (hnodup : operators.Nodup)
    (layout : Layout) (hproper : layout.Proper) (h : layout.ReadsExactly operators) :
    Query.readPasses operators layout.text = do
      let filters ← (byOperator Clause.operator operators layout.clauses).mapM Clause.read
      return (filters, (layout.residue operators).text) := by
  induction operators generalizing layout with
  | nil => rfl
  | cons operator operators ih =>
      obtain ⟨hreads, hlater⟩ := h
      obtain ⟨hfresh, hnodup⟩ := List.nodup_cons.mp hnodup
      have hfirst := mapM_readClause operator
        (layout.clauses.filter fun clause => clause.operator = operator) (by
          intro clause hclause
          obtain ⟨hmem, hop⟩ := List.mem_filter.mp hclause
          exact ⟨hproper.grammatical clause hmem, of_decide_eq_true hop⟩)
      have hrest := ih hnodup (layout.without operator) (hproper.without operator) hlater
      rw [clauses_without, byOperator_filter_ne _ _ _ hfresh] at hrest
      simp only [Query.readPasses, scan_of_reads operator layout hreads, hfirst, hrest, byOperator,
        List.flatMap_cons, List.mapM_append, bind_assoc, pure_bind]
      rfl

/-- A query with a clause is not blank. -/
theorem clauses_eq_nil_of_blank (layout : Layout) (hproper : layout.Proper) (query : List Char)
    (htext : layout.text = query ++ Query.separator)
    (hblank : ∀ c ∈ query, Text.isBlank c = true) : layout.clauses = [] := by
  cases hclauses : layout.clauses with
  | nil => rfl
  | cons clause clauses =>
      have hmem : Item.written clause ∈ layout :=
        (mem_clauses layout clause).mp (by simp [hclauses])
      obtain ⟨first, later, rfl⟩ := List.append_of_mem hmem
      obtain ⟨c, tail, hcons, hc⟩ := (hproper _ hmem).exists_chars_eq_cons
      have hlength := congrArg List.length htext
      have hfirst : text first ++ clause.chars <+: query ++ Query.separator := by
        refine ⟨Query.separator ++ text later, ?_⟩
        rw [← htext]
        simp [Item.chars]
      have hprefix : text first ++ clause.chars <+: query := by
        refine List.prefix_of_prefix_length_le hfirst (List.prefix_append _ _) ?_
        simp only [text_append, text_cons, Item.chars, List.length_append] at hlength ⊢
        omega
      obtain ⟨rest, hquery⟩ := hprefix
      have hmemc : c ∈ query := by simp [← hquery, hcons]
      have := Grammar.isBlank_eq_false c hc
      rw [hblank c hmemc] at this
      exact absurd this (by simp)

/-- A query that is read exactly gives a filter for each of its clauses, by operator. -/
theorem parseChars_of_readsExactly (query : List Char) (layout : Layout)
    (htext : layout.text = query ++ Query.separator) (hproper : layout.Proper)
    (h : layout.ReadsExactly Operator.all) :
    ∃ filters, layout.clauses.mapM Clause.read = .ok filters ∧
      Query.parseChars query = .ok (byOperator Filter.operator Operator.all filters) := by
  obtain ⟨filters, hfilters⟩ := exists_mapM_eq_ok Clause.read layout.clauses
    fun clause hclause => (hproper.grammatical clause hclause).read_isOk
  refine ⟨filters, hfilters, ?_⟩
  have hordered := mapM_byOperator Clause.operator Filter.operator Clause.read
    (fun clause filter hread => ((Clause.read_eq_ok_iff clause filter).mp hread).1)
    Operator.all _ _ hfilters
  have hpasses := readPasses_of_readsExactly Operator.all (by decide) layout hproper h
  have hresidue := (trim_isEmpty_iff _).mpr (isBlank_of_mem_residue layout hproper)
  rw [htext, hordered] at hpasses
  unfold Query.parseChars
  split
  · next hempty =>
    have hnone := clauses_eq_nil_of_blank layout hproper query htext
      ((trim_isEmpty_iff query).mp hempty)
    rw [hnone] at hfilters
    obtain rfl : [] = filters := Except.ok.inj hfilters
    rfl
  · rw [hpasses]
    simp only [bind, Except.bind, pure, Except.pure]
    rw [if_pos hresidue]

end Layout

end RecordQuery
