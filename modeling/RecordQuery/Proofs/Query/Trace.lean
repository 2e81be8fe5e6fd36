import RecordQuery.Proofs.Query.Passes

/-!
What the passes find. Whatever the text is, every pass finds clauses of its
operator, and together with what is left in the end they have all characters of
the text. If they are the clauses of a conjunction that comes by operator, each
was found where it is written.
-/

namespace RecordQuery.Layout

open Segment

/-- The match is a grammatical clause of the operator with the separator behind it. -/
def IsClause (operator : Operator) (text : List Char) (parts : List (List Char)) : Prop :=
  ∃ clause : Clause, clause.Grammatical ∧ clause.operator = operator ∧
    text = clause.chars ++ Query.separator ∧ parts = clause.parts

/-- The matches of a reading are clauses, if filters are read from their parts. -/
theorem isClause_of_reads (operator : Operator) (segments : List Segment)
    (h : (Query.clause operator).Reads segments) (filters : List Filter)
    (hread : (kept segments).mapM (Query.readClause operator) = .ok filters) :
    ∀ text parts, Segment.found text parts ∈ segments → IsClause operator text parts := by
  rw [mapM_eq_ok_iff] at hread
  induction h generalizing filters with
  | nil => simp
  | gap c segments _ _ ih =>
      intro text parts hmem
      exact ih filters hread text parts (by simpa using hmem)
  | found text' parts' segments _ hmatch _ ih =>
      intro text parts hmem
      have hkept : kept (.found text' parts' :: segments) = parts' :: kept segments := rfl
      rw [hkept, List.map_cons] at hread
      cases filters with
      | nil => simp at hread
      | cons filter filters =>
          obtain ⟨hfirst, hlater⟩ := List.cons.inj hread
          rcases List.mem_cons.mp hmem with heq | hmem
          · obtain ⟨rfl, rfl⟩ := Segment.found.inj heq
            have hfits := Template.fits_of_match? _ (Clause.clause_bounded operator) _ _ _ hmatch
            obtain ⟨clause, rfl, hshaped, htext, rfl⟩ := (Clause.fits_iff _ _ _ _).mp hfits
            refine ⟨clause, Query.grammatical_of_readClause clause hshaped filter hfirst, rfl, ?_,
              rfl⟩
            rw [← List.append_assoc] at htext
            exact List.append_cancel_right htext
          · exact ih filters hlater text parts hmem

/-- The matches of a reading as a list of clauses. -/
theorem exists_clauses_of_reads (operator : Operator) (segments : List Segment)
    (h : ∀ text parts, Segment.found text parts ∈ segments → IsClause operator text parts) :
    ∃ clauses : List Clause,
      (∀ clause ∈ clauses, clause.Grammatical ∧ clause.operator = operator) ∧
      kept segments = clauses.map Clause.parts ∧
      (spell segments).length = (ofClauses clauses).text.length + (outside segments).length := by
  induction segments with
  | nil => exact ⟨[], by simp, rfl, rfl⟩
  | cons segment segments ih =>
      obtain ⟨clauses, hclauses, hkept, hlength⟩ := ih fun text parts hmem =>
        h text parts (by simp [hmem])
      cases segment with
      | gap c =>
          refine ⟨clauses, hclauses, by simpa [kept] using hkept, ?_⟩
          have houtside : outside (.gap c :: segments) = c :: outside segments := rfl
          simp only [spell_cons, Segment.chars, houtside, List.length_append, List.length_cons,
            List.length_nil, hlength]
          omega
      | found text parts =>
          obtain ⟨clause, hgrammatical, hop, rfl, rfl⟩ := h text parts (by simp)
          refine ⟨clause :: clauses, ?_, ?_, ?_⟩
          · intro c hc
            rcases List.mem_cons.mp hc with rfl | hc
            · exact ⟨hgrammatical, hop⟩
            · exact hclauses c hc
          · have hcons : kept (.found (clause.chars ++ Query.separator) clause.parts :: segments) =
                clause.parts :: kept segments := rfl
            rw [hcons, hkept, List.map_cons]
          · have houtside : outside (.found (clause.chars ++ Query.separator) clause.parts ::
                segments) = outside segments := rfl
            have hitem : (ofClauses (clause :: clauses)).text =
                (clause.chars ++ Query.separator) ++ (ofClauses clauses).text := rfl
            rw [spell_cons, houtside, hitem, List.length_append, List.length_append, hlength]
            simp only [Segment.chars]
            omega

/-- The passes for the operators find these clauses in the text and leave the residue. -/
inductive Finds : List Operator → List Char → List Clause → List Char → Prop
  | done (residue : List Char) : Finds [] residue [] residue
  | pass (operator : Operator) (operators : List Operator) (segments : List Segment)
      (first later : List Clause) (residue : List Char)
      (hreads : (Query.clause operator).Reads segments)
      (hclauses : ∀ clause ∈ first, clause.Grammatical ∧ clause.operator = operator)
      (hkept : kept segments = first.map Clause.parts)
      (hlength : (spell segments).length =
        (ofClauses first).text.length + (outside segments).length)
      (hlater : Finds operators (outside segments) later residue) :
      Finds (operator :: operators) (spell segments) (first ++ later) residue

/-- Passes that succeed give the filters of the clauses that they find. -/
theorem finds_of_readPasses (operators : List Operator) (s : List Char) (filters : List Filter)
    (residue : List Char) (h : Query.readPasses operators s = .ok (filters, residue)) :
    ∃ clauses, Finds operators s clauses residue ∧ clauses.mapM Clause.read = .ok filters := by
  induction operators generalizing s filters with
  | nil =>
      obtain ⟨rfl, rfl⟩ : [] = filters ∧ s = residue := by simpa [Query.readPasses] using h
      exact ⟨[], .done s, rfl⟩
  | cons operator operators ih =>
      obtain ⟨segments, rfl, hreads⟩ := Template.exists_reads _ (Clause.clause_bounded operator)
        (Clause.clause_consuming operator) s
      rw [Query.readPasses_cons_eq_ok_iff, Template.scan_of_reads _ _ hreads] at h
      obtain ⟨filters, filters', hfirst, hrest, rfl⟩ := h
      obtain ⟨first, hclauses, hkept, hlength⟩ := exists_clauses_of_reads operator segments
        (isClause_of_reads operator segments hreads filters hfirst)
      obtain ⟨later, hfinds, hread⟩ := ih _ _ hrest
      refine ⟨first ++ later, .pass _ _ _ _ _ _ hreads hclauses hkept hlength hfinds, ?_⟩
      simp only at hfirst
      rw [hkept, mapM_readClause operator first hclauses] at hfirst
      rw [mapM_eq_ok_iff] at hfirst hread ⊢
      rw [List.map_append, hfirst, hread, List.map_append]

theorem Finds.grammatical {operators : List Operator} {s residue : List Char}
    {clauses : List Clause} (h : Finds operators s clauses residue) :
    ∀ clause ∈ clauses, clause.Grammatical ∧ clause.operator ∈ operators := by
  induction h with
  | done => simp
  | pass operator operators segments first later residue _ hclauses _ _ _ ih =>
      intro clause hclause
      rcases List.mem_append.mp hclause with hclause | hclause
      · obtain ⟨hgrammatical, rfl⟩ := hclauses clause hclause
        exact ⟨hgrammatical, by simp⟩
      · obtain ⟨hgrammatical, hmem⟩ := ih clause hclause
        exact ⟨hgrammatical, by simp [hmem]⟩

theorem ofClauses_append (first later : List Clause) :
    ofClauses (first ++ later) = ofClauses first ++ ofClauses later :=
  List.map_append

/-- No character gets lost. -/
theorem Finds.length_eq {operators : List Operator} {s residue : List Char}
    {clauses : List Clause} (h : Finds operators s clauses residue) :
    s.length = (ofClauses clauses).text.length + residue.length := by
  induction h with
  | done residue => simp [ofClauses]
  | pass operator operators segments first later residue _ _ _ hlength _ ih =>
      rw [hlength, ih, ofClauses_append, text_append, List.length_append]
      omega

/-- The clauses of the first operator and the clauses of the others. -/
theorem filter_append_of_fresh (operator : Operator) (first later : List Clause)
    (hfirst : ∀ clause ∈ first, clause.operator = operator)
    (hlater : ∀ clause ∈ later, clause.operator ≠ operator) :
    ((first ++ later).filter fun clause => clause.operator = operator) = first ∧
      ((first ++ later).filter fun clause => clause.operator ≠ operator) = later := by
  constructor
  · rw [List.filter_append, List.filter_eq_self.mpr fun c hc => decide_eq_true (hfirst c hc),
      List.filter_eq_nil_iff.mpr fun c hc => by simpa using hlater c hc, List.append_nil]
  · rw [List.filter_append, List.filter_eq_nil_iff.mpr fun c hc => by simpa using hfirst c hc,
      List.filter_eq_self.mpr fun c hc => decide_eq_true (hlater c hc), List.nil_append]

/-- Clauses are found by operator. -/
theorem Finds.byOperator_eq {operators : List Operator} {s residue : List Char}
    {clauses : List Clause} (h : Finds operators s clauses residue) (hnodup : operators.Nodup) :
    byOperator Clause.operator operators clauses = clauses := by
  induction h with
  | done => rfl
  | pass operator operators segments first later residue _ hclauses _ _ hfinds ih =>
      obtain ⟨hfresh, hnodup⟩ := List.nodup_cons.mp hnodup
      obtain ⟨hfirst, hlater⟩ := filter_append_of_fresh operator first later
        (fun c hc => (hclauses c hc).2) fun c hc heq => hfresh (heq ▸ (hfinds.grammatical c hc).2)
      have hsame := byOperator_filter_ne Clause.operator operator operators hfresh (first ++ later)
      rw [hlater, ih hnodup] at hsame
      rw [byOperator, List.flatMap_cons, hfirst, ← byOperator, ← hsame]

/-! Clauses that are found where they are written. -/

/-- A reading in which no match is kept is all gaps. -/
theorem eq_gaps_of_kept_nil (segments : List Segment) (h : kept segments = []) :
    segments = (spell segments).map .gap := by
  induction segments with
  | nil => rfl
  | cons segment segments ih =>
      cases segment with
      | gap c =>
          have hlater := ih (by simpa [kept] using h)
          rw [spell_cons, Segment.chars, List.singleton_append, List.map_cons, ← hlater]
      | found text parts => simp [kept] at h

/-- If a text begins with clauses and just as many are found in it, they are these. -/
theorem eq_view_of_reads (operator : Operator) (first : List Clause)
    (hclauses : ∀ clause ∈ first, clause.Grammatical ∧ clause.operator = operator)
    (t : List Char) (segments : List Segment)
    (hreads : (Query.clause operator).Reads segments)
    (hspell : spell segments = (ofClauses first).text ++ t)
    (hkept : kept segments = first.map Clause.parts) :
    segments = view operator (ofClauses first) ++ t.map .gap := by
  induction first generalizing segments with
  | nil =>
      have hgaps := eq_gaps_of_kept_nil segments hkept
      rw [hspell] at hgaps
      simpa [ofClauses] using hgaps
  | cons clause first ih =>
      obtain ⟨hgrammatical, rfl⟩ := hclauses clause (by simp)
      have hitem : (ofClauses (clause :: first)).text =
          clause.chars ++ (Query.separator ++ (ofClauses first).text) := by
        simp [ofClauses, Item.chars]
      have hmatch := Clause.match_clause clause hgrammatical ((ofClauses first).text ++ t)
      have htext : spell segments =
          clause.chars ++ (Query.separator ++ ((ofClauses first).text ++ t)) := by
        rw [hspell, hitem]
        simp
      cases hreads with
      | nil => simp [Query.separator] at htext
      | gap c segments hnone _ =>
          rw [spell_cons, Segment.chars, List.singleton_append] at htext
          rw [htext, hmatch] at hnone
          simp at hnone
      | found text parts segments _ hfound hlater =>
          rw [spell_cons, Segment.chars] at htext
          rw [htext, hmatch, Option.some.injEq, Prod.mk.injEq] at hfound
          obtain ⟨rfl, hrest⟩ := hfound
          rw [← hrest, ← List.append_assoc clause.chars] at htext
          obtain rfl := List.append_cancel_right htext
          have hsame := ih (fun c hc => hclauses c (by simp [hc])) segments hlater hrest.symm
            (List.cons.inj hkept).2
          rw [hsame]
          simp [ofClauses, Item.view, Item.chars]

/-- If the passes find the clauses of the conjunction, they read it exactly. -/
theorem Finds.readsExactly {operators : List Operator} {s residue : List Char}
    {clauses : List Clause} (h : Finds operators s clauses residue) (hnodup : operators.Nodup)
    (htext : s = (ofClauses clauses).text) : ReadsExactly operators (ofClauses clauses) := by
  induction h with
  | done => trivial
  | pass operator operators segments first later residue hreads hclauses hkept _ hfinds ih =>
      obtain ⟨hfresh, hnodup⟩ := List.nodup_cons.mp hnodup
      have hother : ∀ item ∈ ofClauses later, item.isOf operator = false := by
        intro item hitem
        obtain ⟨clause, hclause, rfl⟩ := List.mem_map.mp hitem
        have hne : clause.operator ≠ operator :=
          fun heq => hfresh (heq ▸ (hfinds.grammatical clause hclause).2)
        simpa [Item.isOf] using hne
      have hfirst : without operator (ofClauses first) = [] := by
        refine List.filter_eq_nil_iff.mpr fun item hitem => ?_
        obtain ⟨clause, hclause, rfl⟩ := List.mem_map.mp hitem
        simp [Item.isOf, (hclauses clause hclause).2]
      obtain ⟨hview, hwithout⟩ := view_of_not_isOf operator (ofClauses later) hother
      rw [ofClauses_append, text_append] at htext
      have hsegments := eq_view_of_reads operator first hclauses _ segments hreads htext hkept
      rw [← hview, ← view_append, ← ofClauses_append] at hsegments
      refine ⟨hsegments ▸ hreads, ?_⟩
      rw [hsegments, outside_view, ofClauses_append, without_append, hfirst, hwithout,
        List.nil_append] at ih
      rw [ofClauses_append, without_append, hfirst, hwithout, List.nil_append]
      exact ih hnodup rfl

end RecordQuery.Layout
