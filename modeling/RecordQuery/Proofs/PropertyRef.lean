import RecordQuery.Proofs.Grammar
import RecordQuery.Proofs.Text.Pieces
import RecordQuery.PropertyRef

/-!
Paths above and under each other. A path is above another if its segments begin those of
the other, whole segment by whole segment, though the check is made on the texts with a dot
behind each. So the paths are ordered, and what is left of a path below another is the
path behind the other and a dot.

A call is about the path in its parentheses, and keeps its function when this path is
made relative.
-/

namespace RecordQuery

/-- A text is a call if it has a name, an opening parenthesis and a closing one at its end,
which are the first of their kind. -/
theorem callParts?_eq_some_iff (token name argument : List Char) :
    callParts? token = some (name, argument) ↔
      token = name ++ '(' :: (argument ++ [')']) ∧ name ≠ [] ∧ '(' ∉ name ∧ ')' ∉ argument := by
  constructor
  · intro h
    unfold callParts? at h
    split at h
    · next before rest hopen =>
      obtain ⟨rfl, hbefore⟩ := (Text.splitFirst?_eq_some_iff _ _ _ _).mp hopen
      split at h
      · next inner hclose =>
        obtain ⟨rfl, hinner⟩ := (Text.splitFirst?_eq_some_iff _ _ _ _).mp hclose
        split at h
        · cases h
        · next hname =>
          obtain ⟨rfl, rfl⟩ := Prod.mk.inj (Option.some.inj h)
          exact ⟨rfl, by simpa using hname, hbefore, hinner⟩
      · cases h
    · cases h
  · rintro ⟨rfl, hname, hopen, hclose⟩
    rw [callParts?, Text.splitFirst?_append '(' name _ hopen]
    simp only [Text.splitFirst?_append ')' argument [] hclose]
    rw [if_neg (by simpa using hname)]

theorem callParts?_eq_none_of_not_mem {token : List Char} (h : '(' ∉ token) :
    callParts? token = none := by
  cases hparts : callParts? token with
  | none => rfl
  | some parts =>
      obtain ⟨rfl, _⟩ := (callParts?_eq_some_iff token parts.1 parts.2).mp hparts
      exact absurd (by simp) h

namespace PropertyRef

/-- The reference is a path and no call. -/
def IsPlain (ref : PropertyRef) : Prop :=
  callParts? ref.chars = none

theorem path_of_isPlain {ref : PropertyRef} (h : ref.IsPlain) : ref.path = ref.chars := by
  rw [path, h]

theorem chars_inj {a b : PropertyRef} : a.chars = b.chars ↔ a = b := by
  rw [chars, chars, String.toList_inj, PropertyRef.mk.injEq]

/-- A path has no parentheses. -/
theorem ne_paren_of_takes_path {text rest : List Char} (h : Grammar.path.Takes text rest) :
    ∀ c ∈ text, c ≠ '(' ∧ c ≠ ')' := by
  simp only [Grammar.path, Pattern.takes_seq, Pattern.takes_one, Pattern.takes_run] at h
  obtain ⟨_, more, rfl, ⟨first, rfl, hfirst⟩, hmore, _⟩ := h
  intro c hc
  have hproperty : Grammar.isPathChar c = true := by
    rcases List.mem_cons.mp hc with rfl | hc
    · simp [Grammar.isPathChar, Grammar.isLetter, hfirst]
    · exact hmore c hc
  constructor
  · rintro rfl
    exact absurd hproperty (by decide)
  · rintro rfl
    exact absurd hproperty (by decide)

/-- A property of the query language that is no call has no parenthesis. -/
theorem not_mem_of_isPlain {ref : PropertyRef} (h : ref.IsPlain)
    (hproperty : Grammar.property.accepts ref.chars = true) : '(' ∉ ref.chars := by
  intro hmem
  rw [Pattern.accepts_iff, Grammar.property, Pattern.takes_either] at hproperty
  rcases hproperty with hpath | hcall
  · exact (ne_paren_of_takes_path hpath _ hmem).1 rfl
  · simp only [Grammar.pathCall, Grammar.functionName, Pattern.all, Pattern.takes_seq,
      Pattern.takes_text, Pattern.takes_someOf] at hcall
    obtain ⟨name, _, hchars, ⟨⟨hne, hname⟩, _⟩, _, _, rfl, rfl, argument, _, rfl, hpath, rfl⟩ :=
      hcall
    have hparts : callParts? ref.chars = some (name, argument) := by
      rw [callParts?_eq_some_iff]
      refine ⟨hchars, hne, fun hopen => ?_, fun hclose => ?_⟩
      · exact absurd (hname _ hopen) (by decide)
      · exact (ne_paren_of_takes_path hpath _ hclose).2 rfl
    exact Option.some_ne_none _ (hparts.symm.trans h)

/-! ### Above and under -/

theorem isAbove_eq (ref : PropertyRef) (longer : List Char) :
    ref.isAbove longer = (Text.pieces '.' ref.path).isPrefixOf (Text.pieces '.' longer) := by
  rw [isAbove, Bool.eq_iff_iff, List.isPrefixOf_iff_prefix, List.isPrefixOf_iff_prefix,
    Text.prefix_iff_pieces]

theorem isUnder_eq (ref : PropertyRef) (shorter : List Char) :
    ref.isUnder shorter = (Text.pieces '.' shorter).isPrefixOf (Text.pieces '.' ref.path) := by
  rw [isUnder, Bool.eq_iff_iff, List.isPrefixOf_iff_prefix, List.isPrefixOf_iff_prefix,
    Text.prefix_iff_pieces]

theorem isAbove_iff (ref : PropertyRef) (longer : List Char) :
    ref.isAbove longer = true ↔ Text.pieces '.' ref.path <+: Text.pieces '.' longer := by
  rw [isAbove_eq, List.isPrefixOf_iff_prefix]

theorem isUnder_iff (ref : PropertyRef) (shorter : List Char) :
    ref.isUnder shorter = true ↔ Text.pieces '.' shorter <+: Text.pieces '.' ref.path := by
  rw [isUnder_eq, List.isPrefixOf_iff_prefix]

/-- A plain path is above what lies under it. -/
theorem isUnder_chars (ref : PropertyRef) {shorter : PropertyRef} (h : shorter.IsPlain) :
    ref.isUnder shorter.chars = shorter.isAbove ref.path := by
  rw [isUnder, isAbove, path_of_isPlain h]

section Order

variable {a b c : PropertyRef}

theorem isAbove_refl (ha : a.IsPlain) : a.isAbove a.chars = true := by
  rw [isAbove_iff]
  exact ⟨[], by rw [path_of_isPlain ha, List.append_nil]⟩

theorem isAbove_antisymm (ha : a.IsPlain) (hb : b.IsPlain) (hab : a.isAbove b.chars = true)
    (hba : b.isAbove a.chars = true) : a = b := by
  rw [isAbove_iff, path_of_isPlain ha] at hab
  rw [isAbove_iff, path_of_isPlain hb] at hba
  have hsegments := hab.eq_of_length_le hba.length_le
  exact chars_inj.mp ((Text.pieces_inj '.').mp hsegments)

theorem isAbove_trans (hb : b.IsPlain) (hab : a.isAbove b.chars = true)
    (hbc : b.isAbove c.chars = true) : a.isAbove c.chars = true := by
  rw [isAbove_iff] at hab hbc ⊢
  rw [path_of_isPlain hb] at hbc
  exact hab.trans hbc

end Order

/-! ### Relative paths -/

/-- A path lies under another if it is this path or goes on behind it with a dot. -/
theorem isUnder_iff_path (ref : PropertyRef) (base : List Char) :
    ref.isUnder base = true ↔ ref.path = base ∨ ∃ rest, ref.path = base ++ '.' :: rest := by
  rw [isUnder, List.isPrefixOf_iff_prefix]
  constructor
  · rintro ⟨more, hmore⟩
    rcases List.eq_nil_or_concat more with rfl | ⟨rest, last, rfl⟩
    · left
      rw [List.append_nil] at hmore
      exact (List.append_inj_left' hmore rfl).symm
    · right
      rw [List.concat_eq_append, ← List.append_assoc] at hmore
      refine ⟨rest, ?_⟩
      rw [← List.append_inj_left' hmore rfl, List.append_assoc, List.singleton_append]
  · rintro (hsame | ⟨rest, hrest⟩)
    · exact ⟨[], by rw [hsame, List.append_nil]⟩
    · exact ⟨rest ++ ['.'], by simp [hrest]⟩

theorem relativePath_self (ref : PropertyRef) {base : List Char} (h : ref.path = base) :
    ref.relativePath base = [] := by
  rw [relativePath, if_pos h]

theorem relativePath_append (ref : PropertyRef) {base rest : List Char}
    (h : ref.path = base ++ '.' :: rest) : ref.relativePath base = rest := by
  have hne : ref.path ≠ base := fun hsame => by simp [hsame] at h
  have hafter : Text.afterStart? (base ++ ['.']) ref.path = some rest :=
    (Text.afterStart?_eq_some_iff _ _ _).mpr (by simp [h])
  rw [relativePath, if_neg hne, hafter, Option.getD_some]

theorem relativePath_of_not_isUnder (ref : PropertyRef) {base : List Char}
    (h : ref.isUnder base = false) : ref.relativePath base = ref.path := by
  have hnot : ¬(ref.path = base ∨ ∃ rest, ref.path = base ++ '.' :: rest) := by
    rw [← isUnder_iff_path, h]
    exact Bool.false_ne_true
  rw [not_or, not_exists] at hnot
  have hafter : Text.afterStart? (base ++ ['.']) ref.path = none := by
    rw [Option.eq_none_iff_forall_ne_some]
    intro rest hrest
    rw [Text.afterStart?_eq_some_iff] at hrest
    exact hnot.2 rest (by simpa using hrest)
  rw [relativePath, if_neg hnot.1, hafter, Option.getD_none]

/-- Every character of what is left of a path is one of the path. -/
theorem mem_path_of_mem_relativePath (ref : PropertyRef) (base : List Char) {c : Char}
    (h : c ∈ ref.relativePath base) : c ∈ ref.path := by
  cases hunder : ref.isUnder base with
  | false => rwa [ref.relativePath_of_not_isUnder hunder] at h
  | true =>
      rcases (ref.isUnder_iff_path base).mp hunder with hsame | ⟨rest, hrest⟩
      · rw [ref.relativePath_self hsame] at h
        cases h
      · rw [ref.relativePath_append hrest] at h
        rw [hrest]
        exact List.mem_append_right base (List.mem_cons_of_mem '.' h)

/-- The parts of a call that is made relative, or none where there were none. -/
theorem callParts?_relativeTo (ref : PropertyRef)
    (hproperty : Grammar.property.accepts ref.chars = true) (base : List Char) :
    callParts? (ref.relativeTo base).chars =
      (callParts? ref.chars).map fun parts => (parts.1, ref.relativePath base) := by
  unfold relativeTo
  cases hparts : callParts? ref.chars with
  | none =>
      have hopen : '(' ∉ ref.relativePath base := by
        intro hmem
        have hmem := ref.mem_path_of_mem_relativePath base hmem
        rw [path_of_isPlain hparts] at hmem
        exact not_mem_of_isPlain hparts hproperty hmem
      simpa [chars] using callParts?_eq_none_of_not_mem hopen
  | some parts =>
      obtain ⟨name, argument⟩ := parts
      obtain ⟨_, hname, hopen, hclose⟩ := (callParts?_eq_some_iff _ _ _).mp hparts
      have hpath : ref.path = argument := by rw [path, hparts]
      have hrest : ')' ∉ ref.relativePath base := fun hmem =>
        hclose (hpath ▸ ref.mem_path_of_mem_relativePath base hmem)
      simpa [chars] using (callParts?_eq_some_iff _ _ _).mpr ⟨rfl, hname, hopen, hrest⟩

theorem path_relativeTo (ref : PropertyRef)
    (hproperty : Grammar.property.accepts ref.chars = true) (base : List Char) :
    (ref.relativeTo base).path = ref.relativePath base := by
  rw [path, ref.callParts?_relativeTo hproperty base]
  cases hparts : callParts? ref.chars with
  | none =>
      have hrelative : ref.relativeTo base = ⟨.ofList (ref.relativePath base)⟩ := by
        rw [relativeTo, hparts]
      simp [hrelative, chars]
  | some parts => rfl

theorem relativeTo_of_not_isUnder (ref : PropertyRef) {base : List Char}
    (h : ref.isUnder base = false) : ref.relativeTo base = ref := by
  rw [← chars_inj, relativeTo, ref.relativePath_of_not_isUnder h]
  cases hparts : callParts? ref.chars with
  | none => simp [chars, path_of_isPlain hparts]
  | some parts =>
      obtain ⟨hchars, _⟩ := (callParts?_eq_some_iff _ parts.1 parts.2).mp hparts
      rw [path, hparts, hchars]
      simp [chars]

/-- For a property of the query language and any text, being above or under it is a question
of segments, and a reference that is made relative keeps its function. It is the same where
it does not lie under the text; where it does, its path is the text, with nothing left, or
goes on behind the text and a dot with what is left. Among plain paths, being above is an
order, and being under is its converse. -/
theorem segments_decide (ref : PropertyRef)
    (hproperty : Grammar.property.accepts ref.chars = true) (base : List Char) :
    (ref.isAbove base = true ↔ Text.pieces '.' ref.path <+: Text.pieces '.' base) ∧
      (ref.isUnder base = true ↔ Text.pieces '.' base <+: Text.pieces '.' ref.path) ∧
      (∀ plain : PropertyRef, plain.IsPlain → ref.isUnder plain.chars = plain.isAbove ref.path) ∧
      (∀ a b c : PropertyRef, a.IsPlain → b.IsPlain → c.IsPlain →
        a.isAbove a.chars = true ∧
        (a.isAbove b.chars = true → b.isAbove a.chars = true → a = b) ∧
        (a.isAbove b.chars = true → b.isAbove c.chars = true → a.isAbove c.chars = true)) ∧
      let relative := ref.relativeTo base
      relative.call? = ref.call?.map (fun call => (call.1, .ofList relative.path)) ∧
        (ref.isUnder base = false → relative = ref) ∧
        (ref.isUnder base = true → ref.path = base ∧ relative.path = [] ∨
          ref.path = base ++ '.' :: relative.path) := by
  refine ⟨ref.isAbove_iff base, ref.isUnder_iff base, fun _ => ref.isUnder_chars,
    fun a b c ha hb _ => ⟨isAbove_refl ha, isAbove_antisymm ha hb, isAbove_trans hb⟩, ?_, ?_, ?_⟩
  · rw [call?, call?, ref.callParts?_relativeTo hproperty base, ref.path_relativeTo hproperty base,
      Option.map_map, Option.map_map]
    rfl
  · exact ref.relativeTo_of_not_isUnder
  · intro hunder
    rw [ref.path_relativeTo hproperty base]
    rcases (ref.isUnder_iff_path base).mp hunder with hsame | ⟨rest, hrest⟩
    · exact .inl ⟨hsame, ref.relativePath_self hsame⟩
    · exact .inr (by rw [ref.relativePath_append hrest, hrest])

/-- A call around a path with two segments, of which the first is taken off as a whole. -/
theorem segments_decide_of_call :
    let ref : PropertyRef := ⟨"round(stats.mean)"⟩
    Grammar.property.accepts ref.chars = true ∧
      ref.isUnder "stats".toList = true ∧ ref.isUnder "stat".toList = false ∧
      (ref.relativeTo "stats".toList).call? = some ("round", "mean") ∧
      ref.relativeTo "stat".toList = ref := by
  intro ref
  have hproperty : Grammar.property.accepts ref.chars = true := by decide
  have hunder : ref.isUnder "stats".toList = true := by decide
  have hnot : ref.isUnder "stat".toList = false := by decide
  obtain ⟨_, _, _, _, hcall, _, _⟩ := segments_decide ref hproperty "stats".toList
  obtain ⟨_, _, _, _, _, hsame, _⟩ := segments_decide ref hproperty "stat".toList
  exact ⟨hproperty, hunder, hnot, hcall.trans (by decide), hsame hnot⟩

end PropertyRef

end RecordQuery
