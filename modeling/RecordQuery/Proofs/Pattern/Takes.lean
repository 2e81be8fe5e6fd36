import RecordQuery.Pattern.Basic

/-!
What a pattern takes. A pattern takes a text before a rest when the length of
the text is one of its ends on the two together. The rest belongs to the
judgement, since a run is over only where a character of another class
follows. There is one equation for each constructor, so that no later proof
opens the lists of lengths, and the priority of a match plays no part here.

Most patterns look at the rest only as far as its first character. For a set
of stop characters that no run of the pattern accepts, the rest may be
exchanged for any other that also begins with a stop, or is empty.
-/

namespace RecordQuery.Pattern

/-- The pattern matches the text when the rest comes behind it. -/
def Takes (p : Pattern) (text rest : List Char) : Prop :=
  text.length ∈ p.ends (text ++ rest)

theorem accepts_iff (p : Pattern) (s : List Char) : p.accepts s = true ↔ p.Takes s [] := by
  simp [accepts, Takes]

theorem runLength_eq (accepts : Char → Bool) (s : List Char) :
    runLength accepts s = (s.takeWhile accepts).length := by
  induction s with
  | nil => rfl
  | cons c rest ih =>
      by_cases h : accepts c = true
      · simp [runLength, h, ih]
      · simp [runLength, h]

/-- A run reaches over a text exactly when the text lies in its class. -/
theorem le_runLength_append (accepts : Char → Bool) (text rest : List Char) :
    text.length ≤ runLength accepts (text ++ rest) ↔ ∀ c ∈ text, accepts c = true := by
  induction text with
  | nil => simp
  | cons c text ih =>
      by_cases h : accepts c = true
      · simp [runLength, h, ih]
      · simp [runLength, h]

theorem takes_empty (text rest : List Char) : Takes .empty text rest ↔ text = [] := by
  simp [Takes, ends]

theorem takes_word (chars text rest : List Char) :
    Takes (.word chars) text rest ↔ text = chars := by
  constructor
  · intro h
    simp only [Takes, ends] at h
    split at h
    · next hpre =>
      have hlen : text.length = chars.length := by simpa using h
      have hchars : chars <+: text ++ rest := List.isPrefixOf_iff_prefix.mp hpre
      have htext : text <+: text ++ rest := List.prefix_append text rest
      exact (List.prefix_of_prefix_length_le htext hchars
        (Nat.le_of_eq hlen)).eq_of_length hlen
    · simp at h
  · rintro rfl
    simp [Takes, ends]

theorem takes_text (t : String) (text rest : List Char) :
    Takes (Pattern.text t) text rest ↔ text = t.toList :=
  takes_word t.toList text rest

theorem takes_one (accepts : Char → Bool) (text rest : List Char) :
    Takes (.one accepts) text rest ↔ ∃ c, text = [c] ∧ accepts c = true := by
  constructor
  · intro h
    cases text with
    | nil => cases rest <;> simp [Takes, ends] at h
    | cons c text =>
        by_cases hc : accepts c = true
        · have hnil : text = [] := by simpa [Takes, ends, hc] using h
          exact ⟨c, by simp [hnil], hc⟩
        · simp [Takes, ends, hc] at h
  · rintro ⟨c, rfl, hc⟩
    simp [Takes, ends, hc]

theorem takes_run (accepts : Char → Bool) (text rest : List Char) :
    Takes (.run accepts) text rest ↔
      (∀ c ∈ text, accepts c = true) ∧ ∀ c ∈ rest.head?, accepts c = false := by
  induction text with
  | nil =>
      cases rest with
      | nil => simp [Takes, ends, runLength]
      | cons c rest => by_cases h : accepts c = true <;> simp [Takes, ends, runLength, h]
  | cons c text ih =>
      simp only [Takes, ends, List.mem_singleton] at ih
      by_cases h : accepts c = true <;> simp [Takes, ends, runLength, h, ih]

theorem takes_longRun (accepts : Char → Bool) (text rest : List Char) :
    Takes (.longRun accepts) text rest ↔ ∀ c ∈ text, accepts c = true := by
  rw [← le_runLength_append accepts text rest, Takes, ends, List.mem_reverse, List.mem_range]
  exact Nat.lt_succ_iff

theorem takes_shortRun (accepts : Char → Bool) (text rest : List Char) :
    Takes (.shortRun accepts) text rest ↔ text ≠ [] ∧ ∀ c ∈ text, accepts c = true := by
  simp only [← le_runLength_append accepts text rest, ← List.length_pos_iff, Takes, ends,
    List.mem_map, List.mem_range]
  constructor
  · rintro ⟨n, hn, hlen⟩
    omega
  · rintro ⟨hpos, hle⟩
    exact ⟨text.length - 1, by omega, by omega⟩

theorem takes_measured (length? : List Char → Option Nat) (text rest : List Char) :
    Takes (.measured length?) text rest ↔ length? (text ++ rest) = some text.length := by
  simp [Takes, ends]

theorem takes_seq (first second : Pattern) (text rest : List Char) :
    Takes (.seq first second) text rest ↔
      ∃ u v, text = u ++ v ∧ first.Takes u (v ++ rest) ∧ second.Takes v rest := by
  constructor
  · intro h
    simp only [Takes, mem_ends_seq] at h
    obtain ⟨n, hn, m, hm, hsum⟩ := h
    have hle : n ≤ text.length := by omega
    refine ⟨text.take n, text.drop n, (List.take_append_drop n text).symm, ?_, ?_⟩
    · simpa [Takes, ← List.append_assoc, Nat.min_eq_left hle] using hn
    · have hm' : m ∈ second.ends (text.drop n ++ rest) := by
        simpa [List.drop_append, Nat.sub_eq_zero_of_le hle] using hm
      have hlen : (text.drop n).length = m := by simp; omega
      simpa only [Takes, hlen] using hm'
  · rintro ⟨u, v, rfl, hu, hv⟩
    simp only [Takes, mem_ends_seq]
    refine ⟨u.length, by simpa [Takes] using hu, v.length, ?_, by simp⟩
    simpa [Takes] using hv

theorem takes_either (first second : Pattern) (text rest : List Char) :
    Takes (.either first second) text rest ↔ first.Takes text rest ∨ second.Takes text rest :=
  mem_ends_either first second (text ++ rest) text.length

theorem takes_optional (p : Pattern) (text rest : List Char) :
    Takes (.optional p) text rest ↔ p.Takes text rest ∨ text = [] := by
  rw [Pattern.optional, takes_either, takes_empty]

theorem takes_someOf (accepts : Char → Bool) (text rest : List Char) :
    (someOf accepts).Takes text rest ↔
      (text ≠ [] ∧ ∀ c ∈ text, accepts c = true) ∧ ∀ c ∈ rest.head?, accepts c = false := by
  simp only [someOf, takes_seq, takes_one, takes_run]
  constructor
  · rintro ⟨_, more, rfl, ⟨c, rfl, hc⟩, hmore, hrest⟩
    exact ⟨⟨by simp, List.forall_mem_cons.mpr ⟨hc, hmore⟩⟩, hrest⟩
  · rintro ⟨⟨hne, htext⟩, hrest⟩
    obtain ⟨c, more, rfl⟩ := List.exists_cons_of_ne_nil hne
    obtain ⟨hc, hmore⟩ := List.forall_mem_cons.mp htext
    exact ⟨[c], more, rfl, ⟨c, rfl, hc⟩, hmore, hrest⟩

/-! Repetition. The bound on the rounds is no restriction: every round consumes
a character, so a length is reached in at most as many rounds. -/

theorem mem_rounds_succ (step : List Char → List Nat) (bound n : Nat) (s : List Char) :
    n ∈ rounds step (bound + 1) s ↔
      n = 0 ∨ ∃ m k, m ∈ step s ∧ 0 < m ∧ k ∈ rounds step bound (s.drop m) ∧ n = m + k := by
  simp only [rounds, List.mem_append, List.mem_flatMap, List.mem_filter, List.mem_map,
    decide_eq_true_eq, List.mem_singleton]
  constructor
  · rintro (⟨m, ⟨hm, hpos⟩, k, hk, rfl⟩ | rfl)
    · exact .inr ⟨m, k, hm, hpos, hk, rfl⟩
    · exact .inl rfl
  · rintro (rfl | ⟨m, k, hm, hpos, hk, rfl⟩)
    · exact .inr rfl
    · exact .inl ⟨m, ⟨hm, hpos⟩, k, hk, rfl⟩

theorem mem_rounds_of_le (step : List Char → List Nat) (bound bound' n : Nat) (s : List Char)
    (h : n ∈ rounds step bound s) (hle : n ≤ bound') : n ∈ rounds step bound' s := by
  induction bound' generalizing bound n s with
  | zero =>
      obtain rfl : n = 0 := by omega
      simp [rounds]
  | succ bound' ih =>
      rw [mem_rounds_succ]
      cases bound with
      | zero => exact .inl (by simpa [rounds] using h)
      | succ bound =>
          rcases (mem_rounds_succ step bound n s).mp h with rfl | ⟨m, k, hm, hpos, hk, rfl⟩
          · exact .inl rfl
          · exact .inr ⟨m, k, hm, hpos, ih bound k _ hk (by omega), rfl⟩

theorem takes_many (p : Pattern) (text rest : List Char) :
    Takes (.many p) text rest ↔
      text = [] ∨ ∃ u v, text = u ++ v ∧ u ≠ [] ∧ p.Takes u (v ++ rest) ∧
        Takes (.many p) v rest := by
  constructor
  · intro h
    simp only [Takes, mem_ends_many] at h
    cases hlen : (text ++ rest).length with
    | zero =>
        have : text ++ rest = [] := List.length_eq_zero_iff.mp hlen
        exact .inl (List.append_eq_nil_iff.mp this).1
    | succ bound =>
        rw [hlen, mem_rounds_succ] at h
        rcases h with hzero | ⟨m, k, hm, hpos, hk, hsum⟩
        · exact .inl (List.length_eq_zero_iff.mp hzero)
        · have hle : m ≤ text.length := by omega
          refine .inr ⟨text.take m, text.drop m, (List.take_append_drop m text).symm, ?_, ?_, ?_⟩
          · intro hnil
            have := congrArg List.length hnil
            simp only [List.length_take, List.length_nil] at this
            omega
          · simpa [Takes, ← List.append_assoc, Nat.min_eq_left hle] using hm
          · have hk' : k ∈ rounds p.ends bound (text.drop m ++ rest) := by
              simpa [List.drop_append, Nat.sub_eq_zero_of_le hle] using hk
            have hv : (text.drop m).length = k := by simp; omega
            simp only [Takes, mem_ends_many, hv]
            exact mem_rounds_of_le _ _ _ _ _ hk' (by simp; omega)
  · rintro (rfl | ⟨u, v, rfl, hne, hu, hv⟩)
    · simp only [Takes, mem_ends_many, List.length_nil]
      cases rest <;> simp [rounds]
    · have hpos : 0 < u.length := List.length_pos_iff.mpr hne
      simp only [Takes, mem_ends_many] at hv ⊢
      obtain ⟨bound, hbound⟩ : ∃ bound, (u ++ v ++ rest).length = bound + 1 :=
        ⟨(u ++ v ++ rest).length - 1, by simp; omega⟩
      rw [hbound, mem_rounds_succ]
      simp only [List.length_append] at hbound
      refine .inr ⟨u.length, v.length, by simpa [Takes] using hu, hpos, ?_, by simp⟩
      have hv' : v.length ∈ rounds p.ends (v ++ rest).length ((u ++ v ++ rest).drop u.length) := by
        simpa using hv
      exact mem_rounds_of_le _ _ _ _ _ hv' (by omega)

/-! Bounds. -/

/-- No measure in the pattern tells of more characters than there are. -/
def Bounded : Pattern → Prop
  | .measured length? => ∀ s n, length? s = some n → n ≤ s.length
  | .seq first second | .either first second => first.Bounded ∧ second.Bounded
  | .many body => body.Bounded
  | _ => True

theorem runLength_le (accepts : Char → Bool) (s : List Char) : runLength accepts s ≤ s.length := by
  rw [runLength_eq]
  exact (List.takeWhile_sublist accepts).length_le

theorem rounds_le (step : List Char → List Nat) (hstep : ∀ s, ∀ n ∈ step s, n ≤ s.length)
    (bound : Nat) (s : List Char) : ∀ n ∈ rounds step bound s, n ≤ s.length := by
  induction bound generalizing s with
  | zero => simp [rounds]
  | succ bound ih =>
      intro n hn
      rcases (mem_rounds_succ step bound n s).mp hn with rfl | ⟨m, k, hm, _, hk, rfl⟩
      · omega
      · have hm' := hstep s m hm
        have hk' := ih (s.drop m) k hk
        rw [List.length_drop] at hk'
        omega

theorem ends_le (p : Pattern) (hp : p.Bounded) (s : List Char) : ∀ n ∈ p.ends s, n ≤ s.length := by
  induction p generalizing s with
  | empty => simp [ends]
  | word chars =>
      intro n hn
      simp only [ends] at hn
      split at hn
      · next h =>
        rw [List.mem_singleton] at hn
        subst hn
        exact (List.isPrefixOf_iff_prefix.mp h).length_le
      · simp at hn
  | one accepts =>
      cases s with
      | nil => simp [ends]
      | cons c s => by_cases h : accepts c = true <;> simp [ends, h]
  | run accepts => simpa [ends] using runLength_le accepts s
  | longRun accepts =>
      have := runLength_le accepts s
      simp only [ends, List.mem_reverse, List.mem_range]
      intro n hn
      omega
  | shortRun accepts =>
      have := runLength_le accepts s
      simp only [ends, List.mem_map, List.mem_range]
      rintro n ⟨m, hm, rfl⟩
      omega
  | measured length? =>
      intro n hn
      exact hp s n (by simpa [ends] using hn)
  | seq first second ih₁ ih₂ =>
      intro n hn
      obtain ⟨m, hm, k, hk, rfl⟩ := (mem_ends_seq _ _ _ _).mp hn
      have hm' := ih₁ hp.1 s m hm
      have hk' := ih₂ hp.2 (s.drop m) k hk
      rw [List.length_drop] at hk'
      omega
  | either first second ih₁ ih₂ =>
      intro n hn
      rcases (mem_ends_either _ _ _ _).mp hn with hn | hn
      · exact ih₁ hp.1 s n hn
      · exact ih₂ hp.2 s n hn
  | many body ih =>
      intro n hn
      exact rounds_le body.ends (ih hp) s.length s n ((mem_ends_many _ _ _).mp hn)

/-- Every end of a bounded pattern splits the text into what is taken and a rest. -/
theorem takes_of_mem_ends (p : Pattern) (hp : p.Bounded) (s : List Char) (n : Nat)
    (h : n ∈ p.ends s) : p.Takes (s.take n) (s.drop n) := by
  have hle := ends_le p hp s n h
  simpa [Takes, Nat.min_eq_left hle] using h

/-! What is taken, piece by piece. -/

/-- The property holds of everything that a word, a class or a measure of the
pattern takes. -/
def Each (holds : List Char → Prop) : Pattern → Prop
  | .empty => True
  | .word chars => holds chars
  | .one accepts | .run accepts | .longRun accepts | .shortRun accepts =>
    ∀ c, accepts c = true → holds [c]
  | .measured length? => ∀ s n, length? s = some n → holds (s.take n)
  | .seq first second | .either first second => first.Each holds ∧ second.Each holds
  | .many body => body.Each holds

/-- What is decided of every character of a word holds of every one. -/
theorem forall_mem_of_all (P : Char → Prop) [DecidablePred P] (s : List Char)
    (h : s.all (fun c => decide (P c)) = true) : ∀ c ∈ s, P c := by
  simpa using h

theorem holds_of_forall (holds : List Char → Prop) (hnil : holds [])
    (happend : ∀ s t, holds s → holds t → holds (s ++ t)) (accepts : Char → Bool)
    (heach : ∀ c, accepts c = true → holds [c]) (s : List Char)
    (hs : ∀ c ∈ s, accepts c = true) : holds s := by
  induction s with
  | nil => exact hnil
  | cons c s ih =>
      exact happend [c] s (heach c (hs c (by simp))) (ih fun d hd => hs d (by simp [hd]))

/-- A property that goes over from two texts to the two joined holds of what a
pattern takes if it holds of the pieces. -/
theorem holds_of_takes (holds : List Char → Prop) (hnil : holds [])
    (happend : ∀ s t, holds s → holds t → holds (s ++ t)) (p : Pattern) (hp : p.Each holds)
    (text rest : List Char) (h : p.Takes text rest) : holds text := by
  induction p generalizing text rest with
  | empty =>
      rw [takes_empty] at h
      rwa [h]
  | word chars =>
      rw [takes_word] at h
      rwa [h]
  | one accepts =>
      obtain ⟨c, rfl, hc⟩ := (takes_one accepts text rest).mp h
      exact hp c hc
  | run accepts =>
      rw [takes_run] at h
      exact holds_of_forall holds hnil happend accepts hp text h.1
  | longRun accepts =>
      rw [takes_longRun] at h
      exact holds_of_forall holds hnil happend accepts hp text h
  | shortRun accepts =>
      rw [takes_shortRun] at h
      exact holds_of_forall holds hnil happend accepts hp text h.2
  | measured length? =>
      rw [takes_measured] at h
      simpa using hp _ _ h
  | seq first second ih₁ ih₂ =>
      obtain ⟨u, v, rfl, hu, hv⟩ := (takes_seq first second text rest).mp h
      exact happend u v (ih₁ hp.1 u _ hu) (ih₂ hp.2 v _ hv)
  | either first second ih₁ ih₂ =>
      rcases (takes_either first second text rest).mp h with h | h
      · exact ih₁ hp.1 text rest h
      · exact ih₂ hp.2 text rest h
  | many body ih =>
      induction hlen : text.length using Nat.strongRecOn generalizing text with
      | ind n ihn =>
          rcases (takes_many body text rest).mp h with rfl | ⟨u, v, rfl, hne, hu, hv⟩
          · exact hnil
          · have hpos : 0 < u.length := List.length_pos_iff.mpr hne
            exact happend u v (ih hp u _ hu) (ihn v.length (by simp at hlen; omega) v hv rfl)

/-- What holds of every character of the pieces holds of every character of the text. -/
theorem forall_of_takes (P : Char → Prop) (p : Pattern) (hp : p.Each fun s => ∀ c ∈ s, P c)
    (text rest : List Char) (h : p.Takes text rest) : ∀ c ∈ text, P c := by
  refine holds_of_takes (fun s => ∀ c ∈ s, P c) (by simp) ?_ p hp text rest h
  intro s t hs ht c hc
  exact (List.mem_append.mp hc).elim (hs c) (ht c)

/-- The pattern takes no empty text. -/
def Filled : Pattern → Prop
  | .word chars => chars ≠ []
  | .one _ | .shortRun _ => True
  | .measured length? => ∀ s, length? s ≠ some 0
  | .seq first second => first.Filled ∨ second.Filled
  | .either first second => first.Filled ∧ second.Filled
  | _ => False

theorem ne_nil_of_takes (p : Pattern) (hp : p.Filled) (text rest : List Char)
    (h : p.Takes text rest) : text ≠ [] := by
  induction p generalizing text rest with
  | empty => exact hp.elim
  | word chars =>
      rw [takes_word] at h
      rwa [h]
  | one accepts =>
      obtain ⟨c, rfl, _⟩ := (takes_one accepts text rest).mp h
      simp
  | run accepts => exact hp.elim
  | longRun accepts => exact hp.elim
  | shortRun accepts => exact ((takes_shortRun accepts text rest).mp h).1
  | measured length? =>
      rintro rfl
      exact hp rest ((takes_measured length? [] rest).mp h)
  | seq first second ih₁ ih₂ =>
      obtain ⟨u, v, rfl, hu, hv⟩ := (takes_seq first second text rest).mp h
      rcases hp with hp | hp
      · exact List.append_ne_nil_of_left_ne_nil (ih₁ hp u _ hu) v
      · exact List.append_ne_nil_of_right_ne_nil u (ih₂ hp v _ hv)
  | either first second ih₁ ih₂ =>
      rcases (takes_either first second text rest).mp h with h | h
      · exact ih₁ hp.1 text rest h
      · exact ih₂ hp.2 text rest h
  | many body => exact hp.elim

/-! Exchanging the rest. -/

/-- The text is empty or begins with a stop character. -/
def StopsAt (stop : Char → Bool) (rest : List Char) : Prop :=
  ∀ c ∈ rest.head?, stop c = true

/-- Two rests that a pattern need not tell apart: they begin alike, or both are
empty or begin with a stop. -/
def Alike (stop : Char → Bool) (rest rest' : List Char) : Prop :=
  rest.head? = rest'.head? ∨ (StopsAt stop rest ∧ StopsAt stop rest')

theorem Alike.append {stop : Char → Bool} {rest rest' : List Char} (h : Alike stop rest rest')
    (text : List Char) : Alike stop (text ++ rest) (text ++ rest') := by
  cases text with
  | nil => exact h
  | cons c text => exact .inl rfl

/-- No run of the pattern goes on over a stop character, and its measures do not
see more than that there is one. -/
def EndsBefore (stop : Char → Bool) : Pattern → Prop
  | .run accepts => ∀ c, stop c = true → accepts c = false
  | .measured length? => ∀ text rest rest', Alike stop rest rest' →
      length? (text ++ rest) = some text.length → length? (text ++ rest') = some text.length
  | .seq first second | .either first second => first.EndsBefore stop ∧ second.EndsBefore stop
  | .many body => body.EndsBefore stop
  | _ => True

theorem takes_of_alike (stop : Char → Bool) (p : Pattern) (hp : p.EndsBefore stop)
    (text rest rest' : List Char) (halike : Alike stop rest rest') (h : p.Takes text rest) :
    p.Takes text rest' := by
  induction p generalizing text rest rest' with
  | empty => simpa [takes_empty] using h
  | word chars => simpa [takes_word] using h
  | one accepts => simpa [takes_one] using h
  | run accepts =>
      rw [takes_run] at h ⊢
      refine ⟨h.1, ?_⟩
      intro c hc
      rcases halike with hhead | ⟨_, hstop⟩
      · exact h.2 c (by rw [hhead]; exact hc)
      · exact hp c (hstop c hc)
  | longRun accepts => simpa [takes_longRun] using h
  | shortRun accepts => simpa [takes_shortRun] using h
  | measured length? =>
      rw [takes_measured] at h ⊢
      exact hp text rest rest' halike h
  | seq first second ih₁ ih₂ =>
      rw [takes_seq] at h ⊢
      obtain ⟨u, v, rfl, hu, hv⟩ := h
      exact ⟨u, v, rfl, ih₁ hp.1 u _ _ (halike.append v) hu, ih₂ hp.2 v _ _ halike hv⟩
  | either first second ih₁ ih₂ =>
      rw [takes_either] at h ⊢
      exact h.imp (ih₁ hp.1 text _ _ halike) (ih₂ hp.2 text _ _ halike)
  | many body ih =>
      induction hlen : text.length using Nat.strongRecOn generalizing text with
      | ind n ihn =>
          rw [takes_many] at h ⊢
          rcases h with rfl | ⟨u, v, rfl, hne, hu, hv⟩
          · exact .inl rfl
          · have hpos : 0 < u.length := List.length_pos_iff.mpr hne
            refine .inr ⟨u, v, rfl, hne, ih hp u _ _ (halike.append v) hu, ?_⟩
            exact ihn v.length (by simp at hlen; omega) v hv rfl

/-- Before a stop a pattern takes exactly the texts that it accepts on their own. -/
theorem takes_iff_accepts (stop : Char → Bool) (p : Pattern) (hp : p.EndsBefore stop)
    (text rest : List Char) (hrest : StopsAt stop rest) :
    p.Takes text rest ↔ p.accepts text = true := by
  have hnil : StopsAt stop [] := by simp [StopsAt]
  rw [accepts_iff]
  exact ⟨takes_of_alike stop p hp text rest [] (.inr ⟨hrest, hnil⟩),
    takes_of_alike stop p hp text [] rest (.inr ⟨hnil, hrest⟩)⟩

/-! Fixed widths. -/

/-- The length of what the pattern takes, if it is the same for everything. -/
def width? : Pattern → Option Nat
  | .empty => some 0
  | .word chars => some chars.length
  | .one _ => some 1
  | .seq first second =>
    match first.width?, second.width? with
    | some n, some m => some (n + m)
    | _, _ => none
  | _ => none

theorem length_of_takes (p : Pattern) (n : Nat) (hp : p.width? = some n) (text rest : List Char)
    (h : p.Takes text rest) : text.length = n := by
  induction p generalizing n text rest with
  | empty =>
      rw [takes_empty] at h
      simpa [h, width?] using hp
  | word chars =>
      rw [takes_word] at h
      simpa [h, width?] using hp
  | one accepts =>
      obtain ⟨c, rfl, _⟩ := (takes_one accepts text rest).mp h
      simpa [width?] using hp
  | seq first second ih₁ ih₂ =>
      obtain ⟨u, v, rfl, hu, hv⟩ := (takes_seq first second text rest).mp h
      simp only [width?] at hp
      split at hp
      · next n₁ n₂ h₁ h₂ =>
        have hlen₁ := ih₁ n₁ h₁ u _ hu
        have hlen₂ := ih₂ n₂ h₂ v _ hv
        obtain rfl := Option.some.inj hp
        simp [hlen₁, hlen₂]
      · simp at hp
  | run accepts => simp [width?] at hp
  | longRun accepts => simp [width?] at hp
  | shortRun accepts => simp [width?] at hp
  | measured length? => simp [width?] at hp
  | either first second => simp [width?] at hp
  | many body => simp [width?] at hp

/-! The order of the ends. -/

/-- The ends of the pattern go up, so that a shorter one is preferred. -/
def Ascending (p : Pattern) : Prop :=
  ∀ s, (p.ends s).Pairwise (· < ·)

theorem eraseDups_sublist (l : List Nat) : l.eraseDups.Sublist l := by
  induction hlen : l.length using Nat.strongRecOn generalizing l with
  | ind n ih =>
      cases l with
      | nil => simp
      | cons a l =>
          rw [List.eraseDups_cons]
          have hfilter := List.filter_sublist (p := fun b => !b == a) (l := l)
          have hle := hfilter.length_le
          refine ((ih _ ?_ _ rfl).trans hfilter).cons_cons a
          simp only [List.length_cons] at hlen
          omega

theorem ascending_of_length_le_one (p : Pattern) (h : ∀ s, (p.ends s).length ≤ 1) :
    p.Ascending := by
  intro s
  rcases h' : p.ends s with _ | ⟨n, _ | ⟨m, more⟩⟩
  · simp
  · simp
  · simpa [h'] using h s

theorem length_ends_word_le (chars s : List Char) : ((Pattern.word chars).ends s).length ≤ 1 := by
  simp only [ends]
  split <;> simp

theorem ascending_shortRun (accepts : Char → Bool) : (Pattern.shortRun accepts).Ascending := by
  intro s
  simp [ends, List.pairwise_map, List.pairwise_lt_range]

/-- A pattern with one end leaves the order to the pattern behind it. -/
theorem ascending_seq_of_length_le_one (first second : Pattern)
    (hfirst : ∀ s, (first.ends s).length ≤ 1) (hsecond : second.Ascending) :
    (Pattern.seq first second).Ascending := by
  intro s
  refine List.Pairwise.sublist (eraseDups_sublist _) ?_
  rcases hends : first.ends s with _ | ⟨n, _ | ⟨m, more⟩⟩
  · simp
  · have hmore := hsecond (s.drop n)
    simpa [List.pairwise_map] using hmore
  · simpa [hends] using hfirst s

/-- A word moves every end by the same length. -/
theorem ascending_seq_word (first : Pattern) (chars : List Char) (hfirst : first.Ascending) :
    (Pattern.seq first (.word chars)).Ascending := by
  intro s
  refine List.Pairwise.sublist (eraseDups_sublist _) ?_
  have hword : ∀ n, ∀ k ∈ ((Pattern.word chars).ends (s.drop n)).map (n + ·),
      k = n + chars.length := by
    intro n k hk
    simp only [ends, List.mem_map] at hk
    obtain ⟨m, hm, rfl⟩ := hk
    split at hm
    · rw [List.mem_singleton.mp hm]
    · simp at hm
  rw [List.pairwise_flatMap]
  refine ⟨fun n _ => ?_, (hfirst s).imp ?_⟩
  · have := ascending_of_length_le_one _ (length_ends_word_le chars) (s.drop n)
    simpa [List.pairwise_map] using this
  · intro n m hlt k hk j hj
    rw [hword n k hk, hword m j hj]
    omega

end RecordQuery.Pattern
