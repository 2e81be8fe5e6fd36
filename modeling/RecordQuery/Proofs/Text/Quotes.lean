import RecordQuery.Text.Quoted

/-!
Inside and outside quotes. Reading a text from the left, every quote turns the
inside out, so a quote that is written twice changes nothing in the end. What
stands outside quotes is the skeleton of a text; a sealed text is closed and
has a skeleton of few characters, and the first character outside quotes that
is none of these tells where it ends.
-/

namespace RecordQuery.Text

/-- Whether a text ends inside quotes, if it begins inside or outside of them. -/
def endsInside : Bool → List Char → Bool
  | inside, [] => inside
  | inside, c :: rest => endsInside (if c = '\'' then !inside else inside) rest

/-- The characters that stand outside quotes, the quotes left out. -/
def skeleton : Bool → List Char → List Char
  | _, [] => []
  | inside, c :: rest =>
    if c = '\'' then skeleton (!inside) rest
    else if inside then skeleton inside rest
    else c :: skeleton inside rest

theorem endsInside_append (inside : Bool) (s t : List Char) :
    endsInside inside (s ++ t) = endsInside (endsInside inside s) t := by
  induction s generalizing inside with
  | nil => rfl
  | cons c s ih => simp only [List.cons_append, endsInside, ih]

theorem skeleton_append (inside : Bool) (s t : List Char) :
    skeleton inside (s ++ t) = skeleton inside s ++ skeleton (endsInside inside s) t := by
  induction s generalizing inside with
  | nil => rfl
  | cons c s ih =>
      simp only [List.cons_append, skeleton, endsInside]
      split
      · exact ih _
      · split
        · exact ih _
        · rw [ih, List.cons_append]

/-- What stands outside quotes behind a character stands there in the whole text. -/
theorem mem_skeleton_cons (inside : Bool) (c : Char) (s : List Char) {d : Char}
    (h : d ∈ skeleton (if c = '\'' then !inside else inside) s) : d ∈ skeleton inside (c :: s) := by
  rw [skeleton]
  split
  · next hc => simpa [hc] using h
  · next hc =>
    rw [if_neg hc] at h
    cases inside with
    | false => exact List.mem_cons_of_mem c h
    | true => exact h

theorem endsInside_of_forall_ne (inside : Bool) (s : List Char) (h : ∀ c ∈ s, c ≠ '\'') :
    endsInside inside s = inside := by
  induction s with
  | nil => rfl
  | cons c s ih =>
      rw [endsInside, if_neg (h c (by simp))]
      exact ih fun d hd => h d (by simp [hd])

theorem skeleton_of_forall_ne (s : List Char) (h : ∀ c ∈ s, c ≠ '\'') :
    skeleton false s = s := by
  induction s with
  | nil => rfl
  | cons c s ih =>
      rw [skeleton, if_neg (h c (by simp))]
      simp [ih fun d hd => h d (by simp [hd])]

theorem endsInside_not (inside : Bool) (s : List Char) :
    endsInside (!inside) s = !endsInside inside s := by
  induction s generalizing inside with
  | nil => rfl
  | cons c s ih =>
      rw [endsInside, endsInside]
      split <;> exact ih _

/-! Texts written between quotes. -/

theorem doubleQuotes_eq_flatMap (s : List Char) :
    doubleQuotes s = s.flatMap fun c => if c = '\'' then ['\'', '\''] else [c] := by
  induction s with
  | nil => rfl
  | cons c s ih => by_cases h : c = '\'' <;> simp [doubleQuotes, h, ih]

theorem endsInside_doubleQuotes (inside : Bool) (s : List Char) :
    endsInside inside (doubleQuotes s) = inside := by
  induction s generalizing inside with
  | nil => rfl
  | cons c s ih =>
      by_cases h : c = '\''
      · simp [doubleQuotes, h, endsInside, ih]
      · simp [doubleQuotes, h, endsInside, ih]

theorem skeleton_doubleQuotes (s : List Char) : skeleton true (doubleQuotes s) = [] := by
  induction s with
  | nil => rfl
  | cons c s ih =>
      by_cases h : c = '\''
      · simp [doubleQuotes, h, skeleton, ih]
      · simp [doubleQuotes, h, skeleton, ih]

theorem endsInside_quote (inside : Bool) (s : List Char) :
    endsInside inside (quote s) = inside := by
  simp [quote, endsInside, endsInside_append, endsInside_doubleQuotes]

theorem skeleton_quote (s : List Char) : skeleton false (quote s) = [] := by
  simp [quote, skeleton, skeleton_append, skeleton_doubleQuotes]

/-- Before anything but a quote, the closing quote is the first that is not one of a pair. -/
theorem closingLength?_doubleQuotes (s rest : List Char) (h : rest.head? ≠ some '\'') :
    closingLength? (doubleQuotes s ++ '\'' :: rest) = some ((doubleQuotes s).length + 1) := by
  induction s with
  | nil =>
      cases rest with
      | nil => rfl
      | cons d rest =>
          have hd : d ≠ '\'' := by simpa using h
          change closingLength? ('\'' :: d :: rest) = some 1
          rw [closingLength?]
          rintro rest' ⟨⟩
          exact hd rfl
  | cons c s ih =>
      by_cases hc : c = '\''
      · simp [doubleQuotes, hc, closingLength?, ih]
      · simp [doubleQuotes, hc, closingLength?, ih]

theorem closingLength?_eq_some (s : List Char) (n : Nat) (h : closingLength? s = some n) :
    ∃ v rest, s = doubleQuotes v ++ '\'' :: rest ∧ n = (doubleQuotes v).length + 1 ∧
      rest.head? ≠ some '\'' := by
  fun_induction closingLength? s generalizing n with
  | case1 rest ih =>
      obtain ⟨m, hm, rfl⟩ := Option.map_eq_some_iff.mp h
      obtain ⟨v, rest', rfl, rfl, hhead⟩ := ih m hm
      exact ⟨'\'' :: v, rest', by simp [doubleQuotes], by simp [doubleQuotes], hhead⟩
  | case2 rest hrest =>
      obtain rfl : 1 = n := by simpa using h
      refine ⟨[], rest, rfl, rfl, ?_⟩
      intro hhead
      cases rest with
      | nil => simp at hhead
      | cons d rest =>
          obtain rfl : d = '\'' := by simpa using hhead
          exact hrest rest rfl
  | case3 c rest hne hne' ih =>
      obtain ⟨m, hm, rfl⟩ := Option.map_eq_some_iff.mp h
      obtain ⟨v, rest', rfl, rfl, hhead⟩ := ih m hm
      have hc : c ≠ '\'' := by
        rintro rfl
        exact hne' rfl
      exact ⟨c :: v, rest', by simp [doubleQuotes, hc], by simp [doubleQuotes, hc], hhead⟩
  | case4 => simp at h

/-- A text begins with a quoted text of some length exactly if it begins with the
writing of a text of that length, and no quote follows. -/
theorem quotedLength?_eq_some_iff (s : List Char) (n : Nat) :
    quotedLength? s = some n ↔
      ∃ v rest, s = quote v ++ rest ∧ n = (quote v).length ∧ rest.head? ≠ some '\'' := by
  constructor
  · intro h
    unfold quotedLength? at h
    split at h
    · next tail =>
      obtain ⟨m, hm, rfl⟩ := Option.map_eq_some_iff.mp h
      obtain ⟨v, rest, rfl, rfl, hhead⟩ := closingLength?_eq_some tail m hm
      exact ⟨v, rest, by simp [quote], by simp [quote], hhead⟩
    · simp at h
  · rintro ⟨v, rest, rfl, rfl, hhead⟩
    have := closingLength?_doubleQuotes v rest hhead
    simp [quote, quotedLength?, this]

/-- A token that is written between quotes is the writing of what it stands for. -/
theorem quotedLength?_self_iff (token : List Char) :
    quotedLength? token = some token.length ↔ ∃ v, token = quote v := by
  rw [quotedLength?_eq_some_iff]
  constructor
  · rintro ⟨v, rest, htoken, hlen, _⟩
    refine ⟨v, ?_⟩
    have hrest : rest.length = 0 := by
      have := congrArg List.length htoken
      simp only [List.length_append] at this
      omega
    rw [htoken, List.length_eq_zero_iff.mp hrest, List.append_nil]
  · rintro ⟨v, rfl⟩
    exact ⟨v, [], by simp, rfl, by simp⟩

theorem length_le_doubleQuotes (s : List Char) : s.length ≤ (doubleQuotes s).length := by
  induction s with
  | nil => simp [doubleQuotes]
  | cons c s ih =>
      rw [doubleQuotes]
      split <;> simp only [List.length_cons] <;> omega

theorem length_lt_quote (s : List Char) : s.length < (quote s).length := by
  have := length_le_doubleQuotes s
  simp only [quote, List.length_cons, List.length_append, List.length_nil]
  omega

theorem quote_inj (v w : List Char) (h : quote v = quote w) : v = w := by
  rw [← unquote_quote v, h, unquote_quote]

/-- Two quoted texts that are not followed by a quote are the same if what they begin is. -/
theorem quote_append_inj (v w rest rest' : List Char) (hrest : rest.head? ≠ some '\'')
    (hrest' : rest'.head? ≠ some '\'') (h : quote v ++ rest = quote w ++ rest') :
    v = w ∧ rest = rest' := by
  have hv := (quotedLength?_eq_some_iff (quote v ++ rest) _).mpr ⟨v, rest, rfl, rfl, hrest⟩
  have hw := (quotedLength?_eq_some_iff (quote w ++ rest') _).mpr ⟨w, rest', rfl, rfl, hrest'⟩
  rw [h, hw, Option.some.injEq] at hv
  obtain ⟨hquote, hsame⟩ := List.append_inj h hv.symm
  exact ⟨quote_inj v w hquote, hsame⟩

/-! Sealed texts. -/

/-- The text closes its quotes, and outside of them it has characters of a class only. -/
structure Sealed (accepts : Char → Bool) (s : List Char) : Prop where
  closed : endsInside false s = false
  skeleton_mem : ∀ c ∈ skeleton false s, accepts c = true

theorem Sealed.append {accepts : Char → Bool} {s t : List Char} (hs : Sealed accepts s)
    (ht : Sealed accepts t) : Sealed accepts (s ++ t) := by
  constructor
  · rw [endsInside_append, hs.closed, ht.closed]
  · intro c hc
    rw [skeleton_append, hs.closed, List.mem_append] at hc
    exact hc.elim (hs.skeleton_mem c) (ht.skeleton_mem c)

theorem Sealed.of_forall {accepts : Char → Bool} {s : List Char}
    (h : ∀ c ∈ s, accepts c = true ∧ c ≠ '\'') : Sealed accepts s := by
  have hne : ∀ c ∈ s, c ≠ '\'' := fun c hc => (h c hc).2
  constructor
  · exact endsInside_of_forall_ne false s hne
  · rw [skeleton_of_forall_ne s hne]
    exact fun c hc => (h c hc).1

theorem Sealed.mono {accepts accepts' : Char → Bool} {s : List Char}
    (himp : ∀ c, accepts c = true → accepts' c = true) (h : Sealed accepts s) :
    Sealed accepts' s :=
  ⟨h.closed, fun c hc => himp c (h.skeleton_mem c hc)⟩

theorem sealed_quote (accepts : Char → Bool) (s : List Char) : Sealed accepts (quote s) :=
  ⟨endsInside_quote false s, by simp [skeleton_quote]⟩

/-- Two sealed texts that are followed by characters of neither class are the
same if what they begin is. The induction goes over both with one state of
quoting, which is the same for both at every step. -/
theorem sealed_append_cons_inj (accepts : Char → Bool) (inside : Bool)
    (s s' rest rest' : List Char) (c c' : Char)
    (hs : endsInside inside s = false) (hs' : endsInside inside s' = false)
    (hskel : ∀ d ∈ skeleton inside s, accepts d = true)
    (hskel' : ∀ d ∈ skeleton inside s', accepts d = true)
    (hc : accepts c = false ∧ c ≠ '\'') (hc' : accepts c' = false ∧ c' ≠ '\'')
    (h : s ++ c :: rest = s' ++ c' :: rest') : s = s' := by
  induction s generalizing inside s' with
  | nil =>
      cases s' with
      | nil => rfl
      | cons d s' =>
          obtain rfl : inside = false := hs
          simp only [List.nil_append, List.cons_append, List.cons.injEq] at h
          obtain ⟨rfl, _⟩ := h
          have := hskel' c (by simp [skeleton, hc.2])
          simp [hc.1] at this
  | cons d s ih =>
      cases s' with
      | nil =>
          obtain rfl : inside = false := hs'
          simp only [List.nil_append, List.cons_append, List.cons.injEq] at h
          obtain ⟨rfl, _⟩ := h
          have := hskel d (by simp [skeleton, hc'.2])
          simp [hc'.1] at this
      | cons e s' =>
          simp only [List.cons_append, List.cons.injEq] at h
          obtain ⟨rfl, h⟩ := h
          rw [endsInside] at hs hs'
          rw [ih _ s' hs hs' (fun x hx => hskel x (mem_skeleton_cons inside d s hx))
            (fun x hx => hskel' x (mem_skeleton_cons inside d s' hx)) h]

theorem Sealed.append_cons_inj {accepts : Char → Bool} {s s' rest rest' : List Char}
    {c c' : Char} (hs : Sealed accepts s) (hs' : Sealed accepts s')
    (hc : accepts c = false ∧ c ≠ '\'') (hc' : accepts c' = false ∧ c' ≠ '\'')
    (h : s ++ c :: rest = s' ++ c' :: rest') : s = s' :=
  sealed_append_cons_inj accepts false s s' rest rest' c c' hs.closed hs'.closed
    hs.skeleton_mem hs'.skeleton_mem hc hc' h

/-! Hidden texts. -/

/-- The text shows up between quotes. -/
def Hides (hidden s : List Char) : Prop :=
  ∃ before after, s = before ++ (hidden ++ after) ∧ endsInside false before = true

theorem not_hides_of_not_infix (hidden s : List Char) (h : ¬hidden <:+: s) : ¬Hides hidden s := by
  rintro ⟨before, after, rfl, _⟩
  exact h ⟨before, after, by simp⟩

theorem not_hides_of_forall_ne (hidden s : List Char) (h : ∀ c ∈ s, c ≠ '\'') :
    ¬Hides hidden s := by
  rintro ⟨before, after, rfl, hinside⟩
  rw [endsInside_of_forall_ne false before fun c hc => h c (by simp [hc])] at hinside
  simp at hinside

/-- What two texts hide together one of them hides, if the first is closed and
the hidden text has no quotes: it cannot go beyond the quote that closes the
first. -/
theorem hides_append (hidden s t : List Char) (hhidden : ∀ c ∈ hidden, c ≠ '\'')
    (hs : endsInside false s = false) (h : Hides hidden (s ++ t)) :
    Hides hidden s ∨ Hides hidden t := by
  obtain ⟨before, after, heq, hinside⟩ := h
  rcases List.append_eq_append_iff.mp heq with ⟨more, rfl, rfl⟩ | ⟨more, rfl, hmore⟩
  · refine .inr ⟨more, after, rfl, ?_⟩
    simpa [endsInside_append, hs] using hinside
  · have hclosed : endsInside true more = false := by
      simpa [endsInside_append, hinside] using hs
    rcases List.append_eq_append_iff.mp hmore with ⟨last, rfl, _⟩ | ⟨last, rfl, _⟩
    · exact .inl ⟨before, last, rfl, hinside⟩
    · rw [endsInside_of_forall_ne true more fun c hc => hhidden c (by simp [hc])] at hclosed
      simp at hclosed

end RecordQuery.Text
