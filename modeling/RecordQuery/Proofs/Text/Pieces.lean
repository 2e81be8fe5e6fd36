import RecordQuery.Text.Pieces

/-!
Beginnings of texts and beginnings of their pieces. With a separator behind each, one
text begins another just if its pieces begin the pieces of the other, so that no piece
is taken for the beginning of a longer one.
-/

namespace RecordQuery.Text

variable (separator : Char)

theorem pieces_nil : pieces separator [] = [[]] :=
  rfl

theorem pieces_cons_self (s : List Char) :
    pieces separator (separator :: s) = [] :: pieces separator s := by
  rw [pieces, if_pos rfl]

theorem pieces_cons_of_ne {c : Char} (h : c ≠ separator) (s : List Char) :
    ∃ piece more, pieces separator s = piece :: more ∧
      pieces separator (c :: s) = (c :: piece) :: more := by
  obtain ⟨piece, more, hpieces⟩ := List.exists_cons_of_ne_nil (pieces_ne_nil separator s)
  refine ⟨piece, more, hpieces, ?_⟩
  rw [pieces, if_neg h, hpieces]

theorem pieces_of_not_mem {s : List Char} (h : separator ∉ s) : pieces separator s = [s] := by
  induction s with
  | nil => rfl
  | cons c s ih =>
      rw [List.mem_cons, not_or] at h
      rw [pieces, if_neg (Ne.symm h.1), ih h.2]

/-- The pieces on both sides of a separator are pieces of the whole. -/
theorem pieces_append_cons (s rest : List Char) :
    pieces separator (s ++ separator :: rest) = pieces separator s ++ pieces separator rest := by
  induction s with
  | nil => exact pieces_cons_self separator rest
  | cons c s ih =>
      by_cases hc : c = separator
      · rw [hc, List.cons_append, pieces_cons_self, pieces_cons_self, ih, List.cons_append]
      · obtain ⟨piece, more, hpieces, hcons⟩ := pieces_cons_of_ne separator hc s
        obtain ⟨piece', more', hpieces', hcons'⟩ :=
          pieces_cons_of_ne separator hc (s ++ separator :: rest)
        rw [ih, hpieces, List.cons_append] at hpieces'
        obtain ⟨rfl, rfl⟩ := List.cons.inj hpieces'
        rw [List.cons_append, hcons', hcons, List.cons_append]

theorem pieces_append {s : List Char} (h : separator ∉ s) (rest : List Char) :
    pieces separator (s ++ separator :: rest) = s :: pieces separator rest := by
  rw [pieces_append_cons, pieces_of_not_mem separator h, List.singleton_append]

theorem join_eq_intercalate (separator : List Char) (texts : List (List Char)) :
    join separator texts = separator.intercalate texts := by
  induction texts with
  | nil => rfl
  | cons text texts ih =>
      cases texts with
      | nil => simp [join]
      | cons next texts =>
          rw [List.intercalate_cons_cons, ← ih, join]
          exact List.cons_ne_nil next texts

/-- Texts without the separator are the pieces of what is made of them. -/
theorem pieces_intercalate {texts : List (List Char)} (hne : texts ≠ [])
    (h : ∀ text ∈ texts, separator ∉ text) :
    pieces separator ([separator].intercalate texts) = texts := by
  induction texts with
  | nil => exact absurd rfl hne
  | cons text texts ih =>
      obtain ⟨htext, htexts⟩ := List.forall_mem_cons.mp h
      cases texts with
      | nil => simpa using pieces_of_not_mem separator htext
      | cons next texts =>
          rw [List.intercalate_cons_cons, List.append_assoc, List.singleton_append,
            pieces_append separator htext, ih (by simp) htexts]

/-- A text is known from its pieces. -/
theorem pieces_inj {s t : List Char} : pieces separator s = pieces separator t ↔ s = t := by
  constructor
  · intro h
    rw [← join_pieces separator s, h, join_pieces separator t]
  · exact congrArg (pieces separator)

/-- The characters of the pieces are those of the text but the separator. -/
theorem mem_of_mem_pieces {s piece : List Char} {c : Char} (hpiece : piece ∈ pieces separator s)
    (hc : c ∈ piece) : c ≠ separator ∧ c ∈ s := by
  induction s generalizing piece with
  | nil =>
      rw [pieces_nil, List.mem_singleton] at hpiece
      subst hpiece
      cases hc
  | cons d s ih =>
      by_cases hd : d = separator
      · subst hd
        rw [pieces_cons_self, List.mem_cons] at hpiece
        rcases hpiece with rfl | hpiece
        · cases hc
        · exact (ih hpiece hc).imp_right (List.mem_cons_of_mem d)
      · obtain ⟨first, more, hfirst, hcons⟩ := pieces_cons_of_ne separator hd s
        rw [hfirst] at ih
        rw [hcons, List.mem_cons] at hpiece
        rcases hpiece with rfl | hpiece
        · rcases List.mem_cons.mp hc with rfl | hc
          · exact ⟨hd, List.mem_cons_self⟩
          · exact (ih List.mem_cons_self hc).imp_right (List.mem_cons_of_mem d)
        · exact (ih (List.mem_cons_of_mem first hpiece) hc).imp_right (List.mem_cons_of_mem d)

theorem mem_of_mem_intercalate {separator : List Char} {texts : List (List Char)} {c : Char}
    (h : c ∈ separator.intercalate texts) : c ∈ separator ∨ ∃ text ∈ texts, c ∈ text := by
  induction texts with
  | nil => cases h
  | cons text texts ih =>
      cases texts with
      | nil => exact .inr ⟨text, by simpa using h⟩
      | cons next texts =>
          rw [List.intercalate_cons_cons, List.mem_append, List.mem_append] at h
          rcases h with (htext | hseparator) | hrest
          · exact .inr ⟨text, List.mem_cons_self, htext⟩
          · exact .inl hseparator
          · exact (ih hrest).imp_right fun ⟨other, hother, hc⟩ =>
              ⟨other, List.mem_cons_of_mem text hother, hc⟩

/-- A character is the separator or in a piece. -/
theorem eq_or_mem_pieces (s : List Char) (c : Char) (hc : c ∈ s) :
    c = separator ∨ ∃ piece ∈ pieces separator s, c ∈ piece := by
  rw [← join_pieces separator s, join_eq_intercalate] at hc
  exact (mem_of_mem_intercalate hc).imp_left List.mem_singleton.mp

/-- The pieces are compared character by character. -/
theorem pieces_cons_prefix_iff (c d : Char) (s t : List Char) :
    pieces separator (c :: s) <+: pieces separator (d :: t) ↔
      c = d ∧ pieces separator s <+: pieces separator t := by
  by_cases hc : c = separator <;> by_cases hd : d = separator
  · subst hc hd
    simp [pieces_cons_self]
  · obtain ⟨piece, more, _, hcons⟩ := pieces_cons_of_ne separator hd t
    subst hc
    simp [hcons, pieces_cons_self, Ne.symm hd]
  · obtain ⟨piece, more, _, hcons⟩ := pieces_cons_of_ne separator hc s
    subst hd
    simp [hcons, pieces_cons_self, hc]
  · obtain ⟨piece, more, hpieces, hcons⟩ := pieces_cons_of_ne separator hc s
    obtain ⟨piece', more', hpieces', hcons'⟩ := pieces_cons_of_ne separator hd t
    simp [hcons, hcons', hpieces, hpieces', and_assoc]

/-- A text with a separator behind it begins another one just if its pieces do. -/
theorem prefix_iff_pieces (s t : List Char) :
    s ++ [separator] <+: t ++ [separator] ↔ pieces separator s <+: pieces separator t := by
  induction s generalizing t with
  | nil =>
      cases t with
      | nil => simp
      | cons d t =>
          by_cases hd : d = separator
          · subst hd
            simp [pieces_nil, pieces_cons_self]
          · obtain ⟨piece, more, _, hcons⟩ := pieces_cons_of_ne separator hd t
            simp [pieces_nil, hcons, Ne.symm hd]
  | cons c s ih =>
      cases t with
      | nil =>
          by_cases hc : c = separator
          · subst hc
            simp [pieces_nil, pieces_cons_self, pieces_ne_nil]
          · obtain ⟨piece, more, _, hcons⟩ := pieces_cons_of_ne separator hc s
            simp [pieces_nil, hcons]
      | cons d t =>
          rw [List.cons_append, List.cons_append, List.cons_prefix_cons, ih,
            pieces_cons_prefix_iff]

/-- A text is split behind what does not have the separator. -/
theorem splitFirst?_append (before after : List Char) (h : separator ∉ before) :
    splitFirst? separator (before ++ separator :: after) = some (before, after) := by
  induction before with
  | nil => simp [splitFirst?]
  | cons c before ih =>
      rw [List.mem_cons, not_or] at h
      rw [List.cons_append, splitFirst?, if_neg (Ne.symm h.1), ih h.2]
      rfl

/-- A text is split at its first separator, if it has one. -/
theorem splitFirst?_eq_some_iff (s before after : List Char) :
    splitFirst? separator s = some (before, after) ↔
      s = before ++ separator :: after ∧ separator ∉ before := by
  constructor
  · intro h
    induction s generalizing before with
    | nil => cases h
    | cons c s ih =>
        rw [splitFirst?] at h
        split at h
        · next hc =>
          obtain ⟨rfl, rfl⟩ := Prod.mk.inj (Option.some.inj h)
          exact ⟨by rw [hc, List.nil_append], List.not_mem_nil⟩
        · next hc =>
          obtain ⟨⟨first, rest⟩, hrest, hparts⟩ := Option.map_eq_some_iff.mp h
          obtain ⟨rfl, rfl⟩ := Prod.mk.inj hparts
          obtain ⟨rfl, hfirst⟩ := ih first hrest
          refine ⟨rfl, ?_⟩
          rw [List.mem_cons, not_or]
          exact ⟨Ne.symm hc, hfirst⟩
  · rintro ⟨rfl, h⟩
    exact splitFirst?_append separator before after h

theorem afterStart?_eq_some_iff (start s rest : List Char) :
    afterStart? start s = some rest ↔ s = start ++ rest := by
  induction start generalizing s with
  | nil => simp [afterStart?]
  | cons c start ih =>
      cases s with
      | nil => simp [afterStart?]
      | cons d s =>
          rw [afterStart?, List.cons_append, List.cons.injEq]
          split
          · next hc => rw [ih, hc, eq_self, true_and]
          · next hc => simp [Ne.symm hc]

/-- Where a separator comes first, a text splits in one way. -/
theorem append_cons_inj (s s' t t' : List Char) (hs : ∀ c ∈ s, c ≠ separator)
    (hs' : ∀ c ∈ s', c ≠ separator) (h : s ++ separator :: t = s' ++ separator :: t') :
    s = s' ∧ t = t' := by
  have hfirst := splitFirst?_append separator s t fun hmem => hs separator hmem rfl
  rw [h, splitFirst?_append separator s' t' fun hmem => hs' separator hmem rfl] at hfirst
  have hparts := Prod.mk.inj (Option.some.inj hfirst)
  exact ⟨hparts.1.symm, hparts.2.symm⟩

/-- Joined texts with a separator behind them: each has one behind it. -/
theorem join_append_separator (separator : List Char) (texts : List (List Char))
    (hne : texts ≠ []) : join separator texts ++ separator = texts.flatMap (· ++ separator) := by
  induction texts with
  | nil => exact absurd rfl hne
  | cons s texts ih =>
      cases texts with
      | nil => simp [join]
      | cons t texts =>
          have hlater := ih (by simp)
          rw [List.flatMap_cons, ← hlater]
          simp [join]

/-- One more text comes behind the joined texts and a separator. -/
theorem join_concat (texts : List (List Char)) (last : List Char) (hne : texts ≠ []) :
    join [separator] (texts ++ [last]) = join [separator] texts ++ separator :: last := by
  induction texts with
  | nil => exact absurd rfl hne
  | cons text texts ih =>
      cases texts with
      | nil => simp [join]
      | cons next texts =>
          show text ++ [separator] ++ join [separator] (next :: texts ++ [last]) = _
          rw [ih (by simp)]
          simp [join]

end RecordQuery.Text
