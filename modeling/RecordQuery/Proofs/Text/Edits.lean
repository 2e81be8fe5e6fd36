import Mathlib.Order.Bounds.Basic
import Mathlib.Order.MinMax
import RecordQuery.Text.Distance

/-!
The distance of two texts is the least number of edits that lead from one to the other.
Edits can be made anywhere and in any order, which says nothing of how to find the fewest.
So they are compared with alignments: the two texts written one above the other, with gaps,
at the price of one for every column in which they differ. An alignment has a first column,
from which a recursion follows, and an entry of the distance table is the least price of
an alignment of two initial parts. The table reads both texts from their beginnings, so
its entries are about the initial parts turned round.
-/

namespace RecordQuery.Text

/-- One character more, one less, or one in place of another. -/
inductive Edit : List Char → List Char → Prop
  | insert (before : List Char) (c : Char) (after : List Char) :
      Edit (before ++ after) (before ++ c :: after)
  | delete (before : List Char) (c : Char) (after : List Char) :
      Edit (before ++ c :: after) (before ++ after)
  | replace (before : List Char) (c d : Char) (after : List Char) :
      Edit (before ++ c :: after) (before ++ d :: after)

/-- So many edits, one after another, lead from a text to another. -/
inductive Edits : Nat → List Char → List Char → Prop
  | none (s : List Char) : Edits 0 s s
  | next {n : Nat} {s t u : List Char} (first : Edit s t) (rest : Edits n t u) : Edits (n + 1) s u

/-- The texts can be aligned at a price of no more than this. -/
inductive Aligned : Nat → List Char → List Char → Prop
  | nil (n : Nat) : Aligned n [] []
  | keep {n : Nat} {s t : List Char} (c : Char) (rest : Aligned n s t) :
      Aligned n (c :: s) (c :: t)
  | replace {n : Nat} {s t : List Char} (c d : Char) (rest : Aligned n s t) :
      Aligned (n + 1) (c :: s) (d :: t)
  | insert {n : Nat} {s t : List Char} (d : Char) (rest : Aligned n s t) :
      Aligned (n + 1) s (d :: t)
  | delete {n : Nat} {s t : List Char} (c : Char) (rest : Aligned n s t) :
      Aligned (n + 1) (c :: s) t

/-! Edits. -/

theorem Edit.cons {s t : List Char} (c : Char) (h : Edit s t) : Edit (c :: s) (c :: t) := by
  cases h with
  | insert before d after => exact .insert (c :: before) d after
  | delete before d after => exact .delete (c :: before) d after
  | replace before d e after => exact .replace (c :: before) d e after

theorem Edit.reverse {s t : List Char} (h : Edit s t) : Edit s.reverse t.reverse := by
  cases h with
  | insert before c after => simpa using Edit.insert after.reverse c before.reverse
  | delete before c after => simpa using Edit.delete after.reverse c before.reverse
  | replace before c d after => simpa using Edit.replace after.reverse c d before.reverse

theorem Edits.cons {n : Nat} {s t : List Char} (c : Char) (h : Edits n s t) :
    Edits n (c :: s) (c :: t) := by
  induction h with
  | none s => exact .none (c :: s)
  | next first _ ih => exact .next (first.cons c) ih

theorem Edits.reverse {n : Nat} {s t : List Char} (h : Edits n s t) :
    Edits n s.reverse t.reverse := by
  induction h with
  | none s => exact .none s.reverse
  | next first _ ih => exact .next first.reverse ih

/-! Alignments. -/

theorem Aligned.mono {n m : Nat} {s t : List Char} (h : Aligned n s t) (hle : n ≤ m) :
    Aligned m s t := by
  have hpred : ∀ k m, k + 1 ≤ m → ∃ l, m = l + 1 ∧ k ≤ l :=
    fun k m h => ⟨m - 1, by omega, by omega⟩
  induction h generalizing m with
  | nil n => exact .nil m
  | keep c _ ih => exact .keep c (ih hle)
  | replace c d _ ih =>
      obtain ⟨l, rfl, hl⟩ := hpred _ _ hle
      exact .replace c d (ih hl)
  | insert d _ ih =>
      obtain ⟨l, rfl, hl⟩ := hpred _ _ hle
      exact .insert d (ih hl)
  | delete c _ ih =>
      obtain ⟨l, rfl, hl⟩ := hpred _ _ hle
      exact .delete c (ih hl)

theorem aligned_self (s : List Char) : Aligned 0 s s := by
  induction s with
  | nil => exact .nil 0
  | cons c s ih => exact .keep c ih

theorem aligned_nil_left_iff (n : Nat) (t : List Char) : Aligned n [] t ↔ t.length ≤ n := by
  constructor
  · intro h
    generalize hs : ([] : List Char) = s at h
    induction h with
    | nil n => exact Nat.zero_le n
    | insert d _ ih => exact Nat.succ_le_succ (ih hs)
    | _ => cases hs
  · intro h
    refine Aligned.mono ?_ h
    induction t with
    | nil => exact .nil 0
    | cons d t ih => exact .insert d (ih (Nat.le_of_succ_le h))

theorem aligned_nil_right_iff (n : Nat) (s : List Char) : Aligned n s [] ↔ s.length ≤ n := by
  constructor
  · intro h
    generalize ht : ([] : List Char) = t at h
    induction h with
    | nil n => exact Nat.zero_le n
    | delete c _ ih => exact Nat.succ_le_succ (ih ht)
    | _ => cases ht
  · intro h
    refine Aligned.mono ?_ h
    induction s with
    | nil => exact .nil 0
    | cons c s ih => exact .delete c (ih (Nat.le_of_succ_le h))

section Edited

variable {n : Nat} {c : Char} {s t : List Char}

/-- Without its first character a text is aligned at the price of one more. -/
theorem Aligned.of_cons (h : Aligned n (c :: s) t) : Aligned (n + 1) s t := by
  generalize hs : c :: s = u at h
  induction h with
  | nil => cases hs
  | keep c rest _ =>
      cases hs
      exact .insert c rest
  | replace c d rest _ =>
      cases hs
      exact .insert d (rest.mono (Nat.le_succ _))
  | insert d _ ih => exact .insert d (ih hs)
  | delete c rest _ =>
      cases hs
      exact rest.mono (by omega)

/-- So is a text with another first character. -/
theorem Aligned.of_other (d : Char) (h : Aligned n (c :: s) t) : Aligned (n + 1) (d :: s) t := by
  generalize hs : c :: s = u at h
  induction h with
  | nil => cases hs
  | keep c rest _ =>
      cases hs
      exact .replace d c rest
  | replace c e rest _ =>
      cases hs
      exact .replace d e (rest.mono (Nat.le_succ _))
  | insert e _ ih => exact .insert e (ih hs)
  | delete c rest _ =>
      cases hs
      exact .delete d (rest.mono (Nat.le_succ _))

/-- What an edit costs does not depend on a first character that stays. -/
theorem Aligned.under_cons {s' : List Char}
    (hedit : ∀ {n t}, Aligned n s' t → Aligned (n + 1) s t) (h : Aligned n (c :: s') t) :
    Aligned (n + 1) (c :: s) t := by
  generalize hs : c :: s' = u at h
  induction h with
  | nil => cases hs
  | keep c rest _ =>
      cases hs
      exact .keep c (hedit rest)
  | replace c d rest _ =>
      cases hs
      exact .replace c d (hedit rest)
  | insert d _ ih => exact .insert d (ih hs)
  | delete c rest _ =>
      cases hs
      exact .delete c (hedit rest)

end Edited

/-- An edit costs no more than one. -/
theorem Edit.aligned {n : Nat} {s s' t : List Char} (hedit : Edit s s') (h : Aligned n s' t) :
    Aligned (n + 1) s t := by
  cases hedit with
  | insert before c after =>
      induction before generalizing n t with
      | nil => exact h.of_cons
      | cons d before ih => exact h.under_cons ih
  | delete before c after =>
      induction before generalizing n t with
      | nil => exact .delete c h
      | cons d before ih => exact h.under_cons ih
  | replace before c d after =>
      induction before generalizing n t with
      | nil => exact h.of_other c
      | cons e before ih => exact h.under_cons ih

theorem Edits.aligned {n : Nat} {s t : List Char} (h : Edits n s t) : Aligned n s t := by
  induction h with
  | none s => exact aligned_self s
  | next first _ ih => exact first.aligned ih

theorem Aligned.exists_edits {n : Nat} {s t : List Char} (h : Aligned n s t) :
    ∃ m ≤ n, Edits m s t := by
  induction h with
  | nil n => exact ⟨0, Nat.zero_le n, .none []⟩
  | keep c _ ih =>
      obtain ⟨m, hm, hedits⟩ := ih
      exact ⟨m, hm, hedits.cons c⟩
  | @replace n s t c d _ ih =>
      obtain ⟨m, hm, hedits⟩ := ih
      exact ⟨m + 1, Nat.succ_le_succ hm, .next (.replace [] c d s) (hedits.cons d)⟩
  | @insert n s t d _ ih =>
      obtain ⟨m, hm, hedits⟩ := ih
      exact ⟨m + 1, Nat.succ_le_succ hm, .next (.insert [] d s) (hedits.cons d)⟩
  | @delete n s t c _ ih =>
      obtain ⟨m, hm, hedits⟩ := ih
      exact ⟨m + 1, Nat.succ_le_succ hm, .next (.delete [] c s) hedits⟩

/-! The table. -/

/-- The least price of an alignment. -/
def IsPrice (s t : List Char) (n : Nat) : Prop :=
  IsLeast {m | Aligned m s t} n

theorem isPrice_nil_left (t : List Char) : IsPrice [] t t.length :=
  ⟨(aligned_nil_left_iff _ t).mpr (Nat.le_refl _), fun m h => (aligned_nil_left_iff m t).mp h⟩

theorem isPrice_nil_right (s : List Char) : IsPrice s [] s.length :=
  ⟨(aligned_nil_right_iff _ s).mpr (Nat.le_refl _), fun m h => (aligned_nil_right_iff m s).mp h⟩

theorem IsPrice.unique {s t : List Char} {n m : Nat} (h : IsPrice s t n) (h' : IsPrice s t m) :
    n = m :=
  IsLeast.unique h h'

/-- The price by the first column: a gap below, a gap above, or two characters. -/
theorem isPrice_cons (c d : Char) (s t : List Char) (left above diagonal : Nat)
    (hleft : IsPrice (c :: s) t left) (habove : IsPrice s (d :: t) above)
    (hdiagonal : IsPrice s t diagonal) :
    IsPrice (c :: s) (d :: t)
      (min (min (left + 1) (above + 1)) (if c = d then diagonal else diagonal + 1)) := by
  have hmin : ∀ a b, Aligned a (c :: s) (d :: t) → Aligned b (c :: s) (d :: t) →
      Aligned (min a b) (c :: s) (d :: t) := by
    intro a b ha hb
    rcases min_choice a b with h | h <;> rw [h] <;> assumption
  have hcolumn : Aligned (if c = d then diagonal else diagonal + 1) (c :: s) (d :: t) := by
    split
    · next heq => exact heq ▸ .keep c hdiagonal.1
    · exact .replace c d hdiagonal.1
  constructor
  · exact hmin _ _ (hmin _ _ (.insert d hleft.1) (.delete c habove.1)) hcolumn
  · intro m h
    cases h with
    | keep _ rest =>
        have := hdiagonal.2 rest
        simp only [if_true]
        omega
    | @replace n _ _ _ _ rest =>
        have := hdiagonal.2 rest
        split <;> omega
    | @insert n _ _ _ rest =>
        have := hleft.2 rest
        omega
    | @delete n _ _ _ rest =>
        have := habove.2 rest
        omega

/-- The row of a text: its prices to an initial part of the target, and to that with ever
more of the rest. The text and the initial part are turned round. -/
def IsRow (s : List Char) : List Char → List Char → List Nat → Prop
  | part, [], [n] => IsPrice s part n
  | part, d :: rest, n :: row => IsPrice s part n ∧ IsRow s (d :: part) rest row
  | _, _, _ => False

theorem IsRow.exists_cons {s part rest : List Char} {row : List Nat} (h : IsRow s part rest row) :
    ∃ n more, row = n :: more ∧ IsPrice s part n := by
  cases rest with
  | nil =>
      match row, h with
      | [n], h => exact ⟨n, [], rfl, h⟩
  | cons d rest =>
      match row, h with
      | n :: more, h => exact ⟨n, more, rfl, h.1⟩

theorem isRow_nil (part rest : List Char) :
    IsRow [] part rest (List.range' part.length (rest.length + 1)) := by
  induction rest generalizing part with
  | nil => exact isPrice_nil_left part
  | cons d rest ih => exact ⟨isPrice_nil_left part, ih (d :: part)⟩

/-- From the row of a text to that of the text with one character more. -/
theorem isRow_distanceRow {c : Char} {s part rest : List Char} {diagonal left : Nat}
    {row : List Nat} (h : IsRow s part rest (diagonal :: row)) (hleft : IsPrice (c :: s) part left) :
    IsRow (c :: s) part rest (left :: distanceRow c rest (diagonal :: row) left) := by
  induction rest generalizing part diagonal left row with
  | nil => exact hleft
  | cons d rest ih =>
      obtain ⟨hdiagonal, hrow⟩ := h
      obtain ⟨above, row, rfl, habove⟩ := hrow.exists_cons
      exact ⟨hleft, ih hrow (isPrice_cons c d s part left above diagonal hleft habove hdiagonal)⟩

theorem isRow_distanceRows {s target : List Char} {row : List Nat} (source : List Char)
    (h : IsRow s [] target row) :
    IsRow (source.reverse ++ s) [] target (distanceRows target source row) := by
  induction source generalizing s row with
  | nil => exact h
  | cons c source ih =>
      obtain ⟨n, more, rfl, hn⟩ := h.exists_cons
      obtain rfl := hn.unique (isPrice_nil_right s)
      rw [List.reverse_cons, List.append_assoc]
      exact ih (isRow_distanceRow h (isPrice_nil_right (c :: s)))

/-- The last entry of a row is the price to the whole target. -/
theorem isPrice_getLastD {s part rest : List Char} {row : List Nat} (h : IsRow s part rest row)
    (default : Nat) : IsPrice s (rest.reverse ++ part) (row.getLastD default) := by
  induction rest generalizing part row default with
  | nil =>
      match row, h with
      | [n], h => exact h
  | cons d rest ih =>
      match row, h with
      | n :: more, h =>
          rw [List.reverse_cons, List.append_assoc, List.getLastD_cons]
          exact ih h.2 n

theorem isPrice_distance (source target : List Char) :
    IsPrice source.reverse target.reverse (distance source target) := by
  have hstart : IsRow [] [] target (List.range (target.length + 1)) := by
    rw [List.range_eq_range']
    exact isRow_nil [] target
  simpa [distance] using isPrice_getLastD (isRow_distanceRows source hstart) 0

/-- The distance of two texts is the least number of edits between them. -/
theorem isLeast_distance (source target : List Char) :
    IsLeast {n | Edits n source target} (distance source target) := by
  have hprice := isPrice_distance source target
  have hleast : ∀ n, Edits n source target → distance source target ≤ n :=
    fun n hedits => hprice.2 hedits.reverse.aligned
  obtain ⟨n, hn, hedits⟩ := hprice.1.exists_edits
  have hback : Edits n source target := by simpa using hedits.reverse
  obtain rfl := Nat.le_antisymm hn (hleast n hback)
  exact ⟨hback, hleast⟩

theorem distance_eq_zero_iff (source target : List Char) :
    distance source target = 0 ↔ source = target := by
  constructor
  · intro h
    have hedits : Edits 0 source target := h ▸ (isLeast_distance source target).1
    cases hedits
    rfl
  · rintro rfl
    exact Nat.le_zero.mp ((isLeast_distance source source).2 (.none source))

end RecordQuery.Text
