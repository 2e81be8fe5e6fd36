/-!
Computations that may fail. One that is made of steps succeeds if every step does.

What is true of the errors of every step is true of the errors of the whole.

Two computations concur if they fail with the same error or both succeed, with
results that are related. Computations that are made of concurring steps concur,
so two runs over the same data are compared step by step.
-/

namespace RecordQuery

/-- A computation succeeds if its first step does and the rest does on the result. -/
theorem bind_eq_ok_iff {α β ε : Type} (x : Except ε α) (f : α → Except ε β) (b : β) :
    (x >>= f) = .ok b ↔ ∃ a, x = .ok a ∧ f a = .ok b := by
  cases x <;> simp [bind, Except.bind]

/-- A computation fails if its first step does, or the rest does on the result. -/
theorem bind_eq_error_iff {α β ε : Type} (x : Except ε α) (f : α → Except ε β) (e : ε) :
    (x >>= f) = .error e ↔ x = .error e ∨ ∃ a, x = .ok a ∧ f a = .error e := by
  cases x <;> simp [bind, Except.bind]

theorem ok_bind {α β ε : Type} (a : α) (f : α → Except ε β) : (.ok a >>= f) = f a :=
  rfl

theorem throw_ne_ok {α ε : Type} (e : ε) (a : α) : (throw e : Except ε α) ≠ .ok a :=
  nofun

/-- A list is read if every element of it is. -/
theorem mapM_eq_ok_iff {α β ε : Type} (f : α → Except ε β) (l : List α) (l' : List β) :
    l.mapM f = .ok l' ↔ l.map f = l'.map .ok := by
  induction l generalizing l' with
  | nil => cases l' <;> simp [pure, Except.pure]
  | cons x l ih =>
      rw [List.mapM_cons]
      cases hx : f x with
      | error e => cases l' <;> simp [hx, bind, Except.bind]
      | ok y =>
          cases hl : l.mapM f with
          | error e =>
              cases l' with
              | nil => simp [bind, Except.bind]
              | cons z l' =>
                  have hne : l.map f ≠ l'.map .ok := fun h => by simp [(ih l').mpr h] at hl
                  simp [hx, hne, bind, Except.bind]
          | ok ys =>
              have hys := (ih ys).mp hl
              cases l' with
              | nil => simp [bind, Except.bind, pure, Except.pure]
              | cons z l' =>
                  simp only [bind, Except.bind, pure, Except.pure, List.map_cons, hx, hys,
                    Except.ok.injEq, List.cons.injEq]
                  refine and_congr_right fun _ => ⟨fun h => h ▸ rfl, fun h => ?_⟩
                  exact (List.map_inj_right fun _ _ => Except.ok.inj).mp h

/-- A list is read and its elements are put into another form, or each element is when it
has been read. -/
theorem mapM_bind_pure {α β γ ε : Type} (f : α → Except ε β) (g : β → γ) (l : List α) :
    (l.mapM fun x => do return g (← f x)) = do return (← l.mapM f).map g := by
  induction l with
  | nil => rfl
  | cons x l ih =>
      rw [List.mapM_cons, List.mapM_cons, ih]
      cases f x with
      | error e => rfl
      | ok y => cases l.mapM f <;> rfl

theorem eq_ok_of_toOption {α ε : Type} {result : Except ε α} {x : α}
    (h : result.toOption = some x) : result = .ok x := by
  cases result with
  | error e => simp [Except.toOption] at h
  | ok y => rw [Option.some.inj h]

theorem exists_mapM_eq_ok {α β ε : Type} (f : α → Except ε β) (l : List α)
    (h : ∀ x ∈ l, ∃ y, f x = .ok y) : ∃ l', l.mapM f = .ok l' := by
  induction l with
  | nil => exact ⟨[], rfl⟩
  | cons x l ih =>
      obtain ⟨y, hy⟩ := h x (by simp)
      obtain ⟨l', hl'⟩ := ih fun x' hx' => h x' (by simp [hx'])
      refine ⟨y :: l', (mapM_eq_ok_iff f (x :: l) (y :: l')).mpr ?_⟩
      simp [hy, (mapM_eq_ok_iff f l l').mp hl']

/-- A list that is not read has an element that is not read. -/
theorem exists_error_of_mapM {α β ε : Type} (f : α → Except ε β) (l : List α) (e : ε)
    (h : l.mapM f = .error e) : ∃ x ∈ l, f x = .error e := by
  induction l with
  | nil => cases h
  | cons x l ih =>
      rw [List.mapM_cons, bind_eq_error_iff] at h
      rcases h with hx | ⟨y, _, h⟩
      · exact ⟨x, by simp, hx⟩
      · rcases (bind_eq_error_iff _ _ _).mp h with hl | ⟨_, _, hpure⟩
        · obtain ⟨x', hx', he⟩ := ih hl
          exact ⟨x', by simp [hx'], he⟩
        · cases hpure

/-- Every error with which the computation can fail is of some kind. -/
def FailsOnly {α ε : Type} (kind : ε → Prop) (x : Except ε α) : Prop :=
  ∀ e, x = .error e → kind e

namespace FailsOnly

variable {α β ε : Type} {kind : ε → Prop}

theorem ok (a : α) : FailsOnly kind (.ok a : Except ε α) :=
  nofun

theorem error {e : ε} (h : kind e) : FailsOnly kind (.error e : Except ε α) :=
  fun _ he => Except.error.inj he ▸ h

theorem bind {x : Except ε α} {f : α → Except ε β} (hx : FailsOnly kind x)
    (hf : ∀ a, FailsOnly kind (f a)) : FailsOnly kind (x >>= f) := by
  intro e he
  rcases (bind_eq_error_iff _ _ _).mp he with hfirst | ⟨a, _, hrest⟩
  · exact hx e hfirst
  · exact hf a e hrest

theorem mapM {f : α → Except ε β} (l : List α) (hf : ∀ x ∈ l, FailsOnly kind (f x)) :
    FailsOnly kind (l.mapM f) := by
  intro e he
  obtain ⟨x, hx, hxe⟩ := exists_error_of_mapM f l e he
  exact hf x hx e hxe

end FailsOnly

/-- Both computations fail with one error, or both succeed with related results. -/
inductive Concur {α β ε : Type} (R : α → β → Prop) : Except ε α → Except ε β → Prop
  | error (e : ε) : Concur R (.error e) (.error e)
  | ok {a : α} {b : β} (related : R a b) : Concur R (.ok a) (.ok b)

namespace Concur

variable {α β γ δ ε : Type} {R : α → β → Prop} {S : γ → δ → Prop}

theorem error_iff {x : Except ε α} {y : Except ε β} (h : Concur R x y) (e : ε) :
    x = .error e ↔ y = .error e := by
  cases h <;> simp

theorem related_of_ok {x : Except ε α} {y : Except ε β} (h : Concur R x y) {a : α} {b : β}
    (hx : x = .ok a) (hy : y = .ok b) : R a b := by
  subst hx hy
  cases h with
  | ok related => exact related

/-- A step of each, and then the rests on results that are related. -/
theorem bind {x : Except ε α} {y : Except ε β} {f : α → Except ε γ} {g : β → Except ε δ}
    (h : Concur R x y) (hrest : ∀ a b, R a b → Concur S (f a) (g b)) :
    Concur S (x >>= f) (y >>= g) := by
  cases h with
  | error e => exact .error e
  | ok related => exact hrest _ _ related

/-- A result of the first that is put into another form. -/
theorem map_left {x : Except ε α} {y : Except ε β} (h : Concur R x y) {f : α → γ}
    {S : γ → β → Prop} (hform : ∀ a b, x = .ok a → R a b → S (f a) b) :
    Concur S (f <$> x) y := by
  cases h with
  | error e => exact .error e
  | ok related => exact .ok (hform _ _ rfl related)

/-- A step that both have in common. -/
theorem bind_same {x : Except ε α} {f : α → Except ε γ} {g : α → Except ε δ}
    (hrest : ∀ a, x = .ok a → Concur S (f a) (g a)) : Concur S (x >>= f) (x >>= g) := by
  cases x with
  | error e => exact .error e
  | ok a => exact hrest a rfl

end Concur

end RecordQuery
