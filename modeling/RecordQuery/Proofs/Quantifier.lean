import RecordQuery.Quantifier

/-!
When the answer of a quantifier is known. Some results decide the answer if no further
results can change it. An element is tried as long as the results before it do not decide,
so the elements that are tried are the shortest initial part whose results decide, or all
elements where no shorter part does.

Trying an element may change a state, and may depend on it. What was tried is seen from
the state in the end.
-/

namespace RecordQuery.Quantifier

/-- Whether as many of the results are positive as the quantifier asks for. -/
def Holds (quantifier : Quantifier) (results : List Bool) : Prop :=
  match quantifier with
  | .any => ∃ result ∈ results, result = true
  | .all => ∀ result ∈ results, result = true
  | .one => results.count true = 1

/-- No further results change the answer. -/
def Decides (quantifier : Quantifier) (results : List Bool) : Prop :=
  ∀ more, quantifier.Holds (results ++ more) ↔ quantifier.Holds results

theorem decides_any_iff (results : List Bool) : any.Decides results ↔ true ∈ results := by
  constructor
  · intro h
    obtain ⟨result, hmem, rfl⟩ := (h [true]).mp ⟨true, by simp, rfl⟩
    exact hmem
  · intro h more
    exact iff_of_true ⟨true, by simp [h], rfl⟩ ⟨true, h, rfl⟩

theorem decides_all_iff (results : List Bool) : all.Decides results ↔ false ∈ results := by
  constructor
  · intro h
    have hfalse : ¬all.Holds (results ++ [false]) := fun hall => by simpa using hall false
    rw [h [false], Holds] at hfalse
    simpa using hfalse
  · intro h more
    exact iff_of_false (fun hall => by simpa using hall false (by simp [h]))
      (fun hall => by simpa using hall false h)

theorem decides_one_iff (results : List Bool) : one.Decides results ↔ 1 < results.count true := by
  constructor
  · intro h
    have hmore : (results ++ [true]).count true = 1 ↔ results.count true = 1 := h [true]
    rw [List.count_append, List.count_singleton_self] at hmore
    omega
  · intro h more
    rw [Holds, Holds, List.count_append]
    omega

/-- Without results every quantifier is open. -/
theorem not_decides_nil (quantifier : Quantifier) : ¬quantifier.Decides [] := by
  cases quantifier with
  | any => simp [decides_any_iff]
  | all => simp [decides_all_iff]
  | one => simp [decides_one_iff]

/-! One element. -/

theorem count_concat (results : List Bool) (result : Bool) :
    (results ++ [result]).count true = results.count true + result.toNat := by
  cases result <;> simp

section Step

variable (quantifier : Quantifier) (results : List Bool) (hopen : ¬quantifier.Decides results)
include hopen

theorem finalAnswer_iff :
    quantifier.finalAnswer (results.count true) = true ↔ quantifier.Holds results := by
  cases quantifier with
  | any =>
      rw [decides_any_iff] at hopen
      simpa [finalAnswer, Holds] using hopen
  | all =>
      rw [decides_all_iff] at hopen
      simpa [finalAnswer, Holds] using hopen
  | one => simp [finalAnswer, Holds]

/-- The answer is given as soon as the results decide. -/
theorem isSome_earlyAnswer?_iff (result : Bool) :
    (quantifier.earlyAnswer? (results.count true) result).isSome = true ↔
      quantifier.Decides (results ++ [result]) := by
  cases quantifier with
  | any =>
      rw [decides_any_iff] at hopen ⊢
      cases result <;> simp [earlyAnswer?, hopen]
  | all =>
      rw [decides_all_iff] at hopen ⊢
      cases result <;> simp [earlyAnswer?, hopen]
  | one =>
      rw [decides_one_iff] at hopen ⊢
      rw [count_concat]
      cases result with
      | false => simpa [earlyAnswer?] using hopen
      | true => simp [earlyAnswer?]

/-- The answer that is given early is the one for the results so far. -/
theorem earlyAnswer?_iff (result answer : Bool)
    (h : quantifier.earlyAnswer? (results.count true) result = some answer) :
    answer = true ↔ quantifier.Holds (results ++ [result]) := by
  cases quantifier with
  | any =>
      cases result with
      | false => simp [earlyAnswer?] at h
      | true =>
          obtain rfl : true = answer := by simpa [earlyAnswer?] using h
          exact iff_of_true rfl ⟨true, by simp, rfl⟩
  | all =>
      cases result with
      | false =>
          obtain rfl : false = answer := by simpa [earlyAnswer?] using h
          exact iff_of_false Bool.false_ne_true fun hall => by simpa using hall false
      | true => simp [earlyAnswer?] at h
  | one =>
      cases result with
      | false => simp [earlyAnswer?] at h
      | true =>
          obtain ⟨hpassed, rfl⟩ : 0 < results.count true ∧ false = answer := by
            simpa [earlyAnswer?] using h
          rw [Holds, count_concat, Bool.toNat_true]
          exact iff_of_false Bool.false_ne_true (by omega)

end Step

/-! All elements. -/

/-- Of the initial parts of the elements, the shortest that is enough, or the whole where
no shorter part is. -/
structure IsShortest {α : Type} (enough : List α → Prop) (items tried : List α) : Prop where
  begins : tried <+: items
  isEnough : tried ≠ items → enough tried
  least : ∀ shorter, shorter <+: tried → shorter ≠ tried → ¬enough shorter

namespace IsShortest

variable {α : Type} {enough : List α → Prop}

theorem nil : IsShortest enough [] [] where
  begins := List.prefix_refl []
  isEnough := fun hne => absurd rfl hne
  least := fun _ hshorter hne => absurd (List.prefix_nil.mp hshorter) hne

variable (hnil : ¬enough [])
include hnil

theorem single {x : α} (rest : List α) (h : enough [x]) : IsShortest enough (x :: rest) [x] where
  begins := ⟨rest, rfl⟩
  isEnough := fun _ => h
  least := by
    intro shorter hshorter hne
    rcases List.prefix_cons_iff.mp hshorter with rfl | ⟨more, rfl, hmore⟩
    · exact hnil
    · rw [List.prefix_nil.mp hmore] at hne
      exact absurd rfl hne

theorem cons {x : α} {rest tried : List α}
    (h : IsShortest (fun part => enough (x :: part)) rest tried) :
    IsShortest enough (x :: rest) (x :: tried) where
  begins := List.cons_prefix_cons.mpr ⟨rfl, h.begins⟩
  isEnough := fun hne => h.isEnough fun heq => hne (congrArg (x :: ·) heq)
  least := by
    intro shorter hshorter hne
    rcases List.prefix_cons_iff.mp hshorter with rfl | ⟨more, rfl, hmore⟩
    · exact hnil
    · exact h.least more hmore fun heq => hne (congrArg (x :: ·) heq)

end IsShortest

section Run

variable {α σ : Type} (p : α → StateM σ Bool) (state : σ)

/-- The results of trying all of the elements in order. -/
def results (items : List α) : List Bool :=
  ((items.mapM p).run state).1

/-- The state after trying all of the elements in order. -/
def stateAfter (items : List α) : σ :=
  ((items.mapM p).run state).2

theorem results_nil : results p state [] = [] :=
  rfl

theorem results_cons (x : α) (rest : List α) :
    results p state (x :: rest) =
      ((p x).run state).1 :: results p ((p x).run state).2 rest := by
  rw [results, List.mapM_cons]
  rfl

/-- The result of the next element counts among those before the rest. -/
theorem append_results_cons (done : List Bool) (x : α) (rest : List α) :
    done ++ results p state (x :: rest) =
      (done ++ [((p x).run state).1]) ++ results p ((p x).run state).2 rest := by
  rw [results_cons, List.append_cons]

theorem stateAfter_cons (x : α) (rest : List α) :
    stateAfter p state (x :: rest) = stateAfter p ((p x).run state).2 rest := by
  rw [stateAfter, List.mapM_cons]
  rfl

theorem run_testFrom_cons (quantifier : Quantifier) (passed : Nat) (x : α) (rest : List α) :
    (quantifier.testFrom p passed (x :: rest)).run state =
      match quantifier.earlyAnswer? passed ((p x).run state).1 with
      | some answer => (answer, ((p x).run state).2)
      | none =>
        (quantifier.testFrom p (passed + ((p x).run state).1.toNat) rest).run
          ((p x).run state).2 := by
  change StateT.run (match quantifier.earlyAnswer? passed ((p x).run state).1 with
    | some answer => pure answer
    | none => quantifier.testFrom p (passed + ((p x).run state).1.toNat) rest)
      ((p x).run state).2 = _
  split <;> rfl

/-- Behind elements with the results `done`, the elements `tried` are the ones to try, and the
outcome is the answer for all elements and the state after those. -/
structure Tries (quantifier : Quantifier) (done : List Bool) (items tried : List α)
    (outcome : Bool × σ) : Prop where
  shortest :
    IsShortest (fun part => quantifier.Decides (done ++ results p state part)) items tried
  answer : outcome.1 = true ↔ quantifier.Holds (done ++ results p state items)
  after : outcome.2 = stateAfter p state tried

section Steps

variable {quantifier : Quantifier} {done : List Bool} (hopen : ¬quantifier.Decides done)
include hopen

theorem Tries.nil :
    Tries p state quantifier done [] [] (quantifier.finalAnswer (done.count true), state) where
  shortest := .nil
  answer := by
    rw [results_nil, List.append_nil]
    exact finalAnswer_iff quantifier done hopen
  after := rfl

/-- The element whose result settles the answer is the last to try. -/
theorem Tries.last {x : α} (rest : List α) {answer : Bool}
    (h : quantifier.earlyAnswer? (done.count true) ((p x).run state).1 = some answer) :
    Tries p state quantifier done (x :: rest) [x] (answer, ((p x).run state).2) := by
  have hdecides : quantifier.Decides (done ++ [((p x).run state).1]) := by
    rw [← isSome_earlyAnswer?_iff quantifier done hopen, h, Option.isSome_some]
  refine ⟨.single ?_ rest ?_, ?_, ?_⟩
  · rwa [results_nil, List.append_nil]
  · rwa [results_cons, results_nil]
  · rw [append_results_cons, hdecides]
    exact earlyAnswer?_iff quantifier done hopen _ answer h
  · rw [stateAfter_cons]
    rfl

/-- Before the elements to try behind it comes one whose result leaves the answer open. -/
theorem Tries.cons {x : α} {rest tried : List α} {outcome : Bool × σ}
    (h : Tries p ((p x).run state).2 quantifier (done ++ [((p x).run state).1]) rest tried
      outcome) :
    Tries p state quantifier done (x :: rest) (x :: tried) outcome := by
  refine ⟨.cons ?_ ?_, ?_, ?_⟩
  · rwa [results_nil, List.append_nil]
  · simpa only [append_results_cons] using h.shortest
  · rw [append_results_cons]
    exact h.answer
  · rw [stateAfter_cons]
    exact h.after

end Steps

/-- The induction is on the elements to come, for all results of those before that leave the
answer open. -/
theorem exists_tries_testFrom (quantifier : Quantifier) (items : List α) (done : List Bool)
    (hopen : ¬quantifier.Decides done) :
    ∃ tried, Tries p state quantifier done items tried
      ((quantifier.testFrom p (done.count true) items).run state) := by
  induction items generalizing done state with
  | nil => exact ⟨[], .nil p state hopen⟩
  | cons x rest ih =>
      rw [run_testFrom_cons]
      cases hearly : quantifier.earlyAnswer? (done.count true) ((p x).run state).1 with
      | some answer => exact ⟨[x], .last p state hopen rest hearly⟩
      | none =>
          have hopen' : ¬quantifier.Decides (done ++ [((p x).run state).1]) := by
            rw [← isSome_earlyAnswer?_iff quantifier done hopen, hearly, Option.isSome_none]
            exact Bool.false_ne_true
          obtain ⟨tried, htries⟩ := ih ((p x).run state).2 _ hopen'
          rw [count_concat] at htries
          exact ⟨x :: tried, .cons p state hopen htries⟩

/-- For every way of trying elements, the answer is the one for the results of all elements,
and only the shortest initial part that decides it is tried, in order. -/
theorem testM_tries_shortest (quantifier : Quantifier) (items : List α) :
    ∃ tried, IsShortest (fun part => quantifier.Decides (results p state part)) items tried ∧
      (((quantifier.testM p items).run state).1 = true ↔
        quantifier.Holds (results p state items)) ∧
      ((quantifier.testM p items).run state).2 = stateAfter p state tried := by
  obtain ⟨tried, htries⟩ :=
    exists_tries_testFrom p state quantifier items [] (not_decides_nil quantifier)
  exact ⟨tried, htries.shortest, htries.answer, htries.after⟩

end Run

/-! Elements whose results are known beforehand. -/

section Pure

variable {α : Type} (p : α → Bool) (items : List α)

theorem results_counted (count : Nat) : results (counted p) count items = items.map p := by
  induction items generalizing count with
  | nil => rfl
  | cons x rest ih =>
      rw [results_cons, ih]
      rfl

theorem stateAfter_counted (count : Nat) :
    stateAfter (counted p) count items = count + items.length := by
  induction items generalizing count with
  | nil => rfl
  | cons x rest ih =>
      rw [stateAfter_cons, ih, List.length_cons]
      exact Nat.add_right_comm count 1 rest.length

theorem test_iff_holds (quantifier : Quantifier) :
    quantifier.test p items = true ↔ quantifier.Holds (items.map p) := by
  obtain ⟨tried, htries⟩ :=
    exists_tries_testFrom (counted p) 0 quantifier items [] (not_decides_nil quantifier)
  have hanswer := htries.answer
  rwa [results_counted] at hanswer

/-- As many elements are tried as the shortest part that decides has. -/
theorem examined_eq_length (quantifier : Quantifier) :
    ∃ tried, IsShortest (fun part => quantifier.Decides (part.map p)) items tried ∧
      quantifier.examined p items = tried.length := by
  obtain ⟨tried, htries⟩ :=
    exists_tries_testFrom (counted p) 0 quantifier items [] (not_decides_nil quantifier)
  have hshortest := htries.shortest
  simp only [results_counted, List.nil_append] at hshortest
  have hafter := htries.after
  rw [stateAfter_counted, Nat.zero_add] at hafter
  exact ⟨tried, hshortest, hafter⟩

/-- The second element that passes is the last one that is tried. -/
example : one.run id [false, true, true, false] = (false, 3) := by decide

theorem test_any : any.test p items = items.any p := by
  rw [Bool.eq_iff_iff, test_iff_holds, Holds]
  simp

end Pure

end RecordQuery.Quantifier
