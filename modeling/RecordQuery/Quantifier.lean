/-!
Quantifiers over the elements of a list: at least one, every or exactly one of
them passes. The elements are tried in order and no further than the answer
needs. Trying an element is a computation of any kind, so that it shows which
elements are tried and when.
-/

namespace RecordQuery

/-- How many elements must pass. -/
inductive Quantifier where
  | any
  | all
  | one
  deriving DecidableEq, Repr

namespace Quantifier

/-- The answer when all elements were tried, after so many of them passed. -/
def finalAnswer (quantifier : Quantifier) (passed : Nat) : Bool :=
  match quantifier with
  | .any => false
  | .all => true
  | .one => passed == 1

/-- The answer that one more result settles, after so many elements passed. -/
def earlyAnswer? (quantifier : Quantifier) (passed : Nat) (result : Bool) : Option Bool :=
  match quantifier, result with
  | .any, true => some true
  | .all, false => some false
  | .one, true => if 0 < passed then some false else none
  | _, _ => none

/-- The answer for elements behind some that were tried, of which so many passed. -/
def testFrom {m : Type → Type} [Monad m] {α : Type} (quantifier : Quantifier)
    (p : α → m Bool) (passed : Nat) : List α → m Bool
  | [] => pure (quantifier.finalAnswer passed)
  | x :: rest => do
    let result ← p x
    match quantifier.earlyAnswer? passed result with
    | some answer => pure answer
    | none => testFrom quantifier p (passed + result.toNat) rest

/-- Whether as many elements pass as the quantifier asks for. -/
def testM {m : Type → Type} [Monad m] {α : Type} (quantifier : Quantifier) (p : α → m Bool)
    (items : List α) : m Bool :=
  quantifier.testFrom p 0 items

/-- Tries an element and counts it. -/
def counted {α : Type} (p : α → Bool) (x : α) : StateM Nat Bool := do
  modify (· + 1)
  return p x

/-- The answer, and how many elements were tried for it. -/
def run {α : Type} (quantifier : Quantifier) (p : α → Bool) (items : List α) : Bool × Nat :=
  (quantifier.testM (counted p) items).run 0

/-- Whether as many elements pass as the quantifier asks for, where trying them has no effects. -/
def test {α : Type} (quantifier : Quantifier) (p : α → Bool) (items : List α) : Bool :=
  (quantifier.run p items).1

/-- How many elements are tried before the answer is known. -/
def examined {α : Type} (quantifier : Quantifier) (p : α → Bool) (items : List α) : Nat :=
  (quantifier.run p items).2

end Quantifier

end RecordQuery
