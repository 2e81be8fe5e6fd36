/-!
The operators that a clause can have, how many literals each takes and how it
is written. `Operator.all` is the order in which operators are looked for in a
query and in which its filters come out.
-/

namespace RecordQuery

/-- How many literals an operator takes. -/
inductive Arity where
  | none
  | single
  | pair
  /-- One or more. -/
  | many
  deriving DecidableEq, Repr

namespace Arity

def accepts : Arity → Nat → Bool
  | .none, count => count == 0
  | .single, count => count == 1
  | .pair, count => count == 2
  | .many, count => 1 ≤ count

/-- The number as it is written in messages. -/
def text : Arity → String
  | .none => "0"
  | .single => "1"
  | .pair => "2"
  | .many => "1 or more"

/-- As many operands as the operator takes. -/
theorem operands_of_accepts {α : Type} (arity : Arity) (operands : List α) :
    arity.accepts operands.length = true →
      match arity with
      | .none => operands = []
      | .single => ∃ u, operands = [u]
      | .pair => ∃ u v, operands = [u, v]
      | .many => operands ≠ [] := by
  intro h
  cases arity with
  | none => simpa [Arity.accepts] using h
  | single => simpa [Arity.accepts, List.length_eq_one_iff] using h
  | pair => rcases operands with _ | ⟨u, _ | ⟨v, _ | ⟨w, more⟩⟩⟩ <;> simp [Arity.accepts] at h ⊢
  | many =>
      rintro rfl
      simp [Arity.accepts] at h

end Arity

/-- The operator of a clause. -/
inductive Operator where
  | equal
  | notEqual
  | less
  | greater
  | atMost
  | atLeast
  | between
  | notBetween
  | like
  | notLike
  | ilike
  | notIlike
  | inList
  | notInList
  | isNull
  | isNotNull
  | intersects
  deriving DecidableEq, Repr

namespace Operator

/-- Every operator once: comparisons, ranges, patterns, lists, null checks and
the spatial operator. -/
def all : List Operator :=
  [.equal, .notEqual, .less, .greater, .atMost, .atLeast, .between, .notBetween, .like, .notLike,
    .ilike, .notIlike, .inList, .notInList, .isNull, .isNotNull, .intersects]

def name : Operator → String
  | .equal => "EQUAL"
  | .notEqual => "NOT_EQUAL"
  | .less => "LT"
  | .greater => "GT"
  | .atMost => "LTE"
  | .atLeast => "GTE"
  | .between => "BETWEEN"
  | .notBetween => "NOT_BETWEEN"
  | .like => "LIKE"
  | .notLike => "NOT_LIKE"
  | .ilike => "ILIKE"
  | .notIlike => "NOT_ILIKE"
  | .inList => "IN"
  | .notInList => "NOT_IN"
  | .isNull => "NULL"
  | .isNotNull => "NOT_NULL"
  | .intersects => "INTERSECTS"

/-- The operator as it is written in a query. -/
def keyword : Operator → String
  | .equal => "="
  | .notEqual => "<>"
  | .less => "<"
  | .greater => ">"
  | .atMost => "<="
  | .atLeast => ">="
  | .between => "BETWEEN"
  | .notBetween => "NOT BETWEEN"
  | .like => "LIKE"
  | .notLike => "NOT LIKE"
  | .ilike => "ILIKE"
  | .notIlike => "NOT ILIKE"
  | .inList => "IN"
  | .notInList => "NOT IN"
  | .isNull => "IS NULL"
  | .isNotNull => "IS NOT NULL"
  | .intersects => "INTERSECTS"

def arity : Operator → Arity
  | .isNull | .isNotNull => .none
  | .between | .notBetween => .pair
  | .inList | .notInList => .many
  | _ => .single

/-- Whether the operator takes a shape instead of a literal. -/
def isSpatial : Operator → Bool
  | .intersects => true
  | _ => false

/-- Whether the operator takes a text pattern instead of a literal. -/
def isPattern : Operator → Bool
  | .like | .notLike | .ilike | .notIlike => true
  | _ => false

/-- Whether the operator compares with one literal and is written without blanks. -/
def isComparison : Operator → Bool
  | .equal | .notEqual | .less | .greater | .atMost | .atLeast => true
  | _ => false

theorem mem_all (operator : Operator) : operator ∈ all := by
  cases operator <;> simp [all]

/-- A comparison takes one literal, which is neither a shape nor a text pattern. -/
theorem single_of_isComparison (operator : Operator) (hcomparison : operator.isComparison = true) :
    operator.arity = .single ∧ operator.isPattern = false ∧ operator.isSpatial = false := by
  cases operator <;> first
    | exact absurd hcomparison (by decide)
    | exact ⟨rfl, rfl, rfl⟩

theorem single_of_isPattern (operator : Operator) (hpattern : operator.isPattern = true) :
    operator.arity = .single := by
  cases operator <;> first
    | exact absurd hpattern (by decide)
    | rfl

end Operator

end RecordQuery
