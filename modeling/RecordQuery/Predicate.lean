import RecordQuery.Like
import RecordQuery.Operator
import RecordQuery.Scalar

/-!
Predicates: operators with their resolved operands, as tests of one scalar. The
negated form of a test passes exactly where the test does not. Scalars that are
not comparable are neither equal nor in a range nor on one side of a bound.
-/

namespace RecordQuery

/-- A test of values. The last two are about the value as a whole. -/
inductive Predicate where
  | equal (negated : Bool) (expected : Scalar)
  /-- Passes for the orders of the scalar to the bound that are accepted. -/
  | ordered (accepts : Ordering → Bool) (bound : Scalar)
  | between (negated : Bool) (lower upper : Scalar)
  | like (negated caseless : Bool) (pattern : String)
  | inList (negated : Bool) (candidates : List Scalar)
  | null (negated : Bool)

namespace Scalar

def equals (a b : Scalar) : Bool :=
  a.compare b == some .eq

/-- Whether the scalar is comparable with both bounds and between them or equal to one. -/
def isBetween (value lower upper : Scalar) : Bool :=
  (value.compare lower).any (· != .lt) && (value.compare upper).any (· != .gt)

end Scalar

namespace Predicate

def test (predicate : Predicate) (value : Scalar) : Bool :=
  match predicate with
  | .equal negated expected => value.equals expected != negated
  | .ordered accepts bound => (value.compare bound).any accepts
  | .between negated lower upper => value.isBetween lower upper != negated
  | .like negated caseless pattern =>
    Like.accepts caseless pattern.toList value.render.toList != negated
  | .inList negated candidates => candidates.any value.equals != negated
  | .null _ => false

end Predicate

end RecordQuery
