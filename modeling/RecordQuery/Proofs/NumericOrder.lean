import RecordQuery.Proofs.Decimal.OfInt

/-!
The order of numbers. Integers are compared as such and decimals as the rational numbers that
they stand for. An integer is compared with a decimal after it is rounded to one, which does
not turn the order around, but makes an integer equal to the decimal that it is rounded to.

So comparing is right up to this, and it is an order up to this: two integers that are rounded
to the same decimal are both equal to it, though not to each other. With integers of up to 53
bits this does not happen.
-/

namespace RecordQuery.Scalar

/-- The rational number that an integer or a finite decimal stands for. -/
def number? : Scalar → Option Rat
  | .integer n => some n.toInt
  | .decimal x => if x.isFinite then some (Decimal.toRat x) else none
  | _ => none

/-- What an integer is compared with decimals as, and a decimal with anything. -/
def rounded : Scalar → Rat
  | .integer n => Decimal.roundInt n.toInt
  | .decimal x => Decimal.toRat x
  | _ => 0

def isInteger : Scalar → Bool
  | .integer _ => true
  | _ => false

/-- Whether the first is an integer that is rounded to the second, a decimal. -/
def roundsTo (a b : Scalar) : Bool :=
  a.isInteger && !b.isInteger && a.rounded == b.rounded

def NotGreater (a b : Scalar) : Prop :=
  ∃ order, a.compare b = some order ∧ order ≠ .gt

/-- Numbers are integers and finite decimals. -/
theorem number_cases {a : Scalar} {x : Rat} (h : a.number? = some x) :
    (∃ n, a = .integer n ∧ x = (n.toInt : Int)) ∨
      ∃ d, a = .decimal d ∧ d.isFinite = true ∧ x = Decimal.toRat d := by
  cases a with
  | integer n => exact .inl ⟨n, rfl, (Option.some_inj.mp h).symm⟩
  | decimal d =>
      rw [number?] at h
      split at h
      · exact .inr ⟨d, rfl, ‹_›, (Option.some_inj.mp h).symm⟩
      · cases h
  | _ => cases h

theorem compare_words (n m : Int64) :
    Duration.compareWords n m = Ord.compare (n.toInt : Rat) (m.toInt : Rat) := by
  rw [Duration.compareWords, ← LinearOrder.compare_eq_compareOfLessAndEq, ← cmp_eq_compare,
    ← cmp_eq_compare, Int.cast_strictMono.cmp_map_eq]

theorem ofInt_word (n : Int64) :
    (Decimal.ofInt n.toInt).isFinite = true ∧
      Decimal.toRat (Decimal.ofInt n.toInt) = Decimal.roundInt n.toInt := by
  refine Decimal.toRat_ofInt _ ?_
  have hlow := Int64.le_toInt n
  have hhigh := Int64.toInt_lt n
  omega

theorem number_ofInt (n : Int64) :
    number? (.decimal (Decimal.ofInt n.toInt)) = some (Decimal.roundInt n.toInt : Rat) := by
  obtain ⟨hfinite, htoRat⟩ := ofInt_word n
  rw [number?, if_pos hfinite, htoRat]

/-- Numbers are compared as such if both are integers, else after rounding. -/
theorem compare_eq {a b : Scalar} {x y : Rat} (ha : a.number? = some x) (hb : b.number? = some y) :
    a.compare b = some (if a.isInteger && b.isInteger then Ord.compare x y
      else Ord.compare a.rounded b.rounded) := by
  rcases number_cases ha with ⟨n, rfl, rfl⟩ | ⟨d, rfl, hd, rfl⟩ <;>
    rcases number_cases hb with ⟨m, rfl, rfl⟩ | ⟨e, rfl, he, rfl⟩
  · exact congrArg some (compare_words n m)
  · obtain ⟨hfinite, htoRat⟩ := ofInt_word n
    rw [compare, Decimal.compareFloats_finite _ _ hfinite he, htoRat]
    rfl
  · obtain ⟨hfinite, htoRat⟩ := ofInt_word m
    rw [compare, Decimal.compareFloats_finite _ _ hd hfinite, htoRat]
    rfl
  · exact Decimal.compareFloats_finite d e hd he

/-- Rounding an integer does not change how it compares to another decimal than the one that
it is rounded to. -/
theorem compare_roundInt (n : Int) {y : Rat} (hy : Decimal.IsBinary y)
    (hne : (Decimal.roundInt n : Rat) ≠ y) :
    Ord.compare (Decimal.roundInt n : Rat) y = Ord.compare (n : Rat) y := by
  have ⟨hle, hge⟩ := Decimal.roundInt_faithful n hy
  rcases lt_trichotomy (n : Rat) y with h | h | h
  · rw [compare_lt_iff_lt.mpr h, compare_lt_iff_lt.mpr ((hge h.le).lt_of_ne hne)]
  · exact absurd ((hge h.le).antisymm (hle h.ge)) hne
  · rw [compare_gt_iff_gt.mpr h, compare_gt_iff_gt.mpr ((hle h.le).lt_of_ne hne.symm)]

/-- Numbers are compared as the rational numbers that they stand for, but for an integer and
the decimal that it is rounded to, which are equal. -/
theorem compare_numbers {a b : Scalar} {x y : Rat} (ha : a.number? = some x)
    (hb : b.number? = some y) :
    a.compare b = some (if a.roundsTo b || b.roundsTo a then .eq else Ord.compare x y) := by
  rw [compare_eq ha hb]
  rcases number_cases ha with ⟨n, rfl, rfl⟩ | ⟨d, rfl, hd, rfl⟩ <;>
    rcases number_cases hb with ⟨m, rfl, rfl⟩ | ⟨e, rfl, he, rfl⟩
  · rfl
  · by_cases heq : (Decimal.roundInt n.toInt : Rat) = Decimal.toRat e
    · simp [isInteger, roundsTo, rounded, heq]
    · simp [isInteger, roundsTo, rounded, heq,
        compare_roundInt n.toInt (Decimal.isBinary_toRat e) heq]
  · by_cases heq : (Decimal.roundInt m.toInt : Rat) = Decimal.toRat d
    · simp [isInteger, roundsTo, rounded, heq]
    · have h := compare_roundInt m.toInt (Decimal.isBinary_toRat d) heq
      rw [Std.OrientedOrd.eq_swap, Std.OrientedOrd.eq_swap (a := (m.toInt : Rat)),
        Ordering.swap_inj] at h
      simp [isInteger, roundsTo, rounded, heq, h]
  · rfl

/-- Integers of magnitudes up to two to the power of 53 are compared with all numbers as what
they stand for. -/
theorem compare_of_small {a b : Scalar} {x y : Rat} (ha : a.number? = some x)
    (hb : b.number? = some y)
    (hsmall : ∀ n, a = .integer n ∨ b = .integer n → |n.toInt| ≤ 2 ^ 53) :
    a.compare b = some (Ord.compare x y) := by
  rw [compare_eq ha hb]
  rcases number_cases ha with ⟨n, rfl, rfl⟩ | ⟨d, rfl, hd, rfl⟩ <;>
    rcases number_cases hb with ⟨m, rfl, rfl⟩ | ⟨e, rfl, he, rfl⟩
  · rfl
  · simp [isInteger, rounded, Decimal.roundInt_of_small _ (hsmall n (.inl rfl))]
  · simp [isInteger, rounded, Decimal.roundInt_of_small _ (hsmall m (.inr rfl))]
  · rfl

theorem notGreater_iff {a b : Scalar} {x y : Rat} (ha : a.number? = some x)
    (hb : b.number? = some y) :
    NotGreater a b ↔ if a.isInteger && b.isInteger then x ≤ y else a.rounded ≤ b.rounded := by
  rw [NotGreater, compare_eq ha hb]
  split <;> simp [compare_le_iff_le]

theorem rounded_mono {a b : Scalar} {x y : Rat} (ha : a.number? = some x) (hb : b.number? = some y)
    (hia : a.isInteger = true) (hib : b.isInteger = true) (h : x ≤ y) : a.rounded ≤ b.rounded := by
  rcases number_cases ha with ⟨n, rfl, rfl⟩ | ⟨d, rfl, hd, rfl⟩
  · rcases number_cases hb with ⟨m, rfl, rfl⟩ | ⟨e, rfl, he, rfl⟩
    · rw [rounded, rounded]
      exact_mod_cast Decimal.roundInt_mono (by exact_mod_cast h)
    · cases hib
  · cases hia

theorem rounded_le_of_notGreater {a b : Scalar} {x y : Rat} (ha : a.number? = some x)
    (hb : b.number? = some y) (h : NotGreater a b) : a.rounded ≤ b.rounded := by
  rw [notGreater_iff ha hb] at h
  split at h
  · rename_i hintegers
    rw [Bool.and_eq_true] at hintegers
    exact rounded_mono ha hb hintegers.1 hintegers.2 h
  · exact h

/-- What is not greater than what is not greater than a third number is not greater than this,
unless the first and the third are integers the wrong way round that are rounded to the second. -/
theorem notGreater_trans_iff {a b c : Scalar} {x y z : Rat} (ha : a.number? = some x)
    (hb : b.number? = some y) (hc : c.number? = some z) :
    (NotGreater a b → NotGreater b c → NotGreater a c) ↔
      ¬(a.roundsTo b = true ∧ c.roundsTo b = true ∧ z < x) := by
  constructor
  · rintro htrans ⟨hab, hcb, hlt⟩
    simp only [roundsTo, Bool.and_eq_true, Bool.not_eq_true', beq_iff_eq] at hab hcb
    obtain ⟨⟨hia, hib⟩, hround⟩ := hab
    obtain ⟨⟨hic, -⟩, hround'⟩ := hcb
    have hac := htrans ((notGreater_iff ha hb).mpr (by simp [hib, hround]))
      ((notGreater_iff hb hc).mpr (by simp [hib, hround']))
    rw [notGreater_iff ha hc, hia, hic] at hac
    exact absurd hac hlt.not_ge
  · intro hexcept hab hbc
    have hle := rounded_le_of_notGreater ha hb hab
    have hle' := rounded_le_of_notGreater hb hc hbc
    rw [notGreater_iff ha hc]
    split
    · rename_i hintegers
      obtain ⟨hia, hic⟩ := Bool.and_eq_true_iff.mp hintegers
      by_contra hlt
      have hback := rounded_mono hc ha hic hia (not_le.mp hlt).le
      cases hib : b.isInteger with
      | true =>
          -- Three integers are compared as such.
          rw [notGreater_iff ha hb, hia, hib] at hab
          rw [notGreater_iff hb hc, hib, hic] at hbc
          exact hlt (le_trans hab hbc)
      | false =>
          have hround : a.rounded = b.rounded := hle.antisymm (hle'.trans hback)
          have hround' : c.rounded = b.rounded := (hback.trans hle).antisymm hle'
          exact hexcept ⟨by simp [roundsTo, hia, hib, hround],
            by simp [roundsTo, hic, hib, hround'], not_le.mp hlt⟩
    · exact hle.trans hle'

/-- Any two numbers are comparable, and the one way is the reverse of the other. They are
compared as the rational numbers that they stand for, but for an integer and the decimal that
it is rounded to, which is the integer itself up to two to the power of 53. And not being
greater is handed on, unless two integers are rounded to the same decimal and are taken the
wrong way round. -/
theorem compare_numbers_iff (a b c : Scalar) (x y z : Rat) (ha : a.number? = some x)
    (hb : b.number? = some y) (hc : c.number? = some z) :
    (∃ order, a.compare b = some order ∧ b.compare a = some order.swap) ∧
      a.compare b = some (if a.roundsTo b || b.roundsTo a then .eq else Ord.compare x y) ∧
      ((∀ n, a = .integer n ∨ b = .integer n → |n.toInt| ≤ 2 ^ 53) →
        a.compare b = some (Ord.compare x y)) ∧
      ((NotGreater a b → NotGreater b c → NotGreater a c) ↔
        ¬(a.roundsTo b = true ∧ c.roundsTo b = true ∧ z < x)) := by
  refine ⟨⟨_, compare_numbers ha hb, ?_⟩, compare_numbers ha hb, compare_of_small ha hb,
    notGreater_trans_iff ha hb hc⟩
  rw [compare_numbers hb ha, Bool.or_comm]
  split
  · rfl
  · rw [Std.OrientedOrd.eq_swap]

/-- Two integers that are rounded to one decimal, taken the right way round. -/
theorem compare_numbers_iff_of_neighbours :
    let a : Scalar := .integer 9007199254740992
    let b : Scalar := .decimal (Decimal.ofInt 9007199254740992)
    let c : Scalar := .integer 9007199254740993
    a.number? = some 9007199254740992 ∧ b.number? = some 9007199254740992 ∧
      c.number? = some 9007199254740993 ∧ (NotGreater a b → NotGreater b c → NotGreater a c) := by
  intro a b c
  have ha : a.number? = some 9007199254740992 := rfl
  have hb : b.number? = some 9007199254740992 := number_ofInt 9007199254740992
  have hc : c.number? = some 9007199254740993 := rfl
  refine ⟨ha, hb, hc, (compare_numbers_iff a b c _ _ _ ha hb hc).2.2.2.mpr ?_⟩
  rintro ⟨-, -, hlt⟩
  exact absurd hlt (by decide)

/-- Two different integers are equal to one decimal. -/
theorem integers_equal_one_decimal :
    let a : Scalar := .integer 9007199254740993
    let b : Scalar := .decimal (Decimal.ofInt 9007199254740992)
    let c : Scalar := .integer 9007199254740992
    b.number? = some 9007199254740992 ∧
      a.compare b = some .eq ∧ b.compare c = some .eq ∧ a.compare c = some .gt :=
  ⟨number_ofInt 9007199254740992, rfl, rfl, rfl⟩

end RecordQuery.Scalar
