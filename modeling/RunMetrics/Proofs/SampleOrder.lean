import RunMetrics.Proofs.NearestDouble
import RunMetrics.Proofs.SampleFolds

/-!
The orders of samples: by time and by value. Whether a sample replaces another is decided by timestamp
and then by step. Values that are not NaN are in the order of the numbers that they stand for, in which
the two zeros are one number, and the infinities stand where the next doubles would.
-/

set_option autoImplicit false

namespace RunMetrics

namespace Sample

/-- Not later: at an earlier timestamp, or at the same one and at no later step. -/
def notAfter (s t : Sample) : Bool :=
  decide (s.timestamp < t.timestamp) || (s.timestamp == t.timestamp && decide (s.step ≤ t.step))

theorem replaces_eq_notAfter (candidate incumbent : Sample) :
    candidate.replaces incumbent = incumbent.notAfter candidate := by
  rw [Bool.eq_iff_iff, replaces, timeOrder, notAfter, bne_iff_ne, ne_eq, Ordering.then_eq_lt,
    Std.compare_eq_lt, Std.compare_eq_lt, Std.LawfulEqCmp.compare_eq_iff_eq]
  simp only [Bool.or_eq_true, Bool.and_eq_true, decide_eq_true_eq, beq_iff_eq,
    Int64.lt_iff_toInt_lt, Int64.le_iff_toInt_le, ← Int64.toInt_inj]
  omega

end Sample

namespace Binary64

/-- At most, in the order of IEEE 754: NaN is neither at most anything nor is anything at most NaN. -/
def atMost (x y : Binary64) : Bool := !x.isNaN && !y.isNaN && decide (x.rank ≤ y.rank)

theorem atMost_of_not_less {x y : Binary64} (first : x.isNaN = false) (second : y.isNaN = false)
    (beyond : y.less x = false) : x.atMost y = true := by
  simp only [less, first, second, Bool.not_false, Bool.true_and, decide_eq_false_iff_not] at beyond
  simp only [atMost, first, second, Bool.not_false, Bool.true_and, decide_eq_true_eq]
  omega

theorem atMost_of_less {x y : Binary64} (below : x.less y = true) : x.atMost y = true := by
  simp only [less, Bool.and_eq_true, decide_eq_true_eq] at below
  simp only [atMost, Bool.and_eq_true, decide_eq_true_eq]
  exact ⟨below.1, Int.le_of_lt below.2⟩

theorem atMost_self {x : Binary64} (number : x.isNaN = false) : x.atMost x = true := by
  simp only [atMost, number, Bool.not_false, Bool.true_and, Int.le_refl, decide_true]

/-- What is below a value is below every number that is not below that value. -/
theorem less_of_less_of_not_less {x y z : Binary64} (below : x.less y = true)
    (number : z.isNaN = false) (kept : z.less y = false) : x.less z = true := by
  simp only [less, Bool.and_eq_true, Bool.not_eq_true', decide_eq_true_eq] at below
  simp only [less, number, below.1.2, Bool.not_false, Bool.true_and, decide_eq_false_iff_not] at kept
  simp only [less, below.1.1, number, Bool.not_false, Bool.true_and, decide_eq_true_eq]
  omega

/-- And what is above a value is above every number that is not above that value. -/
theorem less_of_not_less_of_less {x y z : Binary64} (number : z.isNaN = false)
    (kept : y.less z = false) (above : y.less x = true) : z.less x = true := by
  simp only [less, Bool.and_eq_true, Bool.not_eq_true', decide_eq_true_eq] at above
  simp only [less, number, above.1.1, Bool.not_false, Bool.true_and, decide_eq_false_iff_not] at kept
  simp only [less, above.1.2, number, Bool.not_false, Bool.true_and, decide_eq_true_eq]
  omega

/-! ### The numbers behind the order -/

theorem numerator_lt_of_magnitude_lt {x y : Binary64} (smaller : x.magnitude < y.magnitude) :
    x.numerator < y.numerator := by
  have first := magnitude_eq x
  have second := magnitude_eq y
  have ordered : x.scale ≤ y.scale := by
    have quotients := Nat.div_le_div_right (c := exponentWeight) (Nat.le_of_lt smaller)
    rw [scale, scale]
    omega
  rw [numerator, numerator, Nat.shiftLeft_eq, Nat.shiftLeft_eq]
  rcases Nat.eq_or_lt_of_le ordered with same | lower
  · rw [← same] at second ⊢
    exact Nat.mul_lt_mul_of_pos_right (by omega) (Nat.two_pow_pos _)
  · -- A double with a higher scale is not subnormal, so its significand is large.
    have large : exponentWeight ≤ y.significand := by
      unfold scale at lower
      unfold significand
      split
      · rename_i subnormal
        rw [Nat.div_eq_of_lt subnormal] at lower
        omega
      · exact Nat.le_add_right _ _
    calc x.significand * 2 ^ x.scale
        < 2 * exponentWeight * 2 ^ x.scale :=
          Nat.mul_lt_mul_of_pos_right (significand_lt x) (Nat.two_pow_pos _)
      _ = exponentWeight * 2 ^ (x.scale + 1) := by rw [Nat.pow_succ]; ac_rfl
      _ ≤ exponentWeight * 2 ^ y.scale :=
          Nat.mul_le_mul_left _ (Nat.pow_le_pow_right (by decide) lower)
      _ ≤ y.significand * 2 ^ y.scale := Nat.mul_le_mul_right _ large

theorem numerator_lt_iff (x y : Binary64) : x.numerator < y.numerator ↔ x.magnitude < y.magnitude := by
  refine ⟨fun smaller => ?_, numerator_lt_of_magnitude_lt⟩
  by_contra large
  rcases Nat.eq_or_lt_of_le (Nat.le_of_not_lt large) with same | lower
  · have scales : x.scale = y.scale := by rw [scale, scale, same]
    have parts : x.significand = y.significand := by rw [significand, significand, same]
    rw [numerator, numerator, scales, parts] at smaller
    exact Nat.lt_irrefl _ smaller
  · exact Nat.lt_asymm smaller (numerator_lt_of_magnitude_lt lower)

theorem numerator_eq_zero_iff (x : Binary64) : x.numerator = 0 ↔ x.magnitude = 0 := by
  constructor
  · intro nothing
    by_contra nonzero
    exact Nat.ne_of_gt (numerator_pos nonzero) nothing
  · intro zero
    rw [numerator, significand, zero, if_pos (by decide), Nat.zero_shiftLeft]

/-- The number that a value stands for, in least subnormals. -/
def amount (x : Binary64) : Int := if x.negative then -(x.numerator : Int) else x.numerator

/-- Strictly smaller is what the numbers say. -/
theorem less_iff (x y : Binary64) :
    x.less y = true ↔ x.isNaN = false ∧ y.isNaN = false ∧ x.amount < y.amount := by
  have forth := numerator_lt_iff x y
  have back := numerator_lt_iff y x
  have here := numerator_eq_zero_iff x
  have there := numerator_eq_zero_iff y
  have ranks : x.rank < y.rank ↔ x.amount < y.amount := by
    unfold rank amount
    split <;> split <;> omega
  simp only [less, Bool.and_eq_true, Bool.not_eq_true', decide_eq_true_eq, and_assoc, ranks]

end Binary64

end RunMetrics
