import RunMetrics.Proofs.DecimalDigits

/-!
The double nearest to a decimal. It depends on the number alone and not on how many zeros it is written
with, and the decimal that stands for a double in text is nearest to that double.
-/

set_option autoImplicit false

namespace RunMetrics.Binary64

/-! ### Numbers of bits -/

theorem shiftLeft_pos {m : Nat} (positive : 0 < m) (n : Nat) : 0 < m <<< n := by
  rw [Nat.shiftLeft_eq]
  exact Nat.mul_pos positive (Nat.two_pow_pos n)

theorem log2_shiftLeft {m : Nat} (positive : 0 < m) (n : Nat) : (m <<< n).log2 = m.log2 + n := by
  rw [Nat.log2_eq_iff (shiftLeft_pos positive n).ne', Nat.shiftLeft_eq, Nat.pow_add,
    Nat.add_right_comm, Nat.pow_add]
  exact ⟨Nat.mul_le_mul_right _ (Nat.log2_self_le positive.ne'),
    Nat.mul_lt_mul_of_pos_right Nat.lt_log2_self (Nat.two_pow_pos n)⟩

theorem log2_mono {m n : Nat} (le : m ≤ n) : m.log2 ≤ n.log2 := by
  by_cases zero : m = 0
  · rw [zero]
    exact Nat.zero_le _
  · have nonzero : n ≠ 0 := fun nothing => zero (Nat.le_zero.1 (nothing ▸ le))
    exact (Nat.le_log2 nonzero).2 ((Nat.log2_self_le zero).trans le)

/-! ### Rounding fractions -/

theorem roundHalfEven_mul {k : Nat} (positive : 0 < k) (num den : Nat) :
    roundHalfEven (k * num) (k * den) = roundHalfEven num den := by
  have twice : 2 * (k * (num % den)) = k * (2 * (num % den)) := by ac_rfl
  simp only [roundHalfEven, Nat.mul_div_mul_left num den positive, Nat.mul_mod_mul_left, twice,
    Nat.mul_lt_mul_left positive]

theorem roundHalfEven_of_multiple (n : Nat) {den : Nat} (positive : 0 < den) :
    roundHalfEven (n * den) den = n := by
  simp only [roundHalfEven, Nat.mul_div_cancel n positive, Nat.mul_mod_left, Nat.mul_zero, positive,
    ↓reduceIte]

theorem div_le_roundHalfEven (num den : Nat) : num / den ≤ roundHalfEven num den := by
  unfold roundHalfEven
  simp only
  split_ifs <;> omega

theorem roundHalfEven_le (num den : Nat) : roundHalfEven num den ≤ num / den + 1 := by
  unfold roundHalfEven
  simp only
  split_ifs <;> omega

/-- Rounding keeps fractions in order. Where the integers below them are the same, what is left over
them is in order too, and so a tie is not passed by one that stays below the middle. -/
theorem roundHalfEven_mono {num den more part : Nat} (positive : 0 < den) (positive' : 0 < part)
    (le : num * part ≤ more * den) : roundHalfEven num den ≤ roundHalfEven more part := by
  have floors : num / den ≤ more / part := by
    rw [Nat.le_div_iff_mul_le positive']
    refine Nat.le_of_mul_le_mul_right ?_ positive
    calc num / den * part * den = num / den * den * part := by ac_rfl
      _ ≤ num * part := Nat.mul_le_mul_right _ (Nat.div_mul_le_self num den)
      _ ≤ more * den := le
  rcases Nat.lt_or_eq_of_le floors with below | same
  · calc roundHalfEven num den ≤ num / den + 1 := roundHalfEven_le num den
      _ ≤ more / part := below
      _ ≤ roundHalfEven more part := div_le_roundHalfEven more part
  · have rests : num % den * part ≤ more % part * den := by
      have first := Nat.div_add_mod num den
      have second := Nat.div_add_mod more part
      rw [← same] at second
      rw [← first, ← second, Nat.add_mul, Nat.add_mul] at le
      have common : den * (num / den) * part = part * (num / den) * den := by ac_rfl
      omega
    have beyond : den < 2 * (num % den) → part < 2 * (more % part) := by
      intro above
      refine Nat.lt_of_mul_lt_mul_left (a := den) ?_
      calc den * part < 2 * (num % den) * part := Nat.mul_lt_mul_of_pos_right above positive'
        _ = 2 * (num % den * part) := Nat.mul_assoc _ _ _
        _ ≤ 2 * (more % part * den) := Nat.mul_le_mul_left 2 rests
        _ = den * (2 * (more % part)) := by ac_rfl
    have middle : den ≤ 2 * (num % den) → part ≤ 2 * (more % part) := by
      intro above
      refine Nat.le_of_mul_le_mul_left ?_ positive
      calc den * part ≤ 2 * (num % den) * part := Nat.mul_le_mul_right _ above
        _ = 2 * (num % den * part) := Nat.mul_assoc _ _ _
        _ ≤ 2 * (more % part * den) := Nat.mul_le_mul_left 2 rests
        _ = den * (2 * (more % part)) := by ac_rfl
    unfold roundHalfEven
    simp only [← same]
    split_ifs <;> omega

/-- The nearest double depends on the fraction, not on its terms. -/
theorem nearestMagnitude_mul {k : Nat} (positive : 0 < k) (num den : Nat) :
    nearestMagnitude (k * num) (k * den) = nearestMagnitude num den := by
  have steps : (k * num) <<< leastExponent = k * num <<< leastExponent := by
    rw [Nat.shiftLeft_eq, Nat.shiftLeft_eq, Nat.mul_assoc]
  have parts (scale : Nat) : (k * den) <<< scale = k * den <<< scale := by
    rw [Nat.shiftLeft_eq, Nat.shiftLeft_eq, Nat.mul_assoc]
  simp only [nearestMagnitude, steps, parts, Nat.mul_div_mul_left _ den positive,
    roundHalfEven_mul positive]

/-- What is rounded has 53 bits, and a carry at most. -/
theorem roundHalfEven_le_pow (steps den : Nat) :
    roundHalfEven steps (den <<< ((steps / den).log2 - 52)) ≤ 2 ^ 53 := by
  let scale := (steps / den).log2 - 52
  have below : steps / den < 2 ^ scale * 2 ^ 53 := by
    have wide : (steps / den).log2 + 1 ≤ scale + 53 := by
      simp only [scale]
      omega
    rw [← Nat.pow_add]
    exact Nat.lt_of_lt_of_le Nat.lt_log2_self (Nat.pow_le_pow_right (by decide) wide)
  have quotient : steps / (den <<< scale) < 2 ^ 53 := by
    rw [Nat.shiftLeft_eq, ← Nat.div_div_eq_div_mul]
    exact Nat.div_lt_of_lt_mul below
  exact (roundHalfEven_le _ _).trans quotient

/-- Above the lowest scale the first of the 53 bits is set. -/
theorem pow_le_roundHalfEven {steps den : Nat} (scaled : 0 < (steps / den).log2 - 52) :
    2 ^ 52 ≤ roundHalfEven steps (den <<< ((steps / den).log2 - 52)) := by
  let scale := (steps / den).log2 - 52
  have nonzero : steps / den ≠ 0 := by
    intro zero
    rw [zero] at scaled
    exact absurd scaled (by decide)
  have above : 2 ^ scale * 2 ^ 52 ≤ steps / den := by
    have wide : scale + 52 = (steps / den).log2 := by
      simp only [scale]
      omega
    rw [← Nat.pow_add, wide]
    exact Nat.log2_self_le nonzero
  have quotient : 2 ^ 52 ≤ steps / (den <<< scale) := by
    rw [Nat.shiftLeft_eq, ← Nat.div_div_eq_div_mul, Nat.le_div_iff_mul_le (Nat.two_pow_pos _)]
    rwa [Nat.mul_comm] at above
  exact quotient.trans (div_le_roundHalfEven _ _)

/-- The nearest doubles of fractions are in the order of the fractions. -/
theorem nearestMagnitude_mono {num den more part : Nat} (positive : 0 < den) (positive' : 0 < part)
    (le : num * part ≤ more * den) : nearestMagnitude num den ≤ nearestMagnitude more part := by
  let steps := num <<< leastExponent
  let steps' := more <<< leastExponent
  have finer : steps * part ≤ steps' * den := by
    simp only [steps, steps', Nat.shiftLeft_eq]
    calc num * 2 ^ leastExponent * part = num * part * 2 ^ leastExponent := Nat.mul_right_comm _ _ _
      _ ≤ more * den * 2 ^ leastExponent := Nat.mul_le_mul_right _ le
      _ = more * 2 ^ leastExponent * den := Nat.mul_right_comm _ _ _
  have wholes : steps / den ≤ steps' / part := by
    rw [Nat.le_div_iff_mul_le positive']
    refine Nat.le_of_mul_le_mul_right ?_ positive
    calc steps / den * part * den = steps / den * den * part := by ac_rfl
      _ ≤ steps * part := Nat.mul_le_mul_right _ (Nat.div_mul_le_self steps den)
      _ ≤ steps' * den := finer
  let scale := (steps / den).log2 - 52
  let scale' := (steps' / part).log2 - 52
  have scales : scale ≤ scale' := Nat.sub_le_sub_right (log2_mono wholes) 52
  change scale * exponentWeight + roundHalfEven steps (den <<< scale) ≤
    scale' * exponentWeight + roundHalfEven steps' (part <<< scale')
  rcases Nat.lt_or_eq_of_le scales with higher | same
  · have first : roundHalfEven steps (den <<< scale) ≤ 2 ^ 53 := roundHalfEven_le_pow steps den
    have second : 2 ^ 52 ≤ roundHalfEven steps' (part <<< scale') :=
      pow_le_roundHalfEven (Nat.lt_of_le_of_lt (Nat.zero_le _) higher)
    simp only [exponentWeight]
    omega
  · rw [← same]
    refine Nat.add_le_add_left (roundHalfEven_mono (shiftLeft_pos positive scale)
      (shiftLeft_pos positive' scale) ?_) _
    rw [Nat.shiftLeft_eq, Nat.shiftLeft_eq, ← Nat.mul_assoc, ← Nat.mul_assoc]
    exact Nat.mul_le_mul_right _ finer

/-! ### Decimals with zeros behind -/

theorem height_mul_ten {n : Nat} (positive : 0 < n) (q : Int) :
    Decimal.height ⟨n * 10, q - 1⟩ = Decimal.height ⟨n, q⟩ := by
  simp only [Decimal.height, Decimal.width_mul_ten positive]
  omega

theorem nearestMagnitude_mul_ten (n : Nat) (q : Int) :
    nearestMagnitude (Decimal.numerator ⟨n * 10, q - 1⟩) (Decimal.denominator ⟨n * 10, q - 1⟩) =
      nearestMagnitude (Decimal.numerator ⟨n, q⟩) (Decimal.denominator ⟨n, q⟩) := by
  simp only [Decimal.numerator, Decimal.denominator]
  by_cases positive : 0 < q
  · have one_more : q.toNat = (q - 1).toNat + 1 := by omega
    have nothing : (-(q - 1)).toNat = (-q).toNat := by omega
    rw [one_more, nothing, Nat.pow_eq, Nat.pow_eq, Nat.pow_eq, Nat.pow_succ, Nat.mul_assoc,
      Nat.mul_comm 10]
  · have one_more : (-(q - 1)).toNat = (-q).toNat + 1 := by omega
    have nothing : (q - 1).toNat = q.toNat := by omega
    rw [one_more, nothing, Nat.pow_eq, Nat.pow_eq, Nat.pow_eq, Nat.pow_succ, Nat.mul_comm n 10,
      Nat.mul_assoc, Nat.mul_comm (10 ^ (-q).toNat), nearestMagnitude_mul (by decide)]

theorem decimalMagnitude_mul_ten (n : Nat) (q : Int) :
    decimalMagnitude ⟨n * 10, q - 1⟩ = decimalMagnitude ⟨n, q⟩ := by
  by_cases zero : n = 0
  · subst zero
    simp only [decimalMagnitude, Nat.zero_mul, true_or, ↓reduceIte]
  · have positive : 0 < n := Nat.pos_of_ne_zero zero
    have more : n * 10 ≠ 0 := by omega
    simp only [decimalMagnitude, height_mul_ten positive, nearestMagnitude_mul_ten, zero, more,
      false_or]

theorem decimalMagnitude_mul_pow (n k : Nat) (q : Int) :
    decimalMagnitude ⟨n * 10 ^ k, q - k⟩ = decimalMagnitude ⟨n, q⟩ := by
  induction k with
  | zero => rw [Nat.pow_zero, Nat.mul_one, Int.ofNat_zero, Int.sub_zero]
  | succ k ih =>
    have one_less : q - (k + 1 : Nat) = q - k - 1 := by omega
    rw [one_less, Nat.pow_succ, ← Nat.mul_assoc, decimalMagnitude_mul_ten, ih]

theorem decimalMagnitude_zero (q : Int) : decimalMagnitude ⟨0, q⟩ = 0 := by
  simp only [decimalMagnitude, true_or, ↓reduceIte]

/-! ### All digits of a double -/

variable {x : Binary64}

theorem significand_pos (nonzero : x.magnitude ≠ 0) : 0 < x.significand := by
  unfold significand
  split
  · omega
  · exact Nat.lt_of_lt_of_le (by decide) (Nat.le_add_right _ _)

theorem numerator_pos (nonzero : x.magnitude ≠ 0) : 0 < x.numerator :=
  shiftLeft_pos (significand_pos nonzero) x.scale

theorem denominator_pos : 0 < denominator := shiftLeft_pos Nat.one_pos leastExponent

theorem significand_lt (x : Binary64) : x.significand < 2 * exponentWeight := by
  unfold significand
  split
  · omega
  · have := Nat.mod_lt x.magnitude (show 0 < exponentWeight by decide)
    omega

theorem scale_lt (finite : x.isFinite = true) : x.scale < 2046 := by
  have below : x.magnitude < exponentWeight * 2047 := of_decide_eq_true finite
  have quotient := Nat.div_lt_of_lt_mul below
  rw [scale]
  omega

/-- The number of bits of a double gives back its scale. -/
theorem log2_numerator (nonzero : x.magnitude ≠ 0) : x.numerator.log2 - 52 = x.scale := by
  have positive : x.numerator ≠ 0 := (numerator_pos nonzero).ne'
  by_cases small : x.magnitude < exponentWeight
  · have bottom : x.scale = 0 := by rw [scale, Nat.div_eq_of_lt small]
    have below : x.numerator < 2 ^ 52 := by
      rw [numerator, bottom, Nat.shiftLeft_zero, significand, if_pos small]
      exact small
    have bits := (Nat.log2_lt positive).2 below
    omega
  · have low : 2 ^ 52 ≤ x.significand := by
      rw [significand, if_neg small]
      exact Nat.le_add_right _ _
    have high : x.significand < 2 ^ 53 := significand_lt x
    have bits : x.significand.log2 = 52 :=
      (Nat.log2_eq_iff (significand_pos nonzero).ne').2 ⟨low, high⟩
    rw [numerator, log2_shiftLeft (significand_pos nonzero), bits, Nat.add_sub_cancel_left]

/-- A double is nearest to the fraction that it is. -/
theorem nearestMagnitude_numerator (nonzero : x.magnitude ≠ 0) :
    nearestMagnitude x.numerator denominator = x.magnitude := by
  have steps : x.numerator <<< leastExponent = x.numerator * denominator := by
    rw [denominator, Nat.shiftLeft_eq, Nat.shiftLeft_eq, Nat.one_mul]
  have places : x.numerator * denominator = x.significand * (denominator <<< x.scale) := by
    rw [numerator, Nat.shiftLeft_eq, Nat.shiftLeft_eq, Nat.mul_assoc, Nat.mul_comm (2 ^ x.scale)]
  rw [nearestMagnitude, steps, Nat.mul_div_cancel _ denominator_pos, log2_numerator nonzero, places,
    roundHalfEven_of_multiple _ (shiftLeft_pos denominator_pos x.scale), ← magnitude_eq]

theorem five_pow_pos (n : Nat) : 0 < Nat.pow 5 n := Nat.pow_pos (by decide)

theorem pow_ten_eq (n : Nat) : Nat.pow 10 n = Nat.pow 5 n * 1 <<< n := by
  rw [Nat.shiftLeft_eq, Nat.one_mul]
  exact Nat.mul_pow 5 2 n

/-- All digits of a double make the same fraction, both terms being powers of five times as large. -/
theorem nearestMagnitude_exact (nonzero : x.magnitude ≠ 0) :
    nearestMagnitude x.exact.numerator x.exact.denominator = x.magnitude := by
  have numerator : x.exact.numerator = Nat.pow 5 leastExponent * x.numerator := by
    rw [Decimal.numerator, exact, Int.toNat_neg_natCast, Nat.mul_comm]
    exact Nat.one_mul _ |>.trans (Nat.mul_comm _ _)
  have denominator : x.exact.denominator = Nat.pow 5 leastExponent * denominator := by
    rw [Decimal.denominator, exact, Int.neg_neg, Int.toNat_natCast, pow_ten_eq, denominator]
  rw [numerator, denominator, nearestMagnitude_mul (five_pow_pos _),
    nearestMagnitude_numerator nonzero]

theorem numerator_lt {n : Nat} (low : x.scale ≤ n) : x.numerator < 2 ^ 53 * 2 ^ n := by
  rw [numerator, Nat.shiftLeft_eq]
  calc x.significand * 2 ^ x.scale
      < 2 ^ 53 * 2 ^ x.scale := Nat.mul_lt_mul_of_pos_right (significand_lt x) (Nat.two_pow_pos _)
    _ ≤ 2 ^ 53 * 2 ^ n := Nat.mul_le_mul_left _ (Nat.pow_le_pow_right (by decide) low)

/-- No finite double has so many digits that its height would be beyond the limits. -/
theorem height_exact (finite : x.isFinite = true) (nonzero : x.magnitude ≠ 0) :
    -heightLimit ≤ x.exact.height ∧ x.exact.height ≤ heightLimit := by
  have low : 673 < Decimal.width x.exact.digits := by
    rw [Decimal.lt_width_iff (by decide)]
    calc 10 ^ 673 ≤ Nat.pow 5 leastExponent := by decide +kernel
      _ ≤ x.numerator * Nat.pow 5 leastExponent :=
        Nat.le_mul_of_pos_left _ (numerator_pos nonzero)
  have high : Decimal.width x.exact.digits ≤ 1474 := by
    rw [Decimal.width_le_iff (by decide)]
    calc x.numerator * Nat.pow 5 leastExponent
        < 2 ^ 53 * 2 ^ 2045 * Nat.pow 5 leastExponent :=
          Nat.mul_lt_mul_of_pos_right (numerator_lt (Nat.le_of_lt_succ (scale_lt finite))) (five_pow_pos _)
      _ ≤ 10 ^ 1474 := by decide +kernel
  have height : x.exact.height = Decimal.width x.exact.digits + -(leastExponent : Int) := rfl
  simp only [heightLimit, leastExponent] at height ⊢
  omega

theorem decimalMagnitude_exact (finite : x.isFinite = true) (nonzero : x.magnitude ≠ 0) :
    decimalMagnitude x.exact = x.magnitude := by
  obtain ⟨low, high⟩ := height_exact finite nonzero
  have digits : x.exact.digits ≠ 0 :=
    (Nat.mul_pos (numerator_pos nonzero) (five_pow_pos _)).ne'
  rw [decimalMagnitude, if_neg (by omega), if_neg (by omega), nearestMagnitude_exact nonzero]

/-- The decimal that stands for a double is nearest to it, whether it is short or has all digits. -/
theorem decimalMagnitude_shortest (finite : x.isFinite = true) (nonzero : x.magnitude ≠ 0) :
    decimalMagnitude x.shortest = x.magnitude := by
  unfold shortest
  cases found : (candidates x.numerator denominator).find? fun d =>
      decimalMagnitude d = x.magnitude with
  | none => exact decimalMagnitude_exact finite nonzero
  | some d =>
    have nearest := List.find?_some found
    exact of_decide_eq_true nearest

theorem shortest_digits_pos (finite : x.isFinite = true) (nonzero : x.magnitude ≠ 0) :
    0 < x.shortest.digits := by
  refine Nat.pos_of_ne_zero fun zero => nonzero ?_
  rw [← decimalMagnitude_shortest finite nonzero, decimalMagnitude, if_pos (Or.inl zero)]

/-! ### Sign and magnitude -/

theorem ofMagnitude_magnitude (x : Binary64) : ofMagnitude x.negative x.magnitude = x := by
  have word : x.magnitude + (if x.negative then signWeight else 0) = x.bits.toNat := by
    have bound : x.bits.toNat < 2 * signWeight := x.bits.toNat_lt
    unfold magnitude negative
    by_cases high : signWeight ≤ x.bits.toNat
    · rw [if_pos (decide_eq_true high), Nat.mod_eq_sub_mod high, Nat.mod_eq_of_lt (by omega),
        Nat.sub_add_cancel high]
    · rw [if_neg (by simpa using high), Nat.mod_eq_of_lt (by omega), Nat.add_zero]
  rw [ofMagnitude, word, UInt64.ofNat_toNat]

end RunMetrics.Binary64
