import RunMetrics.Binary64.Scaled
import RunMetrics.Proofs.NearestDouble

/-!
Doubles that decimals are scaled to. They are always finite: a product beyond the upper end is refused, and
a quotient is no greater than its dividend, since rounding keeps the order and no power of ten is below one.
Where the digits and the power are doubles themselves, only the last step rounds, so the double is the
nearest one. Decimals in common use are of that kind; others may miss it.
-/

set_option autoImplicit false

namespace RunMetrics

namespace Decimal

/-! ### Digits that fit -/

/-- The number that digits spell behind another one. -/
def extend (n : Nat) (cs : List Char) : Nat := cs.foldl (fun n c => 10 * n + digitValue c) n

theorem le_extend (n : Nat) (cs : List Char) : n ≤ extend n cs := by
  induction cs generalizing n with
  | nil => exact Nat.le_refl n
  | cons c cs ih => exact Nat.le_trans (by omega) (ih (10 * n + digitValue c))

theorem fill_lt {n : Nat} (fits : n < wordBound) (cs : List Char) : (fill n cs).1 < wordBound := by
  induction cs generalizing n with
  | nil => exact fits
  | cons c cs ih =>
    rw [fill]
    split
    · rename_i more
      exact ih more
    · exact fits

/-- Digits all count if the number they spell fits. -/
theorem fill_of_fits {n : Nat} {cs : List Char} (fits : extend n cs < wordBound) :
    fill n cs = (extend n cs, []) := by
  induction cs generalizing n with
  | nil => rfl
  | cons c cs ih =>
    have more : 10 * n + digitValue c < wordBound := Nat.lt_of_le_of_lt (le_extend _ cs) fits
    rw [fill]
    simp only [more, ↓reduceIte]
    exact ih fits

theorem extend_append (n : Nat) (cs more : List Char) :
    extend n (cs ++ more) = extend (extend n cs) more := List.foldl_append

end Decimal

namespace Binary64

/-! ### Magnitudes -/

theorem magnitude_ofMagnitude (negative : Bool) {m : Nat} (fits : m < signWeight) :
    (ofMagnitude negative m).magnitude = m := by
  simp only [signWeight] at fits
  cases negative with
  | false =>
    simp only [magnitude, ofMagnitude, UInt64.toNat_ofNat', signWeight, Bool.false_eq_true,
      ↓reduceIte]
    omega
  | true =>
    simp only [magnitude, ofMagnitude, UInt64.toNat_ofNat', signWeight, ↓reduceIte]
    omega

theorem isFinite_ofMagnitude (negative : Bool) {m : Nat} (below : m < infiniteMagnitude) :
    (ofMagnitude negative m).isFinite = true := by
  rw [isFinite, magnitude_ofMagnitude negative (below.trans (by decide))]
  exact decide_eq_true below

theorem magnitude_nearest (num den : Nat) :
    (nearest num den).magnitude = min infiniteMagnitude (nearestMagnitude num den) :=
  magnitude_ofMagnitude false (Nat.lt_of_le_of_lt (Nat.min_le_left _ _) (by decide))

theorem nearestMagnitude_one_mono {m n : Nat} (le : m ≤ n) :
    nearestMagnitude m 1 ≤ nearestMagnitude n 1 :=
  nearestMagnitude_mono Nat.one_pos Nat.one_pos (Nat.mul_le_mul_right 1 le)

/-- Integers of 64 bits are far below the infinities. -/
theorem nearestMagnitude_lt_infinite {n : Nat} (small : n < 2 ^ 64) :
    nearestMagnitude n 1 < infiniteMagnitude := by
  have bound : nearestMagnitude (2 ^ 64) 1 < infiniteMagnitude := by decide +kernel
  exact Nat.lt_of_le_of_lt (nearestMagnitude_one_mono (Nat.le_of_lt small)) bound

/-! ### Scaling stays finite -/

theorem nearestMagnitude_zero (den : Nat) : nearestMagnitude 0 den = 0 := by
  simp [nearestMagnitude, roundHalfEven]

/-- Dividing by one or more makes nothing greater, not even by rounding. -/
theorem magnitude_quotient_le {x y : Binary64} (one : denominator ≤ y.numerator) :
    (x.quotient y).magnitude ≤ x.magnitude := by
  rw [quotient, magnitude_nearest]
  refine (Nat.min_le_right _ _).trans ?_
  by_cases zero : x.magnitude = 0
  · have nothing : x.numerator = 0 := by
      rw [numerator, significand, if_pos (zero ▸ by decide), zero, Nat.zero_shiftLeft]
    rw [nothing, nearestMagnitude_zero]
    exact Nat.zero_le _
  · calc nearestMagnitude x.numerator y.numerator
        ≤ nearestMagnitude x.numerator denominator :=
          nearestMagnitude_mono (Nat.lt_of_lt_of_le denominator_pos one) denominator_pos
            (Nat.mul_le_mul_left _ one)
      _ = x.magnitude := nearestMagnitude_numerator zero

/-- From the magnitude of one upwards a double is at least one. -/
theorem denominator_le_numerator {x : Binary64} (one : 1023 * exponentWeight ≤ x.magnitude) :
    denominator ≤ x.numerator := by
  obtain ⟨low, sum, scale⟩ : ∃ low, leastExponent = 52 + low ∧ low ≤ x.scale := by
    refine ⟨1022, rfl, ?_⟩
    rw [Binary64.scale]
    simp only [exponentWeight] at one ⊢
    omega
  have significand : 2 ^ 52 ≤ x.significand := by
    rw [Binary64.significand]
    simp only [exponentWeight] at one ⊢
    split <;> omega
  rw [denominator, numerator, Nat.shiftLeft_eq, Nat.shiftLeft_eq, Nat.one_mul]
  calc 2 ^ leastExponent = 2 ^ 52 * 2 ^ low := by rw [sum, Nat.pow_add]
    _ ≤ x.significand * 2 ^ x.scale :=
      Nat.mul_le_mul significand (Nat.pow_le_pow_right (by decide) scale)

theorem pow_ten_mono {m n : Nat} (le : m ≤ n) : Nat.pow 10 m ≤ Nat.pow 10 n :=
  Nat.pow_le_pow_right (by decide) le

theorem one_le_powerOfTen {n : Nat} (listed : n ≤ greatestPower) :
    denominator ≤ (powerOfTen n).numerator := by
  have one : 1023 * exponentWeight = nearestMagnitude 1 1 := by decide +kernel
  have low : 1023 * exponentWeight ≤ nearestMagnitude (Nat.pow 10 n) 1 :=
    one.trans_le (nearestMagnitude_one_mono (Nat.pow_pos (by decide)))
  have greatest : nearestMagnitude (Nat.pow 10 greatestPower) 1 < infiniteMagnitude := by
    decide +kernel
  have high : nearestMagnitude (Nat.pow 10 n) 1 < infiniteMagnitude :=
    Nat.lt_of_le_of_lt (nearestMagnitude_one_mono (pow_ten_mono listed)) greatest
  have magnitude : (powerOfTen n).magnitude = nearestMagnitude (Nat.pow 10 n) 1 :=
    magnitude_ofMagnitude false (high.trans (by decide))
  exact denominator_le_numerator (low.trans_eq magnitude.symm)

theorem magnitude_scaleDown_le (x : Binary64) (rounds : Nat) {last : Nat}
    (listed : last ≤ greatestPower) : (x.scaleDown rounds last).magnitude ≤ x.magnitude := by
  induction rounds generalizing x with
  | zero => exact magnitude_quotient_le (one_le_powerOfTen listed)
  | succ rounds ih =>
    rw [scaleDown]
    split
    · exact Nat.le_refl _
    · exact (ih _).trans (magnitude_quotient_le (one_le_powerOfTen (Nat.le_refl _)))

theorem isFinite_of_scaleUp? {x y : Binary64} {power : Nat} (found : x.scaleUp? power = some y) :
    y.isFinite = true := by
  unfold scaleUp? at found
  split at found
  · simp only at found
    split at found
    · rename_i finite
      cases found
      exact finite
    · cases found
  · split at found
    · rename_i zero
      cases found
      rw [isFinite, zero]
      decide
    · cases found

/-- Whatever double comes out is finite, if the digits fit. -/
theorem isFinite_of_scaled? {negative : Bool} {d : Decimal} {x : Binary64}
    (fits : d.digits < Decimal.wordBound) (found : scaled? negative d = some x) :
    x.isFinite = true := by
  have finite : (ofNat false d.digits).magnitude < infiniteMagnitude := by
    have below := nearestMagnitude_lt_infinite fits
    rwa [ofNat, magnitude_ofMagnitude false (below.trans (by decide))]
  obtain ⟨y, scaled, rfl⟩ := Option.map_eq_some_iff.1 found
  apply isFinite_ofMagnitude
  split at scaled
  · exact of_decide_eq_true (isFinite_of_scaleUp? scaled)
  · rename_i below_zero
    cases scaled
    refine Nat.lt_of_le_of_lt (magnitude_scaleDown_le _ _ ?_) finite
    simp only [greatestPower]
    omega

/-! ### Short decimals -/

/-- A magnitude with all 53 bits stands for its significand at its scale. -/
theorem numerator_ofMagnitude {scale significand : Nat} (low : 2 ^ 52 ≤ significand)
    (high : significand < 2 ^ 53) (fits : scale < 2046) :
    (ofMagnitude false (scale * exponentWeight + significand)).numerator =
      significand * 2 ^ scale := by
  have magnitude := magnitude_ofMagnitude false
    (m := scale * exponentWeight + significand) (by simp only [exponentWeight, signWeight]; omega)
  have place : (ofMagnitude false (scale * exponentWeight + significand)).scale = scale := by
    rw [Binary64.scale, magnitude]
    simp only [exponentWeight]
    omega
  have bits : (ofMagnitude false (scale * exponentWeight + significand)).significand =
      significand := by
    rw [Binary64.significand, magnitude]
    simp only [exponentWeight]
    split <;> omega
  rw [numerator, place, bits, Nat.shiftLeft_eq]

/-- An integer of 53 bits is a double. -/
theorem numerator_ofNat {m : Nat} (short : m < 2 ^ 53) :
    (ofNat false m).numerator = m * denominator := by
  by_cases zero : m = 0
  · subst zero
    rw [Nat.zero_mul]
    decide +kernel
  · have bits : m.log2 ≤ 52 := Nat.le_of_lt_succ ((Nat.log2_lt zero).2 short)
    let scale := m.log2 + 1022
    let rest := 52 - m.log2
    have whole : m.log2 + rest = 52 := Nat.add_sub_of_le bits
    have sum : rest + scale = leastExponent := by
      simp only [scale, leastExponent]
      omega
    have parts : 2 ^ rest * 2 ^ scale = 2 ^ leastExponent := by rw [← Nat.pow_add, sum]
    have steps : m <<< leastExponent = m * 2 ^ rest * (1 <<< scale) := by
      rw [Nat.shiftLeft_eq, Nat.shiftLeft_eq, Nat.one_mul, Nat.mul_assoc, parts]
    have place : (m <<< leastExponent).log2 - 52 = scale := by
      rw [log2_shiftLeft (Nat.pos_of_ne_zero zero)]
      simp only [scale, leastExponent]
      omega
    have magnitude : nearestMagnitude m 1 = scale * exponentWeight + m * 2 ^ rest := by
      simp only [nearestMagnitude, Nat.div_one, place]
      rw [steps, roundHalfEven_of_multiple _ (shiftLeft_pos Nat.one_pos scale)]
    have low : 2 ^ 52 ≤ m * 2 ^ rest := by
      calc 2 ^ 52 = 2 ^ m.log2 * 2 ^ rest := by rw [← Nat.pow_add, whole]
        _ ≤ m * 2 ^ rest := Nat.mul_le_mul_right _ (Nat.log2_self_le zero)
    have high : m * 2 ^ rest < 2 ^ 53 := by
      calc m * 2 ^ rest < 2 ^ (m.log2 + 1) * 2 ^ rest :=
            Nat.mul_lt_mul_of_pos_right Nat.lt_log2_self (Nat.two_pow_pos _)
        _ = 2 ^ 53 := by rw [← Nat.pow_add, Nat.add_right_comm, whole]
    rw [ofNat, magnitude, numerator_ofMagnitude low high (by simp only [scale]; omega),
      Nat.mul_assoc, parts, denominator, Nat.shiftLeft_eq, Nat.one_mul]

/-- The powers of ten that are doubles themselves. -/
theorem numerator_powerOfTen {n : Nat} (small : n ≤ 22) :
    (powerOfTen n).numerator = Nat.pow 10 n * denominator := by
  have all : ∀ n < 23, (powerOfTen n).numerator = Nat.pow 10 n * denominator := by decide +kernel
  exact all n (Nat.lt_succ_of_le small)

theorem product_of_exact {x y : Binary64} {m n : Nat} (first : x.numerator = m * denominator)
    (second : y.numerator = n * denominator) : x.product y = nearest (m * n) 1 := by
  have terms : m * denominator * (n * denominator) = denominator * denominator * (m * n) := by
    rw [Nat.mul_mul_mul_comm, Nat.mul_comm]
  have magnitude : nearestMagnitude (denominator * denominator * (m * n))
      (denominator * denominator) = nearestMagnitude (m * n) 1 := by
    have same := nearestMagnitude_mul (Nat.mul_pos denominator_pos denominator_pos) (m * n) 1
    rwa [Nat.mul_one] at same
  rw [product, first, second, terms, nearest, magnitude, nearest]

theorem quotient_of_exact {x y : Binary64} {m n : Nat} (first : x.numerator = m * denominator)
    (second : y.numerator = n * denominator) : x.quotient y = nearest m n := by
  rw [quotient, first, second, Nat.mul_comm m, Nat.mul_comm n, nearest,
    nearestMagnitude_mul denominator_pos, nearest]

/-- Decimals of at most 53 bits whose power of ten is a double itself. -/
structure Short (d : Decimal) : Prop where
  digits : d.digits < 2 ^ 53
  low : -22 ≤ d.exponent
  high : d.exponent ≤ 22

theorem Short.decimalMagnitude {d : Decimal} (short : Short d) :
    decimalMagnitude d = nearestMagnitude d.numerator d.denominator := by
  have width : Decimal.width d.digits ≤ 16 :=
    (Decimal.width_le_iff (by decide)).2 (short.digits.trans (by decide))
  have low := short.low
  have high := short.high
  unfold Binary64.decimalMagnitude
  split
  · rename_i none_or_low
    rcases none_or_low with zero | below
    · rw [Decimal.numerator, zero, Nat.zero_mul, nearestMagnitude_zero]
    · simp only [Decimal.height, heightLimit] at below
      omega
  · rw [if_neg]
    simp only [Decimal.height, heightLimit]
    omega

theorem Short.lt_infinite {d : Decimal} (short : Short d) :
    Binary64.decimalMagnitude d < infiniteMagnitude := by
  rw [short.decimalMagnitude]
  have power : d.exponent.toNat ≤ 22 := by
    have high := short.high
    omega
  have positive : 0 < d.denominator := Nat.pow_pos (by decide)
  have greater : d.numerator * 1 ≤ 2 ^ 53 * 10 ^ 22 * d.denominator :=
    calc d.numerator * 1 = d.digits * Nat.pow 10 d.exponent.toNat := Nat.mul_one _
      _ ≤ 2 ^ 53 * 10 ^ 22 :=
        Nat.mul_le_mul (Nat.le_of_lt short.digits) (Nat.pow_le_pow_right (by decide) power)
      _ ≤ 2 ^ 53 * 10 ^ 22 * d.denominator := Nat.le_mul_of_pos_right _ positive
  have greatest : nearestMagnitude (2 ^ 53 * 10 ^ 22) 1 < infiniteMagnitude := by decide +kernel
  exact Nat.lt_of_le_of_lt (nearestMagnitude_mono positive Nat.one_pos greater) greatest

theorem Short.magnitude_nearest {d : Decimal} (short : Short d) :
    (nearest d.numerator d.denominator).magnitude = Binary64.decimalMagnitude d := by
  have below := short.lt_infinite
  rw [short.decimalMagnitude] at below ⊢
  rw [Binary64.magnitude_nearest, Nat.min_eq_right (Nat.le_of_lt below)]

/-- A short decimal is scaled to the nearest double, since nothing is rounded but the result. -/
theorem Short.scaled?_eq {d : Decimal} (short : Short d) (negative : Bool) :
    scaled? negative d = some (ofMagnitude negative (Binary64.decimalMagnitude d)) := by
  have digits := numerator_ofNat short.digits
  have low := short.low
  have high := short.high
  rw [← short.magnitude_nearest]
  unfold scaled?
  simp only
  by_cases up : 0 ≤ d.exponent
  · have product : (ofNat false d.digits).product (powerOfTen d.exponent.toNat) =
        nearest d.numerator d.denominator := by
      rw [product_of_exact digits (numerator_powerOfTen (by omega)), Decimal.numerator,
        Decimal.denominator, show (-d.exponent).toNat = 0 by omega]
    have finite : (nearest d.numerator d.denominator).isFinite = true := by
      rw [isFinite, short.magnitude_nearest]
      exact decide_eq_true short.lt_infinite
    have listed : d.exponent.toNat ≤ greatestPower := by
      simp only [greatestPower]
      omega
    simp only [up, ↓reduceIte, scaleUp?, listed, product, finite, Option.map_some]
  · have quotient : (ofNat false d.digits).quotient (powerOfTen (-d.exponent).toNat) =
        nearest d.numerator d.denominator := by
      rw [quotient_of_exact digits (numerator_powerOfTen (by omega)), Decimal.numerator,
        Decimal.denominator, show d.exponent.toNat = 0 by omega]
      exact congrArg (nearest · _) (Nat.mul_one _).symm
    have once : ((-d.exponent).toNat - 1) / greatestPower = 0 :=
      Nat.div_eq_of_lt (by simp only [greatestPower]; omega)
    simp only [up, ↓reduceIte, once, Nat.mul_zero, Nat.sub_zero, scaleDown, quotient,
      Option.map_some]

end Binary64

end RunMetrics
