import Mathlib.Algebra.Group.Nat.Defs
import Mathlib.Data.List.TakeWhile
import RunMetrics.Binary64.Shortest

/-!
Digits of numbers. What is written of a number spells it again; zeros in front make no difference, and
zeros behind are powers of ten.
-/

set_option autoImplicit false

namespace RunMetrics

namespace Decimal

theorem ofDigits_eq_ofDigitChars (ds : List Char) : ofDigits ds = Nat.ofDigitChars 10 ds 0 :=
  Nat.ofDigitChars_eq_foldl.symm

theorem ofDigits_toDigits (n : Nat) : ofDigits (Nat.toDigits 10 n) = n := by
  rw [ofDigits_eq_ofDigitChars, Nat.ofDigitChars_toDigits (by decide) (by decide)]

theorem ofDigits_append (ds more : List Char) :
    ofDigits (ds ++ more) = ofDigits ds * 10 ^ more.length + ofDigits more := by
  rw [ofDigits_eq_ofDigitChars, Nat.ofDigitChars_append, Nat.ofDigitChars_eq_ofDigitChars_zero,
    ← ofDigits_eq_ofDigitChars, ← ofDigits_eq_ofDigitChars, Nat.mul_comm]

theorem ofDigits_replicate_zero (k : Nat) : ofDigits (List.replicate k '0') = 0 := by
  induction k with
  | zero => rfl
  | succ k ih =>
    rw [List.replicate_succ', ofDigits_append, ih]
    rfl

theorem ofDigits_zeros_append (k : Nat) (ds : List Char) :
    ofDigits (List.replicate k '0' ++ ds) = ofDigits ds := by
  rw [ofDigits_append, ofDigits_replicate_zero, Nat.zero_mul, Nat.zero_add]

theorem ofDigits_append_zeros (ds : List Char) (k : Nat) :
    ofDigits (ds ++ List.replicate k '0') = ofDigits ds * 10 ^ k := by
  rw [ofDigits_append, ofDigits_replicate_zero, List.length_replicate, Nat.add_zero]

/-! ### Width -/

theorem width_le_iff {n k : Nat} (some_digit : 0 < k) : width n ≤ k ↔ n < 10 ^ k :=
  Nat.length_toDigits_le_iff (by decide) some_digit

theorem lt_width_iff {n k : Nat} (some_digit : 0 < k) : k < width n ↔ 10 ^ k ≤ n := by
  rw [← not_iff_not, Nat.not_lt, Nat.not_le, width_le_iff some_digit]

theorem toDigits_mul_ten {n : Nat} (positive : 0 < n) :
    Nat.toDigits 10 (n * 10) = Nat.toDigits 10 n ++ ['0'] := by
  rw [Nat.toDigits_of_base_le (by decide) (by omega), Nat.mul_div_cancel n (by decide),
    Nat.mul_mod_left]
  rfl

theorem width_mul_ten {n : Nat} (positive : 0 < n) : width (n * 10) = width n + 1 := by
  rw [width, toDigits_mul_ten positive, List.length_append, List.length_singleton, width]

/-! ### Runs of digits -/

/-- Digits of which the first is not zero. -/
structure Leading (ds : List Char) : Prop where
  some_digit : ds ≠ []
  start : ds.head? ≠ some '0'
  digits : ∀ c ∈ ds, c.isDigit = true

/-- Digits as they are written before a point: a zero alone, or digits that do not start with zero. -/
inductive Plain : List Char → Prop where
  | zero : Plain ['0']
  | positive {ds : List Char} (leading : Leading ds) : Plain ds

theorem Leading.append {ds more : List Char} (leading : Leading ds)
    (digits : ∀ c ∈ more, c.isDigit = true) : Leading (ds ++ more) := by
  refine ⟨List.append_ne_nil_of_left_ne_nil leading.some_digit more, ?_, ?_⟩
  · rw [List.head?_append, List.head?_eq_some_head leading.some_digit, Option.some_or,
      ← List.head?_eq_some_head leading.some_digit]
    exact leading.start
  · intro c member
    exact (List.mem_append.1 member).elim (leading.digits c) (digits c)

theorem Leading.of_append {ds more : List Char} (leading : Leading (ds ++ more))
    (some_digit : ds ≠ []) : Leading ds := by
  have start := leading.start
  rw [List.head?_append, List.head?_eq_some_head some_digit, Option.some_or,
    ← List.head?_eq_some_head some_digit] at start
  exact ⟨some_digit, start, fun c member => leading.digits c (List.mem_append_left _ member)⟩

theorem Plain.head {ds : List Char} (plain : Plain ds) :
    ∃ d cs, ds = d :: cs ∧ d.isDigit = true := by
  cases plain with
  | zero => exact ⟨_, _, rfl, rfl⟩
  | positive leading =>
    obtain ⟨d, cs, rfl⟩ := List.exists_cons_of_ne_nil leading.some_digit
    exact ⟨d, cs, rfl, leading.digits d List.mem_cons_self⟩

theorem isDigit_of_mem_toDigits {n : Nat} {c : Char} (member : c ∈ Nat.toDigits 10 n) :
    c.isDigit = true := Nat.isDigit_of_mem_toDigits (by decide) (by decide) member

theorem isDigit_of_mem_zeros {k : Nat} {c : Char} (member : c ∈ List.replicate k '0') :
    c.isDigit = true := by
  rw [List.eq_of_mem_replicate member]
  rfl

theorem leading_toDigits {n : Nat} (positive : 0 < n) : Leading (Nat.toDigits 10 n) := by
  induction n using Nat.strongRecOn with
  | ind n ih =>
    by_cases small : n < 10
    · have digit : ∀ m < 10, 0 < m → [m.digitChar].head? ≠ some '0' := by decide
      refine ⟨Nat.toDigits_ne_nil, ?_, fun c => isDigit_of_mem_toDigits⟩
      rw [Nat.toDigits_of_lt_base small]
      exact digit n small positive
    · have digits : ∀ c ∈ Nat.toDigits 10 n, c.isDigit = true := fun c => isDigit_of_mem_toDigits
      rw [Nat.toDigits_of_base_le (by decide) (by omega)] at digits ⊢
      exact (ih (n / 10) (by omega) (by omega)).append fun c member =>
        digits c (List.mem_append_right _ member)

theorem plain_toDigits (n : Nat) : Plain (Nat.toDigits 10 n) := by
  by_cases positive : 0 < n
  · exact .positive (leading_toDigits positive)
  · have zero : n = 0 := by omega
    subst zero
    exact .zero

end Decimal

namespace Binary64

/-- The digits that are kept of a number, and the zeros that are not. -/
theorem toDigits_eq_trimmed_append (n : Nat) :
    ∃ k, Nat.toDigits 10 n = trimmedDigits n ++ List.replicate k '0' := by
  let zeros := (Nat.toDigits 10 n).reverse.takeWhile (· == '0')
  have same : zeros = List.replicate zeros.length '0' :=
    List.eq_replicate_of_mem fun c member =>
      eq_of_beq (List.mem_takeWhile_imp (p := (· == '0')) member)
  have reversed : zeros.reverse = List.replicate zeros.length '0' := by
    rw [same, List.reverse_replicate, List.length_replicate]
  refine ⟨zeros.length, ?_⟩
  calc Nat.toDigits 10 n
      = (zeros ++ (Nat.toDigits 10 n).reverse.dropWhile (· == '0')).reverse := by
        rw [List.takeWhile_append_dropWhile, List.reverse_reverse]
    _ = trimmedDigits n ++ List.replicate zeros.length '0' := by
        rw [List.reverse_append, ← trimmedDigits, reversed]

/-- A positive number does not consist of zeros. -/
theorem leading_trimmedDigits {n : Nat} (positive : 0 < n) : Decimal.Leading (trimmedDigits n) := by
  obtain ⟨k, parts⟩ := toDigits_eq_trimmed_append n
  have leading := Decimal.leading_toDigits positive
  have value := Decimal.ofDigits_toDigits n
  rw [parts] at leading value
  refine leading.of_append fun nothing => ?_
  rw [nothing, List.nil_append, Decimal.ofDigits_replicate_zero] at value
  omega

end Binary64

end RunMetrics
