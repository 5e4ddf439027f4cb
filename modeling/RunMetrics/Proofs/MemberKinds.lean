import RunMetrics.Proofs.RecordRules

/-!
The kinds of values that the members of a record hold: texts, flags, integers, names, and lists of what
fits. A reader makes something of just the values of its kind, and refuses all others for what they are.
Whether a literal is an integer of 64 bits can be told from its spelling.
-/

set_option autoImplicit false

namespace RunMetrics.Json

def IsText (v : Value) : Prop := ∃ s, v = .text s

def IsFlag (v : Value) : Prop := ∃ b, v = .bool b

/-- An integer of 64 bits with a sign. -/
def IsInt64 (v : Value) : Prop :=
  ∃ n : Int, v = .number (.integer n) ∧ -0x8000000000000000 ≤ n ∧ n < 0x8000000000000000

/-- Any number, of whatever size and with a fraction or without. -/
def IsNumber (v : Value) : Prop := ∃ x, v = .number x

def IsListOf (fits : Value → Prop) (v : Value) : Prop :=
  ∃ items, v = .list items ∧ ∀ item ∈ items, fits item

/-- One of the names, or an object with the name as its only key and null behind it. -/
def IsNamed (names : List String) (v : Value) : Prop :=
  ∃ name ∈ names, v = .text name ∨ v = .object [(name, .null)]

namespace Codec

theorem accepts_asText : Accepts asText IsText := by
  intro v
  cases v <;> simp [asText, IsText, unfit]

theorem accepts_asBool : Accepts asBool IsFlag := by
  intro v
  cases v <;> simp [asBool, IsFlag, unfit]

theorem accepts_asInt64 : Accepts asInt64 IsInt64 := by
  refine accepts_map (fun v => ?_) Int64.ofInt
  cases v with
  | number x =>
    cases x with
    | integer n =>
      by_cases inside : -0x8000000000000000 ≤ n ∧ n < 0x8000000000000000
      · simp [asInteger, IsInt64, inside]
      · simp [asInteger, IsInt64, inside, unfit]
    | real x => simp [asInteger, IsInt64, unfit]
  | _ => simp [asInteger, IsInt64, unfit]

theorem exists_named_eq_ok_iff {α : Type} {names : List (String × α)} {name : String} :
    (∃ x, named names name = .ok x) ↔ name ∈ names.map Prod.fst := by
  have known : (names.lookup name).isSome = true ↔ name ∈ names.map Prod.fst := by
    rw [List.lookup_isSome_iff, List.mem_map]
    exact exists_congr fun m => and_congr_right fun _ => ⟨fun same => (eq_of_beq same).symm,
      fun same => beq_iff_eq.2 same.symm⟩
  rw [named, ← known]
  cases names.lookup name <;> simp [unfit]

theorem asNull_eq_ok_iff {v : Value} : asNull v = .ok () ↔ v = .null := by
  cases v <;> simp [asNull, unfit]

theorem accepts_asNamed {α : Type} (names : List (String × α)) :
    Accepts (asNamed names) (IsNamed (names.map Prod.fst)) := by
  intro v
  cases v with
  | text s => simp [IsNamed, asNamed, exists_named_eq_ok_iff]
  | object members =>
    cases members with
    | nil => simp [IsNamed, asNamed, malformed]
    | cons m more =>
      constructor
      · rintro ⟨name, known, other | same⟩
        · cases other
        · cases same
          obtain ⟨x, found⟩ := exists_named_eq_ok_iff.2 known
          exact ⟨x, bind_eq_ok_iff.2 ⟨x, found, rfl⟩⟩
      · rintro ⟨x, read⟩
        obtain ⟨y, found, read⟩ := bind_eq_ok_iff.1 read
        obtain ⟨⟨⟩, null, read⟩ := bind_eq_ok_iff.1 read
        cases more with
        | nil =>
          refine ⟨m.1, exists_named_eq_ok_iff.1 ⟨y, found⟩, .inr ?_⟩
          rw [← asNull_eq_ok_iff.1 null]
        | cons other more => cases read
  | _ => simp [IsNamed, asNamed, malformed]

theorem accepts_asList {α : Type} {tree : TreeReader α} {fits : Value → Prop}
    (accepts : Accepts tree fits) : Accepts (asList tree) (IsListOf fits) := by
  intro v
  cases v with
  | list items =>
    rw [asList, exists_mapM_eq_ok_iff]
    constructor
    · rintro ⟨_, same, fit⟩
      cases same
      exact fun item member => (accepts item).1 (fit item member)
    · exact fun read => ⟨items, rfl, fun item member => (accepts item).2 (read item member)⟩
  | _ => simp [IsListOf, asList, unfit]

theorem blamesData_asText (v : Value) : BlamesData (asText v) := by
  cases v <;> nofun

theorem blamesData_asBool (v : Value) : BlamesData (asBool v) := by
  cases v <;> nofun

theorem blamesData_asInt64 (v : Value) : BlamesData (asInt64 v) := by
  refine BlamesData.map ?_ Int64.ofInt
  cases v with
  | number x =>
    cases x with
    | integer n =>
      rw [asInteger]
      split
      · exact blamesData_ok n
      · exact blamesData_unfit _
    | real x => exact blamesData_unfit _
  | _ => exact blamesData_unfit _

end Codec

/-! ### Literals -/

theorem Numeral.ofNumeral_of_not_whole {n : Numeral} (other : ¬n.Whole) (m : Int) :
    Number.ofNumeral n ≠ .ok (.integer m) := by
  intro stands
  have condition {C : Prop} [Decidable C] {value : Int} {real : Except Fault Number}
      (apart : real ≠ .ok (.integer m))
      (same : (if C then .ok (.integer value) else real) = .ok (.integer m)) : C := by
    by_contra no_integer
    exact apart ((if_neg no_integer).symm.trans same)
  obtain ⟨no_fraction, no_exponent, low, high, no_minus_zero⟩ := condition (by split <;> nofun) stands
  exact other ⟨no_fraction, no_exponent, low, high, no_minus_zero⟩

/-- An integer stands for the double that is nearest to it. -/
theorem Numeral.Whole.toBinary64_integer {n : Numeral} (whole : n.Whole) :
    (Number.integer n.integer).toBinary64 =
      Binary64.ofNat n.negative (Decimal.ofDigits n.whole) := by
  have no_minus_zero := whole.no_minus_zero
  have size : n.integer.natAbs = Decimal.ofDigits n.whole := by
    rw [integer]
    split <;> omega
  have sign : decide (n.integer < 0) = n.negative := by
    rw [integer]
    cases negative : n.negative with
    | false => exact decide_eq_false (by simp)
    | true =>
      have positive : 0 < Decimal.ofDigits n.whole :=
        Nat.pos_of_ne_zero fun zero => no_minus_zero ⟨negative, zero⟩
      exact decide_eq_true (by simp only [↓reduceIte]; omega)
  rw [Number.toBinary64, size, sign]

/-- A short literal stands for the nearest double, whether it is an integer or not. -/
theorem Numeral.ofNumeral_of_short {n : Numeral} (short : Binary64.Short n.decimal) :
    ∃ x, Number.ofNumeral n = .ok x ∧
      x.toBinary64 = Binary64.ofMagnitude n.negative (Binary64.decimalMagnitude n.decimal) := by
  by_cases whole : n.Whole
  · have decimal : n.decimal = ⟨Decimal.ofDigits n.whole, 0⟩ := by
      simp [Numeral.decimal, whole.no_fraction, whole.no_exponent]
    have nearest : Binary64.decimalMagnitude n.decimal =
        Binary64.nearestMagnitude (Decimal.ofDigits n.whole) 1 := by
      rw [short.decimalMagnitude, decimal, Decimal.numerator, Decimal.denominator]
      exact congrArg (Binary64.nearestMagnitude · 1) (Nat.mul_one _)
    exact ⟨_, whole.ofNumeral, by rw [whole.toBinary64_integer, nearest, Binary64.ofNat]⟩
  · have fits : n.decimal.digits < Decimal.wordBound := short.digits.trans (by decide)
    have scaled : Binary64.scaled? n.negative n.clipped =
        some (Binary64.ofMagnitude n.negative (Binary64.decimalMagnitude n.decimal)) := by
      rw [Numeral.clipped_of_fits fits, short.scaled?_eq]
    exact ⟨_, n.ofNumeral_of_scaled whole scaled, rfl⟩

/-- A literal is an integer of 64 bits just if it has neither point nor exponent, is not minus zero, and
its integer is in range. -/
theorem isInt64_number_iff {n : Numeral} {x : Number} (stands : Number.ofNumeral n = .ok x) :
    IsInt64 (.number x) ↔ n.fraction = none ∧ n.exponent = none ∧
      ¬(n.negative = true ∧ Decimal.ofDigits n.whole = 0) ∧
      -0x8000000000000000 ≤ n.integer ∧ n.integer < 0x8000000000000000 := by
  have bound : (0x8000000000000000 : Int) < integerBound := by decide
  by_cases whole : n.Whole
  · rw [whole.ofNumeral] at stands
    cases stands
    constructor
    · rintro ⟨m, same, inside⟩
      cases same
      exact ⟨whole.no_fraction, whole.no_exponent, whole.no_minus_zero, inside⟩
    · exact fun literal => ⟨n.integer, rfl, literal.2.2.2⟩
  · constructor
    · rintro ⟨m, same, -⟩
      cases same
      exact absurd stands (n.ofNumeral_of_not_whole whole m)
    · rintro ⟨no_fraction, no_exponent, no_minus_zero, low, high⟩
      exact absurd ⟨no_fraction, no_exponent, low, Int.lt_trans high bound, no_minus_zero⟩ whole

end RunMetrics.Json
