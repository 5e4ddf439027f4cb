import RunMetrics.Json.Lexeme
import RunMetrics.Proofs.ScaledDouble

/-!
Numbers that are written and read back. An integer is written as digits alone; a double never is, so that
the reader takes it for a double, and the decimal that its text spells is nearest to it. Whether the reader
comes back to the double is a question of how it scales that decimal: it does for short ones.
-/

set_option autoImplicit false

namespace RunMetrics

namespace Json

open Decimal (Plain ofDigits)

/-- What may stand behind a value: nothing, a blank, a comma or a closing bracket. -/
inductive EndsValue : List Char → Prop where
  | nothing : EndsValue []
  | blank {c : Char} (mark : isBlank c = true) (cs : List Char) : EndsValue (c :: cs)
  | comma (cs : List Char) : EndsValue (',' :: cs)
  | endOfList (cs : List Char) : EndsValue (']' :: cs)
  | endOfObject (cs : List Char) : EndsValue ('\x7d' :: cs)

/-- No digit stands first. -/
def Undigited (cs : List Char) : Prop := (cs.head?.any Char.isDigit) = false

theorem eq_of_isBlank {c : Char} (mark : isBlank c = true) :
    c = ' ' ∨ c = '\n' ∨ c = '\t' ∨ c = '\r' := by
  simpa only [isBlank, Bool.or_eq_true, beq_iff_eq, or_assoc] using mark

theorem EndsValue.undigited {cs : List Char} (ends : EndsValue cs) : Undigited cs := by
  cases ends with
  | blank mark cs => obtain rfl | rfl | rfl | rfl := eq_of_isBlank mark <;> rfl
  | _ => rfl

/-! ### Runs of digits -/

theorem takeWhile_digits {ds rest : List Char} (digits : ∀ c ∈ ds, c.isDigit = true)
    (undigited : Undigited rest) : (ds ++ rest).takeWhile Char.isDigit = ds := by
  rw [List.takeWhile_append_of_pos digits]
  cases rest with
  | nil => exact List.append_nil ds
  | cons c cs =>
    have other : ¬c.isDigit = true := Bool.eq_false_iff.1 undigited
    rw [List.takeWhile_cons_of_neg other, List.append_nil]

theorem dropWhile_digits {ds rest : List Char} (digits : ∀ c ∈ ds, c.isDigit = true)
    (undigited : Undigited rest) : (ds ++ rest).dropWhile Char.isDigit = rest := by
  rw [List.dropWhile_append_of_pos digits]
  cases rest with
  | nil => rfl
  | cons c cs =>
    have other : ¬c.isDigit = true := Bool.eq_false_iff.1 undigited
    rw [List.dropWhile_cons_of_neg other]

theorem wholePart_plain (mode : Mode) {ds rest : List Char} (plain : Plain ds)
    (undigited : Undigited rest) : wholePart mode (ds ++ rest) = .ok (ds, rest) := by
  cases plain with
  | zero =>
    rw [List.singleton_append, wholePart, if_pos rfl, if_neg (Bool.eq_false_iff.1 undigited)]
  | positive leading =>
    obtain ⟨d, ds, rfl⟩ := List.exists_cons_of_ne_nil leading.some_digit
    obtain ⟨first, others⟩ := List.forall_mem_cons.1 leading.digits
    have start : d ≠ '0' := fun zero => leading.start (congrArg some zero)
    rw [List.cons_append, wholePart, if_neg start, if_pos first, takeWhile_digits others undigited,
      dropWhile_digits others undigited]

theorem fractionPart_digits (mode : Mode) {ds rest : List Char} (some_digit : ds ≠ [])
    (digits : ∀ c ∈ ds, c.isDigit = true) (undigited : Undigited rest) :
    fractionPart mode ('.' :: (ds ++ rest)) = .ok (some ds, rest) := by
  obtain ⟨d, others, rfl⟩ := List.exists_cons_of_ne_nil some_digit
  have first := digits d List.mem_cons_self
  simp only [List.cons_append, fractionPart, first, ↓reduceIte]
  rw [← List.cons_append, takeWhile_digits digits undigited, dropWhile_digits digits undigited]

/-- No letter of a fraction or an exponent ends a value. -/
theorem EndsValue.fractionPart {cs : List Char} (ends : EndsValue cs) (mode : Mode) :
    fractionPart mode cs = .ok (none, cs) := by
  cases ends with
  | blank mark cs => obtain rfl | rfl | rfl | rfl := eq_of_isBlank mark <;> rfl
  | _ => rfl

theorem EndsValue.exponentPart {cs : List Char} (ends : EndsValue cs) (mode : Mode) :
    exponentPart mode cs = .ok (none, cs) := by
  cases ends with
  | blank mark cs => obtain rfl | rfl | rfl | rfl := eq_of_isBlank mark <;> rfl
  | _ => rfl

/-! ### Exponents -/

/-- The exponent that is spelled behind the digits of a number: none by nothing, and otherwise one of
some digits behind a letter and at most one sign. -/
inductive Scale : Option Int → List Char → Prop where
  | absent : Scale none []
  | plain {letter : Char} {ds : List Char} (marked : letter = 'e' ∨ letter = 'E')
      (some_digit : ds ≠ []) (digits : ∀ c ∈ ds, c.isDigit = true) :
      Scale (some (1 * ofDigits ds)) (letter :: ds)
  | plus {letter : Char} {ds : List Char} (marked : letter = 'e' ∨ letter = 'E')
      (some_digit : ds ≠ []) (digits : ∀ c ∈ ds, c.isDigit = true) :
      Scale (some (1 * ofDigits ds)) (letter :: '+' :: ds)
  | minus {letter : Char} {ds : List Char} (marked : letter = 'e' ∨ letter = 'E')
      (some_digit : ds ≠ []) (digits : ∀ c ∈ ds, c.isDigit = true) :
      Scale (some (-1 * ofDigits ds)) (letter :: '-' :: ds)

theorem exponentDigits_digits (mode : Mode) (sign : Int) {ds rest : List Char}
    (some_digit : ds ≠ []) (digits : ∀ c ∈ ds, c.isDigit = true) (undigited : Undigited rest) :
    exponentDigits mode sign (ds ++ rest) = .ok (some (sign * ofDigits ds), rest) := by
  obtain ⟨d, ds, rfl⟩ := List.exists_cons_of_ne_nil some_digit
  obtain ⟨first, others⟩ := List.forall_mem_cons.1 digits
  rw [List.cons_append, exponentDigits, if_pos first, takeWhile_digits others undigited,
    dropWhile_digits others undigited]

theorem Scale.exponentPart {exponent : Option Int} {cs rest : List Char}
    (scale : Scale exponent cs) (mode : Mode) (ends : EndsValue rest) :
    exponentPart mode (cs ++ rest) = .ok (exponent, rest) := by
  cases scale with
  | absent => exact ends.exponentPart mode
  | plus marked some_digit digits =>
    rw [List.cons_append, List.cons_append, Json.exponentPart, if_pos marked]
    exact exponentDigits_digits mode 1 some_digit digits ends.undigited
  | minus marked some_digit digits =>
    rw [List.cons_append, List.cons_append, Json.exponentPart, if_pos marked]
    exact exponentDigits_digits mode (-1) some_digit digits ends.undigited
  | plain marked some_digit digits =>
    have read := exponentDigits_digits mode 1 some_digit digits ends.undigited
    obtain ⟨d, ds, rfl⟩ := List.exists_cons_of_ne_nil some_digit
    have unsigned {sign : Char} (other : sign.isDigit = false) (cs : List Char) :
        d :: ds ++ rest = sign :: cs → False := by
      intro same
      rw [← (List.cons.inj same).1, digits d List.mem_cons_self] at other
      cases other
    rw [List.cons_append, Json.exponentPart, if_pos marked]
    · exact read
    · exact unsigned rfl
    · exact unsigned rfl

theorem Scale.undigited {exponent : Option Int} {cs rest : List Char} (scale : Scale exponent cs)
    (ends : EndsValue rest) : Undigited (cs ++ rest) := by
  cases scale with
  | absent => exact ends.undigited
  | plain marked | plus marked | minus marked => obtain rfl | rfl := marked <;> rfl

theorem Scale.fractionPart {exponent : Option Int} {cs rest : List Char}
    (scale : Scale exponent cs) (mode : Mode) (ends : EndsValue rest) :
    fractionPart mode (cs ++ rest) = .ok (none, cs ++ rest) := by
  cases scale with
  | absent => exact ends.fractionPart mode
  | plain marked | plus marked | minus marked => obtain rfl | rfl := marked <;> rfl

/-- An exponent with its sign, as it is written. -/
def writeExponent (e : Int) : List Char :=
  'e' :: (if e < 0 then '-' else '+') :: Nat.toDigits 10 e.natAbs

theorem scale_writeExponent (e : Int) : Scale (some e) (writeExponent e) := by
  have value := Decimal.ofDigits_toDigits e.natAbs
  have digits : ∀ c ∈ Nat.toDigits 10 e.natAbs, c.isDigit = true := fun c =>
    Decimal.isDigit_of_mem_toDigits
  rw [writeExponent]
  split
  · have scale := Scale.minus (Or.inl rfl) Nat.toDigits_ne_nil digits
    rwa [value, show (-1 : Int) * e.natAbs = e by omega] at scale
  · have scale := Scale.plus (Or.inl rfl) Nat.toDigits_ne_nil digits
    rwa [value, show (1 : Int) * e.natAbs = e by omega] at scale

/-! ### Numerals -/

namespace Numeral

/-- The decimal that a numeral spells, its sign apart. -/
def decimal (n : Numeral) : Decimal :=
  ⟨ofDigits (n.whole ++ n.fraction.getD []), n.exponent.getD 0 - ((n.fraction.getD []).length : Int)⟩

/-- A numeral of digits, with at least one behind a point. -/
structure Proper (n : Numeral) : Prop where
  whole : Plain n.whole
  some_digit : n.fraction ≠ some []
  digits : ∀ ds, n.fraction = some ds → ∀ c ∈ ds, c.isDigit = true

/-- A numeral with a point or an exponent, or both, is no integer's. -/
def Real (n : Numeral) : Prop := n.fraction ≠ none ∨ n.exponent ≠ none

def writeFraction (n : Numeral) : List Char :=
  match n.fraction with
  | some ds => '.' :: ds
  | none => []

def writeScale (n : Numeral) : List Char :=
  match n.exponent with
  | some e => writeExponent e
  | none => []

/-- The text of a numeral behind its sign. -/
def body (n : Numeral) : List Char := n.whole ++ (n.writeFraction ++ n.writeScale)

def write (n : Numeral) : List Char := (if n.negative then ['-'] else []) ++ n.body

/-- The letters are one of the ways to spell the numeral: they differ in the exponent only. -/
def Spelled (n : Numeral) (cs : List Char) : Prop :=
  n.Proper ∧ ∃ scale, Scale n.exponent scale ∧
    cs = (if n.negative then ['-'] else []) ++ (n.whole ++ (n.writeFraction ++ scale))

variable {n : Numeral} {rest scale : List Char}

theorem Proper.spelled_write (proper : n.Proper) : n.Spelled n.write := by
  refine ⟨proper, n.writeScale, ?_, rfl⟩
  unfold writeScale
  cases n.exponent with
  | some e => exact scale_writeExponent e
  | none => exact .absent

theorem undigited_fraction (spelled : Scale n.exponent scale) (ends : EndsValue rest) :
    Undigited (n.writeFraction ++ (scale ++ rest)) := by
  unfold writeFraction
  split
  · rfl
  · exact spelled.undigited ends

theorem Proper.fractionPart_writeFraction (proper : n.Proper) (spelled : Scale n.exponent scale)
    (mode : Mode) (ends : EndsValue rest) :
    fractionPart mode (n.writeFraction ++ (scale ++ rest)) = .ok (n.fraction, scale ++ rest) := by
  have some_digit := proper.some_digit
  have digits := proper.digits
  unfold writeFraction
  cases found : n.fraction with
  | some ds =>
    rw [found] at some_digit digits
    exact fractionPart_digits mode (fun empty => some_digit (congrArg some empty)) (digits ds rfl)
      (spelled.undigited ends)
  | none => exact spelled.fractionPart mode ends

theorem Proper.unsigned_body (proper : n.Proper) (spelled : Scale n.exponent scale) (mode : Mode)
    (ends : EndsValue rest) :
    unsignedNumeral mode n.negative (n.whole ++ (n.writeFraction ++ (scale ++ rest))) =
      .ok (n, rest) := by
  rw [unsignedNumeral, wholePart_plain mode proper.whole (undigited_fraction spelled ends)]
  simp only [bind, Except.bind, proper.fractionPart_writeFraction spelled mode ends,
    spelled.exponentPart mode ends]

/-- A numeral is read back from any of its spellings, whatever value ends behind it. -/
theorem Spelled.numeral {cs : List Char} (spelled : n.Spelled cs) (mode : Mode)
    (ends : EndsValue rest) : numeral mode (cs ++ rest) = .ok (n, rest) := by
  obtain ⟨proper, scale, exponent, rfl⟩ := spelled
  have body := proper.unsigned_body exponent mode ends
  rw [List.append_assoc, List.append_assoc, List.append_assoc]
  cases negative : n.negative with
  | true =>
    rw [negative] at body
    exact body
  | false =>
    rw [negative] at body
    obtain ⟨d, ds, whole, digit⟩ := proper.whole.head
    have unsigned : d ≠ '-' := by
      rintro rfl
      cases digit
    rw [if_neg Bool.false_ne_true, List.nil_append, whole, List.cons_append]
    rw [whole, List.cons_append] at body
    unfold Json.numeral
    split
    · rename_i same
      exact absurd (List.cons.inj same).1 unsigned
    · exact body

theorem Spelled.head {cs : List Char} (spelled : n.Spelled cs) :
    ∃ c more, cs = c :: more ∧ startsNumber c = true := by
  obtain ⟨proper, scale, -, rfl⟩ := spelled
  cases n.negative with
  | true => exact ⟨'-', _, rfl, rfl⟩
  | false =>
    obtain ⟨d, ds, whole, digit⟩ := proper.whole.head
    refine ⟨d, _, by rw [if_neg Bool.false_ne_true, List.nil_append, whole, List.cons_append], ?_⟩
    rw [startsNumber, digit, Bool.or_true]

end Numeral

/-! ### Integers -/

/-- The text spells a numeral which stands for the number. -/
def Denotes (cs : List Char) (value : Number) : Prop :=
  ∃ n : Numeral, n.Spelled cs ∧ Number.ofNumeral n = .ok value

theorem Denotes.number {cs rest : List Char} {value : Number} (denotes : Denotes cs value)
    (ends : EndsValue rest) : number (cs ++ rest) = .ok (value, rest) := by
  obtain ⟨n, spelled, stands⟩ := denotes
  rw [Json.number, spelled.numeral .take ends]
  simp only [bind, Except.bind, stands]

theorem Denotes.head {cs : List Char} {value : Number} (denotes : Denotes cs value) :
    ∃ c more, cs = c :: more ∧ startsNumber c = true := by
  obtain ⟨n, spelled, -⟩ := denotes
  exact spelled.head

theorem denotes_writeInteger {value : Int} (low : leastInteger ≤ value)
    (high : value < integerBound) : Denotes (writeInteger value) (.integer value) := by
  let n : Numeral := ⟨decide (value < 0), Nat.toDigits 10 value.natAbs, none, none⟩
  have proper : n.Proper := ⟨Decimal.plain_toDigits _, nofun, nofun⟩
  have written : writeInteger value = n.write := by
    rw [writeInteger, Numeral.write, Numeral.body, Numeral.writeFraction, Numeral.writeScale,
      List.append_nil, List.append_nil]
    simp only [n, decide_eq_true_eq]
  have digits : ofDigits n.whole = value.natAbs := Decimal.ofDigits_toDigits _
  have signed : (if n.negative then -(value.natAbs : Int) else value.natAbs) = value := by
    simp only [n, decide_eq_true_eq]
    omega
  have no_minus_zero : ¬(n.negative = true ∧ value.natAbs = 0) := by
    simp only [n, decide_eq_true_eq]
    omega
  refine ⟨n, written ▸ proper.spelled_write, ?_⟩
  simp only [Number.ofNumeral, digits, signed]
  rw [if_pos ⟨rfl, rfl, low, high, no_minus_zero⟩]

/-! ### Doubles -/

/-- The text is that of a numeral without sign, not an integer's, whose decimal is nearest to the double
of the given magnitude. -/
def Spells (cs : List Char) (magnitude : Nat) : Prop :=
  ∃ n : Numeral, n.Proper ∧ n.Real ∧ n.body = cs ∧ Binary64.decimalMagnitude n.decimal = magnitude

/-- The decimal of digits of which the first stands for `10 ^ exponent`. -/
def scaled (ds : List Char) (exponent : Int) : Decimal :=
  ⟨ofDigits ds, exponent + 1 - (ds.length : Int)⟩

variable {ds : List Char}

theorem spells_small (leading : Decimal.Leading ds) {e : Int} (negative : e < 0) :
    Spells (Binary64.positionalText ds e) (Binary64.decimalMagnitude (scaled ds e)) := by
  let zeros := List.replicate (-e - 1).toNat '0'
  let n : Numeral := ⟨false, ['0'], some (zeros ++ ds), none⟩
  have digits : ∀ c ∈ zeros ++ ds, c.isDigit = true := fun c member =>
    (List.mem_append.1 member).elim Decimal.isDigit_of_mem_zeros (leading.digits c)
  have some_digit : zeros ++ ds ≠ [] := List.append_ne_nil_of_right_ne_nil zeros leading.some_digit
  have value : ofDigits ('0' :: (zeros ++ ds)) = ofDigits ds := by
    rw [← List.cons_append, ← List.replicate_succ, Decimal.ofDigits_zeros_append]
  have length : ((zeros ++ ds).length : Int) = -e - 1 + ds.length := by
    rw [List.length_append, List.length_replicate]
    omega
  refine ⟨n, ⟨.zero, fun same => some_digit (Option.some.inj same), ?_⟩, Or.inl nofun, ?_, ?_⟩
  · rintro _ ⟨⟩
    exact digits
  · rw [Binary64.positionalText, if_pos negative, Numeral.body]
    simp only [n, zeros, Numeral.writeFraction, Numeral.writeScale, List.append_nil,
      List.singleton_append]
  · have exponent : 0 - ((zeros ++ ds).length : Int) = e + 1 - ds.length := by omega
    simp only [Numeral.decimal, n, Option.getD_some, Option.getD_none, List.singleton_append, value,
      exponent, scaled]

theorem positionalText_of_nonneg (ds : List Char) {e : Int} (positive : 0 ≤ e) :
    Binary64.positionalText ds e =
      ds.take (e.toNat + 1) ++ List.replicate (e.toNat + 1 - ds.length) '0' ++
        '.' :: (if (ds.drop (e.toNat + 1)).isEmpty then ['0'] else ds.drop (e.toNat + 1)) :=
  if_neg (by omega)

/-- The point stands behind all digits and, it may be, zeros that fill up their places. -/
theorem spells_whole (leading : Decimal.Leading ds) {e : Int} (positive : 0 ≤ e)
    (short : ds.length ≤ e.toNat + 1) :
    Spells (Binary64.positionalText ds e) (Binary64.decimalMagnitude (scaled ds e)) := by
  let zeros := List.replicate (e.toNat + 1 - ds.length) '0'
  let n : Numeral := ⟨false, ds ++ zeros, some ['0'], none⟩
  refine ⟨n, ⟨.positive (leading.append fun c => Decimal.isDigit_of_mem_zeros), nofun, ?_⟩,
    Or.inl nofun, ?_, ?_⟩
  · rintro _ ⟨⟩
    exact List.forall_mem_singleton.2 rfl
  · rw [positionalText_of_nonneg ds positive, List.drop_eq_nil_of_le short,
      List.take_of_length_le short]
    simp only [n, zeros, Numeral.body, Numeral.writeFraction, Numeral.writeScale, List.append_nil,
      List.isEmpty_nil, ↓reduceIte]
  · let k := e.toNat + 1 - ds.length + 1
    have value : ofDigits (ds ++ zeros ++ ['0']) = ofDigits ds * 10 ^ k := by
      rw [List.append_assoc, ← List.replicate_succ', Decimal.ofDigits_append_zeros]
    have exponent : (0 : Int) - (1 : Nat) = e + 1 - ds.length - k := by omega
    simp only [Numeral.decimal, n, Option.getD_some, Option.getD_none, List.length_singleton, value,
      exponent, Binary64.decimalMagnitude_mul_pow, scaled]

/-- The point stands between digits. -/
theorem spells_mixed (leading : Decimal.Leading ds) {e : Int} (positive : 0 ≤ e)
    (long : e.toNat + 1 < ds.length) :
    Spells (Binary64.positionalText ds e) (Binary64.decimalMagnitude (scaled ds e)) := by
  let whole := ds.take (e.toNat + 1)
  let fraction := ds.drop (e.toNat + 1)
  have parts : whole ++ fraction = ds := List.take_append_drop _ ds
  have length : fraction.length = ds.length - (e.toNat + 1) := List.length_drop
  have some_digit : fraction ≠ [] := List.ne_nil_of_length_pos (by omega)
  have start : whole ≠ [] := List.ne_nil_of_length_pos (by rw [List.length_take]; omega)
  let n : Numeral := ⟨false, whole, some fraction, none⟩
  refine ⟨n, ⟨.positive ((parts ▸ leading).of_append start), fun same =>
    some_digit (Option.some.inj same), ?_⟩, Or.inl nofun, ?_, ?_⟩
  · rintro _ ⟨⟩ c member
    exact leading.digits c (List.mem_of_mem_drop member)
  · have no_zeros : e.toNat + 1 - ds.length = 0 := by omega
    rw [positionalText_of_nonneg ds positive, no_zeros, List.replicate_zero, List.append_nil,
      if_neg fun nothing => some_digit (List.isEmpty_iff.1 nothing)]
    simp only [n, whole, fraction, Numeral.body, Numeral.writeFraction, Numeral.writeScale,
      List.append_nil]
  · have exponent : (0 : Int) - fraction.length = e + 1 - ds.length := by omega
    simp only [Numeral.decimal, n, Option.getD_some, Option.getD_none, parts, exponent, scaled]

theorem spells_positional (leading : Decimal.Leading ds) (e : Int) :
    Spells (Binary64.positionalText ds e) (Binary64.decimalMagnitude (scaled ds e)) := by
  by_cases negative : e < 0
  · exact spells_small leading negative
  · by_cases short : ds.length ≤ e.toNat + 1
    · exact spells_whole leading (by omega) short
    · exact spells_mixed leading (by omega) (by omega)

theorem spells_scientific (leading : Decimal.Leading ds) (e : Int) :
    Spells (Binary64.scientificText ds e) (Binary64.decimalMagnitude (scaled ds e)) := by
  obtain ⟨d, rest, rfl⟩ := List.exists_cons_of_ne_nil leading.some_digit
  have parts : Decimal.Leading ([d] ++ rest) := leading
  have first : Plain [d] := .positive (parts.of_append (List.cons_ne_nil d []))
  cases rest with
  | nil =>
    let n : Numeral := ⟨false, [d], none, some e⟩
    refine ⟨n, ⟨first, nofun, nofun⟩, Or.inr nofun, rfl, ?_⟩
    have exponent : e - (0 : Nat) = e + 1 - (1 : Nat) := by omega
    simp only [Numeral.decimal, n, Option.getD_some, Option.getD_none, List.append_nil,
      List.length_nil, List.length_singleton, exponent, scaled]
  | cons c cs =>
    let n : Numeral := ⟨false, [d], some (c :: cs), some e⟩
    refine ⟨n, ⟨first, nofun, ?_⟩, Or.inl nofun, rfl, ?_⟩
    · rintro _ ⟨⟩ b member
      exact leading.digits b (List.mem_cons_of_mem d member)
    · have exponent : e - ((c :: cs).length : Int) = e + 1 - ((d :: c :: cs).length : Int) := by
        rw [List.length_cons (a := d)]
        omega
      simp only [Numeral.decimal, n, Option.getD_some, List.singleton_append, exponent, scaled]

/-- The text of a decimal spells it, without the zeros at its end. -/
theorem spells_decimalText {d : Decimal} (positive : 0 < d.digits) :
    Spells (Binary64.decimalText d) (Binary64.decimalMagnitude d) := by
  obtain ⟨k, parts⟩ := Binary64.toDigits_eq_trimmed_append d.digits
  have leading := Binary64.leading_trimmedDigits positive
  have value := Decimal.ofDigits_toDigits d.digits
  rw [parts, Decimal.ofDigits_append_zeros] at value
  have width : Decimal.width d.digits = (Binary64.trimmedDigits d.digits).length + k := by
    rw [Decimal.width, parts, List.length_append, List.length_replicate]
  have exponent : d.height - 1 + 1 - ((Binary64.trimmedDigits d.digits).length : Int) =
      d.exponent + k := by
    rw [Decimal.height, width]
    omega
  have same : Binary64.decimalMagnitude (scaled (Binary64.trimmedDigits d.digits) (d.height - 1)) =
      Binary64.decimalMagnitude d := by
    rw [scaled, exponent, ← Binary64.decimalMagnitude_mul_pow _ k, value, Int.add_sub_cancel]
  rw [← same]
  change Spells (if Binary64.positional (d.height - 1) then
    Binary64.positionalText (Binary64.trimmedDigits d.digits) (d.height - 1) else
    Binary64.scientificText (Binary64.trimmedDigits d.digits) (d.height - 1)) _
  split
  · exact spells_positional leading _
  · exact spells_scientific leading _

/-- The text of a finite double is that of a decimal nearest to it, and never an integer's. -/
theorem exists_spelled_text {x : Binary64} (finite : x.isFinite = true) :
    ∃ n : Numeral, n.Spelled x.text ∧ n.Real ∧ n.negative = x.negative ∧
      Binary64.decimalMagnitude n.decimal = x.magnitude := by
  have spells : Spells (if x.magnitude = 0 then ['0', '.', '0'] else
      Binary64.decimalText x.shortest) x.magnitude := by
    by_cases zero : x.magnitude = 0
    · rw [if_pos zero, zero]
      refine ⟨⟨false, ['0'], some ['0'], none⟩, ⟨.zero, nofun, ?_⟩, Or.inl nofun, rfl,
        Binary64.decimalMagnitude_zero _⟩
      rintro _ ⟨⟩
      exact List.forall_mem_singleton.2 rfl
    · rw [if_neg zero, ← Binary64.decimalMagnitude_shortest finite zero]
      exact spells_decimalText (Binary64.shortest_digits_pos finite zero)
  obtain ⟨n, proper, real, body, nearest⟩ := spells
  let signed : Numeral := { n with negative := x.negative }
  have kept : signed.Proper := ⟨proper.whole, proper.some_digit, proper.digits⟩
  have text : signed.write = x.text := by
    rw [Binary64.text, ← body]
    rfl
  exact ⟨signed, text ▸ kept.spelled_write, real, rfl, nearest⟩

/-! ### Integers and doubles -/

/-- The integer that a literal spells before its point, with its sign. -/
def Numeral.integer (n : Numeral) : Int :=
  if n.negative then -(Decimal.ofDigits n.whole : Int) else Decimal.ofDigits n.whole

/-- The literals whose values are integers; all others are doubles. -/
structure Numeral.Whole (n : Numeral) : Prop where
  no_fraction : n.fraction = none
  no_exponent : n.exponent = none
  low : leastInteger ≤ n.integer
  high : n.integer < integerBound
  no_minus_zero : ¬(n.negative = true ∧ Decimal.ofDigits n.whole = 0)

theorem Numeral.Whole.ofNumeral {n : Numeral} (whole : n.Whole) :
    Number.ofNumeral n = .ok (.integer n.integer) := by
  have low := whole.low
  have high := whole.high
  rw [Numeral.integer] at low high ⊢
  exact if_pos ⟨whole.no_fraction, whole.no_exponent, low, high, whole.no_minus_zero⟩

theorem Numeral.ofNumeral_of_scaled {n : Numeral} (other : ¬n.Whole) {x : Binary64}
    (scaled : Binary64.scaled? n.negative n.clipped = some x) :
    Number.ofNumeral n = .ok (.real x) := by
  simp only [Number.ofNumeral]
  rw [if_neg, scaled]
  rintro ⟨no_fraction, no_exponent, low, high, no_minus_zero⟩
  exact other ⟨no_fraction, no_exponent, low, high, no_minus_zero⟩

/-! ### Reading back -/

/-- Letters spell one numeral at most. -/
theorem Numeral.Spelled.unique {m n : Numeral} {cs : List Char} (first : m.Spelled cs)
    (second : n.Spelled cs) : m = n := by
  have read := first.numeral .take .nothing
  rw [second.numeral .take .nothing] at read
  cases read
  rfl

/-- Digits that all fit are clipped nowhere. -/
theorem Numeral.clipped_of_fits {n : Numeral} (fits : n.decimal.digits < Decimal.wordBound) :
    n.clipped = n.decimal := by
  have all : Decimal.extend (Decimal.extend 0 n.whole) (n.fraction.getD []) < Decimal.wordBound := by
    rw [← Decimal.extend_append]
    exact fits
  have whole : Decimal.extend 0 n.whole < Decimal.wordBound :=
    Nat.lt_of_le_of_lt (Decimal.le_extend _ _) all
  rw [clipped, Decimal.fill_of_fits whole]
  simp only [Decimal.fill_of_fits all, decimal, List.length_nil, Nat.sub_zero, Int.ofNat_zero,
    Int.add_zero]
  rw [← Decimal.extend_append]
  rfl

end Json

namespace Binary64

/-- If the double is finite, its text is read as the double itself. -/
def ReadsBack (x : Binary64) : Prop :=
  x.isFinite = true → Json.number x.text = .ok (.real x, [])

instance (x : Binary64) : Decidable x.ReadsBack := inferInstanceAs (Decidable (_ → _))

theorem ReadsBack.denotes {x : Binary64} (back : x.ReadsBack) (finite : x.isFinite = true) :
    Json.Denotes x.text (.real x) := by
  obtain ⟨n, spelled, -⟩ := Json.exists_spelled_text finite
  have numeral := spelled.numeral .take .nothing
  have read := back finite
  rw [List.append_nil] at numeral
  rw [Json.number, numeral] at read
  refine ⟨n, spelled, ?_⟩
  cases stands : Json.Number.ofNumeral n with
  | error f => simp only [stands, bind, Except.bind, reduceCtorEq] at read
  | ok value =>
    simp only [stands, bind, Except.bind, Except.ok.injEq, Prod.mk.injEq, and_true] at read
    rw [read]

/-- A double reads back if its text spells a short decimal. -/
theorem readsBack_of_short {x : Binary64} {n : Json.Numeral} (spelled : n.Spelled x.text)
    (short : Short n.decimal) : x.ReadsBack := by
  intro finite
  obtain ⟨m, again, real, sign, nearest⟩ := Json.exists_spelled_text finite
  cases again.unique spelled
  have fits : n.decimal.digits < Decimal.wordBound := short.digits.trans (by decide)
  have scaled : scaled? n.negative n.clipped = some x := by
    rw [Json.Numeral.clipped_of_fits fits, short.scaled?_eq, nearest, sign, ofMagnitude_magnitude]
  have no_integer : ¬n.Whole := fun whole =>
    real.elim (fun point => point whole.no_fraction) fun power => power whole.no_exponent
  have denotes : Json.Denotes x.text (.real x) :=
    ⟨n, spelled, n.ofNumeral_of_scaled no_integer scaled⟩
  have read := denotes.number .nothing
  rwa [List.append_nil] at read

end Binary64

end RunMetrics
