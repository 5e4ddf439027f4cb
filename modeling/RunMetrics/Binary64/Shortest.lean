import RunMetrics.Binary64.Nearest

/-!
The decimal that stands for a double in text: the fewest digits that read back as the double, and
of those the nearest. On each grid of decimals, from one digit up, only the two neighbours of the
value can do; the nearer is tried first. The exact expansion, which always reads back, bounds the
search.
-/

set_option autoImplicit false

namespace RunMetrics.Binary64

/-- The exponent of ten of the first digit of a positive fraction. -/
def leadingExponent (num den : Nat) : Int :=
  if den ≤ num then (Decimal.width (num / den) : Int) - 1
  else -(Decimal.width ((den - 1) / num) : Int)

/-- The two neighbours of `num / den` among the multiples of `10 ^ exponent`, the nearer first; in
the middle the even one is first. -/
def neighbours (num den : Nat) (exponent : Int) : List Decimal :=
  let num := num * Nat.pow 10 (-exponent).toNat
  let den := den * Nat.pow 10 exponent.toNat
  let below := num / den
  let near := roundHalfEven num den
  [⟨near, exponent⟩, ⟨if near = below then below + 1 else below, exponent⟩]

/-- Seventeen digits are enough to tell any two doubles apart. -/
def digitLimit : Nat := 17

/-- Candidates for the text of `num / den`, those with fewer digits first. -/
def candidates (num den : Nat) : List Decimal :=
  (List.range digitLimit).flatMap fun (n : Nat) => neighbours num den (leadingExponent num den - (n : Int))

/-- All digits of a finite value. -/
def exact (x : Binary64) : Decimal := ⟨x.numerator * Nat.pow 5 leastExponent, -(leastExponent : Int)⟩

/-- The first candidate that reads back as the magnitude of a finite non-zero value. -/
def shortest (x : Binary64) : Decimal :=
  ((candidates x.numerator denominator).find? fun d => decimalMagnitude d = x.magnitude).getD x.exact

/-- Numbers from 0.00001 up to below 10000000000000000 are written positionally. -/
def positional (exponent : Int) : Bool := decide (-5 ≤ exponent ∧ exponent ≤ 15)

/-- The digits of a number without the zeros at its end. -/
def trimmedDigits (n : Nat) : List Char :=
  ((Nat.toDigits 10 n).reverse.dropWhile (· == '0')).reverse

/-- Digits of which the first stands for `10 ^ exponent`, with a point inside or beside them. -/
def positionalText (ds : List Char) (exponent : Int) : List Char :=
  if exponent < 0 then
    '0' :: '.' :: (List.replicate (-exponent - 1).toNat '0' ++ ds)
  else
    let whole := exponent.toNat + 1
    let fraction := ds.drop whole
    ds.take whole ++ List.replicate (whole - ds.length) '0' ++
      '.' :: (if fraction.isEmpty then ['0'] else fraction)

/-- One digit, the others behind a point, and the exponent with its sign. -/
def scientificText (ds : List Char) (exponent : Int) : List Char :=
  let mantissa := match ds with
    | [] => []
    | [d] => [d]
    | d :: rest => d :: '.' :: rest
  mantissa ++ 'e' :: (if exponent < 0 then '-' else '+') :: Nat.toDigits 10 exponent.natAbs

def decimalText (d : Decimal) : List Char :=
  let ds := trimmedDigits d.digits
  let exponent := d.height - 1
  if positional exponent then positionalText ds exponent else scientificText ds exponent

/-- The text of a finite value. -/
def text (x : Binary64) : List Char :=
  (if x.negative then ['-'] else []) ++
    if x.magnitude = 0 then ['0', '.', '0'] else decimalText x.shortest

end RunMetrics.Binary64
