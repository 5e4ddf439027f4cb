/-!
Decimal numbers `digits * 10 ^ exponent`, and their digits as text. Both what a number literal says
and what is printed for a double pass through this type.
-/

set_option autoImplicit false

namespace RunMetrics

/-- The non-negative number `digits * 10 ^ exponent`. -/
structure Decimal where
  digits : Nat
  exponent : Int
deriving DecidableEq

namespace Decimal

/-- The number as a fraction, the denominator being a power of ten. -/
def numerator (d : Decimal) : Nat := d.digits * Nat.pow 10 d.exponent.toNat

def denominator (d : Decimal) : Nat := Nat.pow 10 (-d.exponent).toNat

/-- How many digits a positive number has when written without leading zeros. -/
def width (n : Nat) : Nat := (Nat.toDigits 10 n).length

/-- The power of ten just above a positive number: the number is below `10 ^ height`. -/
def height (d : Decimal) : Int := width d.digits + d.exponent

def digitValue (c : Char) : Nat := c.toNat - '0'.toNat

/-- The number that a run of digits spells. -/
def ofDigits (cs : List Char) : Nat := cs.foldl (fun n c => 10 * n + digitValue c) 0

/-- The least number that 64 bits cannot hold. -/
def wordBound : Nat := 0x10000000000000000

/-- Digits written behind a number as long as 64 bits hold it, and the digits that are left from the
first one that does not fit. -/
def fill : Nat → List Char → Nat × List Char
  | n, [] => (n, [])
  | n, c :: cs =>
    let more := 10 * n + digitValue c
    if more < wordBound then fill more cs else (n, c :: cs)

end Decimal

end RunMetrics
