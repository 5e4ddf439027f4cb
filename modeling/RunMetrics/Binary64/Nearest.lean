import RunMetrics.Binary64.Basic
import RunMetrics.Decimal

/-!
Rounding to doubles, in exact integer arithmetic. A positive fraction is measured in steps of the
least subnormal; the number of bits of that measure fixes the scale, and the multiple of the last
place is the nearest one, a tie going to the even one. A carry out of the significand moves to the
next scale by itself, since the magnitude is the scale and the significand side by side.
-/

set_option autoImplicit false

namespace RunMetrics.Binary64

/-- The integer nearest to `num / den`; of two equally near ones the even one. -/
def roundHalfEven (num den : Nat) : Nat :=
  let floor := num / den
  let twice := 2 * (num % den)
  if twice < den then floor
  else if den < twice then floor + 1
  else if floor % 2 = 0 then floor
  else floor + 1

/-- The magnitude of the double nearest to `num / den`, as if exponents had no upper end. -/
def nearestMagnitude (num den : Nat) : Nat :=
  let steps := num <<< leastExponent
  let scale := (steps / den).log2 - 52
  scale * exponentWeight + roundHalfEven steps (den <<< scale)

/-- The double nearest to a natural number that fits 64 bits, or more generally is not too large. -/
def ofNat (negative : Bool) (n : Nat) : Binary64 := ofMagnitude negative (nearestMagnitude n 1)

/-- Decimals at or above `10 ^ heightLimit` are beyond every double, and those below
`10 ^ -heightLimit` are nearest to zero; between the two the exact powers stay small. -/
def heightLimit : Int := 400

/-- The magnitude of the double nearest to a decimal. -/
def decimalMagnitude (d : Decimal) : Nat :=
  if d.digits = 0 ∨ d.height < -heightLimit then 0
  else if heightLimit < d.height then infiniteMagnitude
  else nearestMagnitude d.numerator d.denominator

/-- A finite value as a fraction over the 1074th power of two. -/
def numerator (x : Binary64) : Nat := x.significand <<< x.scale

def denominator : Nat := 1 <<< leastExponent

end RunMetrics.Binary64
