import RunMetrics.Binary64.Nearest

/-!
Doubles from decimals by scaling. The digits are rounded to a double first, which is then multiplied or
divided by a power of ten, itself a rounded double. Every step rounds, so the outcome may be a neighbour
of the double nearest to the decimal; and just below the upper end of the doubles a product may round to
the infinity although the decimal is no greater than the greatest double.
-/

set_option autoImplicit false

namespace RunMetrics.Binary64

/-- The double nearest to a fraction; beyond the upper end it is the infinity. -/
def nearest (num den : Nat) : Binary64 :=
  ofMagnitude false (min infiniteMagnitude (nearestMagnitude num den))

/-- The rounded product of two finite values that are not negative. -/
def product (x y : Binary64) : Binary64 :=
  nearest (x.numerator * y.numerator) (denominator * denominator)

/-- The rounded quotient of two finite values that are not negative. -/
def quotient (x y : Binary64) : Binary64 := nearest x.numerator y.numerator

/-- The greatest power of ten that is a double. -/
def greatestPower : Nat := 308

def powerOfTen (n : Nat) : Binary64 := ofNat false (Nat.pow 10 n)

/-- A value times a power of ten, unless that is beyond the upper end. -/
def scaleUp? (x : Binary64) (power : Nat) : Option Binary64 :=
  if power ≤ greatestPower then
    let y := x.product (powerOfTen power)
    if y.isFinite then some y else none
  else if x.magnitude = 0 then some x
  else none

/-- A value divided by the greatest power so many times, and then by the last power. -/
def scaleDown : Nat → Binary64 → Nat → Binary64
  | 0, x, last => x.quotient (powerOfTen last)
  | rounds + 1, x, last =>
    if x.magnitude = 0 then x else scaleDown rounds (x.quotient (powerOfTen greatestPower)) last

/-- The double of a decimal, or nothing if an infinity comes up. -/
def scaled? (negative : Bool) (d : Decimal) : Option Binary64 :=
  let x := ofNat false d.digits
  let y? :=
    if 0 ≤ d.exponent then x.scaleUp? d.exponent.toNat
    else
      let power := (-d.exponent).toNat
      let rounds := (power - 1) / greatestPower
      some (x.scaleDown rounds (power - greatestPower * rounds))
  y?.map fun y => ofMagnitude negative y.magnitude

end RunMetrics.Binary64
