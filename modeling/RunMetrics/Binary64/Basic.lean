/-!
Doubles as 64-bit words. A value keeps its word, so a NaN keeps its sign and payload and the two
zeros stay apart; what arithmetic needs is read from the word in natural numbers. The order is the
one of IEEE 754: NaN is below and above nothing, and the two zeros have one rank.
-/

set_option autoImplicit false

namespace RunMetrics

/-- A double, identified by its bits. -/
structure Binary64 where
  bits : UInt64
deriving DecidableEq, Inhabited, Hashable

namespace Binary64

/-- The weight of the sign bit, the 63rd power of two. -/
abbrev signWeight : Nat := 0x8000000000000000

/-- The weight of the lowest exponent bit, the 52nd power of two. -/
abbrev exponentWeight : Nat := 0x10000000000000

/-- All bits but the sign, as a number: larger magnitudes are larger absolute values. -/
def magnitude (x : Binary64) : Nat := x.bits.toNat % signWeight

def negative (x : Binary64) : Bool := decide (signWeight ≤ x.bits.toNat)

/-- The magnitude of the infinities: every exponent bit set, and nothing else. -/
def infiniteMagnitude : Nat := 2047 * exponentWeight

def ofMagnitude (negative : Bool) (magnitude : Nat) : Binary64 :=
  ⟨UInt64.ofNat (magnitude + if negative then signWeight else 0)⟩

/-- The quiet NaN without sign and payload. -/
def nan : Binary64 := ⟨0x7ff8000000000000⟩

def infinity : Binary64 := ⟨0x7ff0000000000000⟩

def negativeInfinity : Binary64 := ⟨0xfff0000000000000⟩

def isNaN (x : Binary64) : Bool := decide (infiniteMagnitude < x.magnitude)

def isFinite (x : Binary64) : Bool := decide (x.magnitude < infiniteMagnitude)

/-- The place of a value that is not NaN on the line of values; both zeros are at 0. -/
def rank (x : Binary64) : Int := if x.negative then -(x.magnitude : Int) else x.magnitude

/-- Strictly smaller in the order of IEEE 754. -/
def less (x y : Binary64) : Bool := !x.isNaN && !y.isNaN && decide (x.rank < y.rank)

/-- The exponent of the last place of a finite value, counted from that of the least subnormal. -/
def scale (x : Binary64) : Nat := x.magnitude / exponentWeight - 1

/-- The integer multiple of the last place that a finite value is. -/
def significand (x : Binary64) : Nat :=
  if x.magnitude < exponentWeight then x.magnitude
  else exponentWeight + x.magnitude % exponentWeight

/-- The least subnormal is the reciprocal of the 1074th power of two. A finite value is that many
times its significand, doubled as often as its scale says. -/
def leastExponent : Nat := 1074

/-- The magnitude is the scale and the significand side by side. -/
theorem magnitude_eq (x : Binary64) : x.magnitude = x.scale * exponentWeight + x.significand := by
  unfold scale significand
  simp only [exponentWeight]
  split <;> omega

end Binary64

end RunMetrics
