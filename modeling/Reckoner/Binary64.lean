import Reckoner.Scaled

/-! # Doubles as exact values

The exact value of a double without its sign, and the double nearest to an exact value. Ties go to the even significand,
and a value that lies at least half a step past the largest double becomes infinity.
-/

namespace Reckoner.Binary64

/-- The value of the leading bit of a significand, the 53rd. -/
def hidden : Nat := 0x10000000000000

/-- The exponent of the least significand bit of subnormal doubles. -/
def leastQuantum : Int := -1074

/-- The bit pattern of positive infinity. -/
def infinityBits : Nat := 2047 * hidden

/-- The value of the sign bit. -/
def signBit : Nat := 2048 * hidden

/-- The exact value of a finite double without its sign. -/
def magnitude (x : Float) : Rat :=
  let field := x.abs.toBits.toNat / hidden
  let fraction := x.abs.toBits.toNat % hidden
  if field = 0 then scaled 2 fraction leastQuantum
  else scaled 2 (hidden + fraction) (leastQuantum + (field - 1))

/-- The exponent of the greatest power of two that is no greater than a positive value. -/
def binade (value : Rat) : Int :=
  powerBelow 2 (value.num.toNat.log2 - value.den.log2) value

/-- The spacing exponent of the doubles around a positive value. -/
def quantum (value : Rat) : Int :=
  max (binade value - 52) leastQuantum

/-- The double nearest to a value that is not negative. The bit patterns of positive doubles count their steps up from
zero, so a significand that rounds up to the next binade, or past the largest double, needs no case of its own. -/
def nearest (value : Rat) : Float :=
  if value ≤ 0 then 0
  else
    let steps := roundEven (value / scaled 2 1 (quantum value))
    let bits := (quantum value - leastQuantum).toNat * hidden + steps
    Float.ofBits (UInt64.ofNat (min bits infinityBits))

end Reckoner.Binary64
