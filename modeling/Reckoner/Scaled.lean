/-! # Scaled integers

Exact values of the form `significand · base ^ exponent`, which both number formats of this library denote, the rounding
of an exact value to an integer, and the power that an exact value lies above.
-/

namespace Reckoner

/-- The exact value `significand · base ^ exponent`. -/
def scaled (base significand : Nat) : (exponent : Int) → Rat
  | .ofNat n => ((significand * Nat.pow base n : Nat) : Rat)
  | .negSucc n => mkRat significand (Nat.pow base (n + 1))

/-- The integer nearest to a value that is not negative; a value midway goes to the even neighbour. -/
def roundEven (value : Rat) : Nat :=
  let whole := value.num.toNat / value.den
  let rest := value.num.toNat % value.den
  if 2 * rest < value.den then whole
  else if value.den < 2 * rest then whole + 1
  else whole + whole % 2

/-- The exponent of the greatest power of `base` that is no greater than a positive value, which is an estimate or one
less. -/
def powerBelow (base : Nat) (estimate : Int) (value : Rat) : Int :=
  if scaled base 1 estimate ≤ value then estimate else estimate - 1

end Reckoner
