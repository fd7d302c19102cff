import Reckoner.Binary64

/-! # Decimals

Exact decimal values, the double nearest to one, and the decimal written by a literal of digits and points.
-/

namespace Reckoner

/-- The exact value `digits · 10 ^ exponent`. -/
structure Decimal where
  digits : Nat
  /-- The power of ten that scales them. -/
  exponent : Int
  deriving DecidableEq

namespace Decimal

def value (d : Decimal) : Rat :=
  scaled 10 d.digits d.exponent

/-- The double nearest to the decimal. -/
def toFloat (d : Decimal) : Float :=
  Binary64.nearest d.value

/-- The decimal written by digits with `places` of them after the point. -/
def ofDigits (digits : List Char) (places : Nat) : Decimal :=
  ⟨Nat.ofDigitChars 10 digits 0, -places⟩

/-- Reads ASCII digits with at most one point among them; there must be a digit. -/
def read? (literal : List Char) : Option Decimal :=
  let whole := literal.takeWhile Char.isDigit
  match literal.dropWhile Char.isDigit with
  | [] => if whole.isEmpty then none else some (ofDigits whole 0)
  | point :: fraction =>
    if point = '.' && fraction.all Char.isDigit && !(whole ++ fraction).isEmpty then
      some (ofDigits (whole ++ fraction) fraction.length)
    else none

end Decimal

end Reckoner
