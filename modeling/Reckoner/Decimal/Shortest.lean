import Reckoner.Decimal

/-! # The shortest decimal of a double

The decimal with the fewest digits that reads back as a given double. On the grid of decimals with a given digit count only
the two neighbours of the exact value need a test; of two that read back the nearer one is taken.
-/

namespace Reckoner.Decimal

/-- The exponent of the greatest power of ten that is no greater than a positive value. -/
def leading (value : Rat) : Int :=
  powerBelow 10 ((Nat.toDigits 10 value.num.toNat).length - (Nat.toDigits 10 value.den).length) value

/-- The greatest decimal on the grid of `10 ^ unit` that is no greater than a value. -/
def below (value : Rat) (unit : Int) : Decimal :=
  ⟨(value / scaled 10 1 unit).floor.toNat, unit⟩

/-- The next decimal on the same grid. -/
def next (d : Decimal) : Decimal :=
  { d with digits := d.digits + 1 }

/-- Whether a decimal reads back as a double without its sign. -/
def readsAs (d : Decimal) (x : Float) : Bool :=
  d.toFloat.toBits == x.abs.toBits

/-- The neighbour of `value` that lies nearer; midway, the one with an even last digit. -/
def nearer (value : Rat) (low : Decimal) : Decimal :=
  let middle := low.value + low.next.value
  if 2 * value < middle then low
  else if middle < 2 * value then low.next
  else if low.digits % 2 = 0 then low
  else low.next

/-- The decimal nearest to `x`, among those on the grid of `10 ^ unit` next to its exact value that read back as `x`. -/
def onGrid? (x : Float) (value : Rat) (unit : Int) : Option Decimal :=
  let low := below value unit
  match low.readsAs x, low.next.readsAs x with
  | true, true => some (nearer value low)
  | true, false => some low
  | false, true => some low.next
  | false, false => none

/-- The decimal that equals a value whose denominator is a power of two. -/
def exact (value : Rat) : Decimal :=
  let places := value.den.log2
  ⟨value.num.toNat * Nat.pow 5 places, -places⟩

/-- The most digits that any double needs. -/
def mostDigits : Nat := 17

/-- The shortest decimal that reads back as a finite double without its sign. -/
def shortest (x : Float) : Decimal :=
  let value := Binary64.magnitude x
  let first := leading value
  ((List.range mostDigits).findSome? fun (more : Nat) => onGrid? x value (first - more)).getD (exact value)

end Reckoner.Decimal
