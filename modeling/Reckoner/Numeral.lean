import Reckoner.Decimal.Shortest
import Reckoner.Text.Integer

/-! # Numerals

The text of a double: its shortest decimal, written positionally in the middle of the range and with an exponent
outside it. Reading accepts the same forms.
-/

namespace Reckoner.Numeral

/-- The choices that the decimal of a number leaves open. -/
structure Style where
  /-- The least exponent of the leading digit that is written positionally. -/
  positionalFrom : Int
  /-- The least exponent above those. -/
  positionalTo : Int
  /-- How many digits an exponent has at least. -/
  exponentWidth : Nat

/-- Numbers from `0.0001` up to below `10 ^ 16` are positional, and exponents have two digits. -/
def style : Style := ⟨-4, 16, 2⟩

/-- Digits without the zeros at their end. -/
def trimmed (digits : List Char) : List Char :=
  (digits.reverse.dropWhile (· == '0')).reverse

/-- Digits with a point before the digit number `point`, and at least one digit on either side of it. -/
def positional (digits : List Char) (point : Int) : List Char :=
  let whole := digits.take point.toNat ++ List.replicate (point.toNat - digits.length) '0'
  let fraction := List.replicate (-point).toNat '0' ++ digits.drop point.toNat
  (if whole.isEmpty then ['0'] else whole) ++ '.' :: (if fraction.isEmpty then ['0'] else fraction)

/-- A signed exponent, filled up with zeros. -/
def exponentDigits (style : Style) (exponent : Int) : List Char :=
  (if exponent < 0 then '-' else '+') :: Text.padded 10 style.exponentWidth exponent.natAbs

/-- Digits with a point after the first, if more follow, and the exponent of the first. -/
def scientific (style : Style) (digits : List Char) (exponent : Int) : List Char :=
  let fraction := digits.drop 1
  digits.take 1 ++ (if fraction.isEmpty then [] else '.' :: fraction) ++ 'e' :: exponentDigits style exponent

def ofDecimal (style : Style) (d : Decimal) : List Char :=
  let digits := Nat.toDigits 10 d.digits
  let first := digits.length + d.exponent - 1
  if style.positionalFrom ≤ first && first < style.positionalTo then positional (trimmed digits) (first + 1)
  else scientific style (trimmed digits) first

/-- A negative number or the negative zero; a NaN has no sign. -/
def isNegative (x : Float) : Bool :=
  !x.isNaN && Binary64.signBit ≤ x.toBits.toNat

/-- The text of a double without its sign. -/
def magnitude (x : Float) : List Char :=
  if x.isNaN then ['n', 'a', 'n']
  else if x.isInf then ['i', 'n', 'f']
  else ofDecimal style (Decimal.shortest x)

def write (x : Float) : String :=
  String.ofList (if isNegative x then '-' :: magnitude x else magnitude x)

/-- Reads the digits of an exponent, after its sign. -/
def exponent? : List Char → Option Int
  | sign :: digits =>
    if digits.isEmpty || !digits.all Char.isDigit then none
    else if sign = '+' then some (Nat.ofDigitChars 10 digits 0)
    else if sign = '-' then some (-Nat.ofDigitChars 10 digits 0)
    else none
  | [] => none

/-- An exponent cut down to a range outside which every decimal of so many digits is infinite or zero anyway. -/
def clamp (length : Nat) (exponent : Int) : Int :=
  max (-(length + 400)) (min exponent (length + 400))

/-- Reads a numeral without a sign. -/
def readMagnitude? (text : List Char) : Option Float :=
  if text = ['n', 'a', 'n'] then some (0 / 0)
  else if text = ['i', 'n', 'f'] then some (1 / 0)
  else do
    let significand := text.takeWhile (· ≠ 'e')
    let d ← Decimal.read? significand
    let exponent ← match text.dropWhile (· ≠ 'e') with
      | [] => some 0
      | _ :: rest => exponent? rest
    return Decimal.toFloat { d with exponent := d.exponent + clamp significand.length exponent }

def read? (text : String) : Option Float :=
  match text.toList with
  | '-' :: rest => (readMagnitude? rest).map (- ·)
  | rest => readMagnitude? rest

end Reckoner.Numeral
