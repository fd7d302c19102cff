/-! # Integers as text -/

namespace Reckoner.Text

/-- The digits of a number in a base, lower case, with zeros before them up to a width. -/
def padded (base width n : Nat) : List Char :=
  let digits := Nat.toDigits base n
  List.replicate (width - digits.length) '0' ++ digits

/-- A number that is not negative, in decimal. -/
def natural (n : Nat) : String :=
  String.ofList (Nat.toDigits 10 n)

/-- An integer in decimal. -/
def integer : Int → String
  | .ofNat n => natural n
  | .negSucc n => "-" ++ natural (n + 1)

end Reckoner.Text
