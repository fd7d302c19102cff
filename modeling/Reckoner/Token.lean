import Reckoner.Numeral
import Reckoner.Operator

/-! # Tokens

The pieces of a calculation: numbers and operator symbols, and how reports list them.
-/

namespace Reckoner

/-- A piece of a calculation. -/
inductive Token where
  /-- A number from the text, or one that a stage has computed. -/
  | operand (value : Float)
  /-- An operator symbol. -/
  | operator (op : Operator)
  deriving DecidableEq

namespace Token

/-- How reports show a token. -/
def label : Token → String
  | operand value => "Operand(" ++ Numeral.write value ++ ")"
  | operator op => op.label

/-- How reports show a list of tokens. -/
def listing (tokens : List Token) : String :=
  "[" ++ ", ".intercalate (tokens.map label) ++ "]"

/-- An operand that a stage has held back, before the tokens that follow it. -/
def release (held : Option Float) (rest : List Token) : List Token :=
  match held with
  | some value => .operand value :: rest
  | none => rest

end Token

end Reckoner
