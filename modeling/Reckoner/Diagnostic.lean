import Reckoner.Numeral
import Reckoner.Operator
import Reckoner.Text.Quoted

/-! # Diagnostics

What a calculation tells those who look for causes, on the channel of the part that tells it.
-/

namespace Reckoner

/-- What a calculation tells those who look for causes. -/
inductive Diagnostic where
  | evaluating (text : String)
  | evaluated (text : String) (value : Float)
  /-- The factorial at this position follows no operand. -/
  | factorialAt (position : Nat)
  /-- The sign at this position precedes no operand. -/
  | signAt (position : Nat)
  /-- The operator at this position lacks an operand. -/
  | productAt (op : ProductOp) (position : Nat)

namespace Diagnostic

def channel : Diagnostic → String
  | evaluating _ | evaluated _ _ => "numerika.calculation.evaluator"
  | factorialAt _ | signAt _ => "numerika.calculation.resolver"
  | productAt _ _ => "numerika.calculation.reducers"

/-- A position as text. -/
def place (position : Nat) : String :=
  "at position " ++ Text.natural position

def message : Diagnostic → String
  | evaluating text => "Evaluating " ++ Text.Quoted.quote text
  | evaluated text value => "Evaluated " ++ Text.Quoted.quote text ++ " to " ++ Numeral.write value
  | factorialAt position => "factorial " ++ place position ++ " has no operand"
  | signAt position => "unary minus " ++ place position ++ " has no operand"
  | productAt op position => (Operator.product op).label ++ " " ++ place position ++ " is missing an operand"

end Diagnostic

end Reckoner
