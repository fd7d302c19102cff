/-! # Operators

The five operator symbols, sorted by how tightly they bind: the postfix factorial first, then the products, then the
sums. Sums and products compute on doubles; the factorial has its own module.
-/

namespace Reckoner

/-- An operator that joins terms. -/
inductive SumOp where
  | add
  | subtract
  deriving DecidableEq

/-- An operator that joins factors. -/
inductive ProductOp where
  | multiply
  | divide
  deriving DecidableEq

/-- An operator symbol as it stands in a text. -/
inductive Operator where
  /-- A `+` or `-`, which may also turn out to be a sign. -/
  | sum (op : SumOp)
  /-- A `*` or `/` between factors. -/
  | product (op : ProductOp)
  | factorial
  deriving DecidableEq

namespace SumOp

def symbol : SumOp → Char
  | add => '+'
  | subtract => '-'

/-- The operator on doubles, with the rounding and the special values of IEEE 754. -/
def apply : SumOp → Float → Float → Float
  | add, left, right => left + right
  | subtract, left, right => left - right

end SumOp

namespace ProductOp

def symbol : ProductOp → Char
  | multiply => '*'
  | divide => '/'

/-- The operator on doubles; a quotient by zero is an infinity or a NaN. -/
def apply : ProductOp → Float → Float → Float
  | multiply, left, right => left * right
  | divide, left, right => left / right

end ProductOp

namespace Operator

/-- All operators, from the loosest to the tightest. -/
def all : List Operator :=
  [.sum .add, .sum .subtract, .product .multiply, .product .divide, .factorial]

def symbol : Operator → Char
  | sum op => op.symbol
  | product op => op.symbol
  | factorial => '!'

/-- The operator written by a character, if it writes one. -/
def ofChar? (c : Char) : Option Operator :=
  all.find? (·.symbol == c)

/-- The operator written by a text of exactly one character. -/
def ofSymbol? (text : String) : Option Operator :=
  match text.toList with
  | [c] => ofChar? c
  | _ => none

def name : Operator → String
  | sum .add => "Add"
  | sum .subtract => "Subtract"
  | product .multiply => "Multiply"
  | product .divide => "Divide"
  | factorial => "Factorial"

/-- How reports show the operator. -/
def label (op : Operator) : String :=
  "Operator(" ++ op.name ++ ")"

/-- The operator on two doubles; the factorial takes no second one. -/
def compute? : Operator → Float → Float → Option Float
  | sum op, left, right => some (op.apply left right)
  | product op, left, right => some (op.apply left right)
  | factorial, _, _ => none

end Operator

end Reckoner
