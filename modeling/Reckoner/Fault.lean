import Reckoner.Operator
import Reckoner.Text.Quoted

/-! # Faults

Why a calculation has no value: the causes, their kinds, and the one line that reports each.
-/

namespace Reckoner

/-- The kinds into which callers sort faults. -/
inductive Kind where
  /-- The calculation does not come down to one value. -/
  | unknown
  /-- A literal is not a number. -/
  | unreadableNumber
  /-- An operator lacks an operand. -/
  | misplacedOperator
  /-- An operator is still there after the stage that computes it. -/
  | lateOperator
  deriving DecidableEq

/-- The public name of a kind. -/
def Kind.name : Kind → String
  | unknown => "Unknown"
  | unreadableNumber => "CannotParseNumber"
  | misplacedOperator => "InvalidOperatorPosition"
  | lateOperator => "ThisOperatorShouldBeAlreadyComputed"

/-- What callers see of a fault. -/
structure Report where
  kind : Kind
  /-- What went wrong; may be empty. -/
  detail : String
  deriving DecidableEq

/-- The line that reports a fault. -/
def Report.text (report : Report) : String :=
  if report.detail.isEmpty then report.kind.name else report.kind.name ++ ": " ++ report.detail

/-- Why a calculation has no value. -/
inductive Fault where
  /-- A literal without a digit or with two points. -/
  | unreadableLiteral (literal : String)
  /-- A `!` that follows no operand. -/
  | danglingFactorial
  /-- A sign `-` with no operand after it. -/
  | danglingSign
  /-- A `*` or `/` that lacks an operand. -/
  | incompleteProduct (op : ProductOp)
  /-- A `+` or `-` that lacks an operand. -/
  | incompleteSum (op : SumOp)
  /-- A `!` among factors. -/
  | lateFactorial
  /-- An operator among terms that is not one of theirs. -/
  | lateBeforeSums (op : Operator)
  | empty
  /-- Several operands without operators between them. -/
  | unconnected (count : Nat)
  deriving DecidableEq

namespace Fault

/-- A symbol between apostrophes. -/
def cited (symbol : Char) : String :=
  String.ofList ['\x27', symbol, '\x27']

def kind : Fault → Kind
  | unreadableLiteral _ => .unreadableNumber
  | danglingFactorial | danglingSign | incompleteProduct _ => .misplacedOperator
  | lateFactorial | lateBeforeSums _ => .lateOperator
  | incompleteSum _ | empty | unconnected _ => .unknown

def detail : Fault → String
  | unreadableLiteral literal => "cannot parse number from " ++ Text.Quoted.quote literal
  | danglingFactorial => cited '!' ++ " must follow a number"
  | danglingSign => "unary " ++ cited '-' ++ " must precede a number"
  | incompleteProduct op => cited op.symbol ++ " needs a number on both sides"
  | incompleteSum op => cited op.symbol ++ " needs a number on both sides"
  | lateFactorial => cited '!' ++ " should have been resolved before multiplication"
  | lateBeforeSums op => cited op.symbol ++ " should have been resolved before addition"
  | empty => "empty expression"
  | unconnected count => Text.natural count ++ " values left without operators between them"

/-- What callers see of a fault. -/
def report (fault : Fault) : Report :=
  ⟨fault.kind, fault.detail⟩

/-- The line that reports a fault. -/
def message (fault : Fault) : String :=
  fault.report.text

end Fault

end Reckoner
