import Reckoner.Traced

/-! # Handlers

The stages are written once, whoever carries them out. A handler says what becomes of all that a stage asks for beside
passing tokens on: what it tells, the operations that it carries out, and the reasons why it does not go on.
-/

namespace Reckoner

/-- An operator between two operands. -/
structure Operation where
  operator : Operator
  left : Float
  right : Float

/-- The value, if the operator has a binary operation. -/
def Operation.value? (operation : Operation) : Option Float :=
  operation.operator.compute? operation.left operation.right

/-- An operator that lacks an operand where it stands. -/
inductive Misplacement where
  | factorial
  | sign
  | product (op : ProductOp)

namespace Misplacement

def fault : Misplacement → Fault
  | factorial => .danglingFactorial
  | sign => .danglingSign
  | product op => .incompleteProduct op

def diagnostic (position : Nat) : Misplacement → Diagnostic
  | factorial => .factorialAt position
  | sign => .signAt position
  | product op => .productAt op position

end Misplacement

/-- What a stage finds although the stages before it should have seen to it. -/
inductive Breach where
  /-- A `!` among factors. -/
  | lateFactorial
  /-- An operator among terms that is not one of theirs. -/
  | lateBeforeSums (op : Operator)
  /-- A `+` or `-` among terms with nothing computed before it. -/
  | nothingBefore (op : SumOp)
  /-- An operator between operands that has no binary operation. -/
  | noOperation (op : Operator)

/-- The fault that callers see. No stage asks for an operation that an operator lacks; if one did, the operator would count as
one that comes too late. -/
def Breach.fault : Breach → Fault
  | lateFactorial => .lateFactorial
  | lateBeforeSums op => .lateBeforeSums op
  | nothingBefore op => .incompleteSum op
  | noOperation op => .lateBeforeSums op

/-- Carries out what the stages ask for. A place is what it keeps of the position of a token. -/
structure Handler (m : Type → Type) (Place : Type) where
  start : Place
  next : Place → Place
  tell : List Record → m Unit
  carryOut : Operation → m Unit
  /-- Goes on with a value, or refuses the input. -/
  ofExcept : {α : Type} → Except Fault α → m α
  /-- Refuses the input for an operator at a place. -/
  stop : {α : Type} → Place → Misplacement → m α
  breach : {α : Type} → Breach → m α

namespace Handler

variable {m : Type → Type} [Monad m] {Place : Type} (handler : Handler m Place)

/-- Looks up the operation of an operator and carries it out. -/
def operate (operator : Operator) (left right : Float) : m Float :=
  match operator.compute? left right with
  | some value => do
    handler.carryOut ⟨operator, left, right⟩
    return value
  | none => handler.breach (.noOperation operator)

/-- A stage first tells its tokens. -/
def stage {α : Type} (name : String) (tokens : List Token) (work : m α) : m α := do
  handler.tell [.stage name tokens]
  work

/-- The factorial of an operand, which tells its rounds. -/
def factorial (n : Float) : m Float := do
  let descent := Factorial.descent n
  handler.tell (descent.rounds.map fun round => .step (.factorial n round))
  return descent.value

/-- Reports to whoever follows the calculation, positions in the tokens of the stage included. -/
def traced : Handler Traced Nat where
  start := 0
  next := Nat.succ
  tell := .tell
  carryOut _ := pure ()
  ofExcept := .ofExcept
  stop position misplacement := .stop (misplacement.diagnostic position) misplacement.fault
  breach breach := .refuse breach.fault

@[simp] theorem traced_tell (records : List Record) : traced.tell records = .tell records := rfl

@[simp] theorem traced_ofExcept {α : Type} (outcome : Except Fault α) : traced.ofExcept outcome = .ofExcept outcome := rfl

theorem traced_next_add (position count : Nat) : traced.next position + count = position + (count + 1) :=
  Nat.succ_add_eq_add_succ position count

theorem traced_operate {operator : Operator} {left right value : Float}
    (computes : operator.compute? left right = some value) : traced.operate operator left right = pure value := by
  unfold operate
  rw [computes]
  rfl

end Handler

end Reckoner
