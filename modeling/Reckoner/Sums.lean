import Reckoner.Handler

/-! # Sums

The third stage folds operands joined by `+` and `-` from left to right into one value. Operands without an operator
between them pile up: only the last of them takes part in what follows.
-/

namespace Reckoner.Sums

section Work

variable {m : Type → Type} [Monad m] {Place : Type} (handler : Handler m Place)

/-- Works off the tokens, after the running value and the number of operands left behind before it. -/
def work (behind : Nat) : (running : Option Float) → List Token → m Float
  | none, [] => handler.ofExcept (.error .empty)
  | some value, [] => handler.ofExcept (if behind = 0 then .ok value else .error (.unconnected (behind + 1)))
  | none, .operand value :: rest => work behind (some value) rest
  | some _, .operand value :: rest => work (behind + 1) (some value) rest
  | some left, .operator op@(.sum _) :: .operand right :: rest => do
    let value ← handler.operate op left right
    work behind (some value) rest
  | some _, .operator (.sum op) :: _ => handler.ofExcept (.error (.incompleteSum op))
  | none, .operator (.sum op) :: _ => handler.breach (.nothingBefore op)
  | _, .operator op :: _ => handler.breach (.lateBeforeSums op)

def stage (tokens : List Token) : m Float :=
  handler.stage "resolve_add_sub" tokens (work handler 0 none tokens)

end Work

def resolve (tokens : List Token) : Traced Float :=
  stage .traced tokens

theorem resolve_eq (tokens : List Token) :
    resolve tokens = Traced.tell [.stage "resolve_add_sub" tokens] >>= fun _ => work .traced 0 none tokens :=
  rfl

end Reckoner.Sums
