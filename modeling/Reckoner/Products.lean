import Reckoner.Handler

/-! # Products

The second stage computes every `*` and `/` with the operands on its sides, from left to right. Operands and sums are
left.
-/

namespace Reckoner.Products

open Token (release)

section Work

variable {m : Type → Type} [Monad m] {Place : Type} (handler : Handler m Place)

/-- Works off the tokens from a place on. An operand directly before them is held back, for it may be a left factor. -/
def work (place : Place) : (held : Option Float) → List Token → m (List Token)
  | held, [] => pure (release held [])
  | held, .operand value :: rest =>
    release held <$> work (handler.next place) (some value) rest
  | some left, .operator op@(.product _) :: .operand right :: rest => do
    let value ← handler.operate op left right
    work (handler.next (handler.next place)) (some value) rest
  | _, .operator (.product op) :: _ =>
    handler.stop place (.product op)
  | held, .operator (.sum op) :: rest =>
    (release held <| .operator (.sum op) :: ·) <$> work (handler.next place) none rest
  | _, .operator .factorial :: _ =>
    handler.breach .lateFactorial

def stage (tokens : List Token) : m (List Token) :=
  handler.stage "resolve_mul_div" tokens (work handler handler.start none tokens)

end Work

abbrev scan (position : Nat) (held : Option Float) (tokens : List Token) : Traced (List Token) :=
  work .traced position held tokens

def resolve (tokens : List Token) : Traced (List Token) :=
  stage .traced tokens

theorem resolve_eq (tokens : List Token) :
    resolve tokens = Traced.tell [.stage "resolve_mul_div" tokens] >>= fun _ => scan 0 none tokens :=
  rfl

end Reckoner.Products
