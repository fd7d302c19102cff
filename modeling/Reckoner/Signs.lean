import Reckoner.Handler

/-! # Signs and factorials

The first stage tells signs from binary operators: a `+` or `-` that follows an operand is binary, any other is a sign.
Plus signs are dropped, a minus sign goes into the operand right after it, and factorials are computed. Only operands and
binary operators are left.
-/

namespace Reckoner.Signs

open Token (release)

section Work

variable {m : Type → Type} [Monad m] {Place : Type} (handler : Handler m Place)

/-- Works off the tokens from a place on. An operand directly before them is held back, for a factorial may follow. -/
def work (place : Place) : (held : Option Float) → List Token → m (List Token)
  | held, [] => pure (release held [])
  | held, .operand value :: rest =>
    release held <$> work (handler.next place) (some value) rest
  | some value, .operator .factorial :: rest => do
    let value ← handler.factorial value
    work (handler.next place) (some value) rest
  | none, .operator .factorial :: _ =>
    handler.stop place .factorial
  | some value, .operator (.sum op) :: rest =>
    (.operand value :: .operator (.sum op) :: ·) <$> work (handler.next place) none rest
  | none, .operator (.sum .add) :: rest =>
    work (handler.next place) none rest
  | none, .operator (.sum .subtract) :: .operand value :: rest =>
    work (handler.next (handler.next place)) (some (-value)) rest
  | none, .operator (.sum .subtract) :: _ =>
    handler.stop place .sign
  | held, .operator (.product op) :: rest =>
    (release held <| .operator (.product op) :: ·) <$> work (handler.next place) none rest

def stage (tokens : List Token) : m (List Token) :=
  handler.stage "resolve_unary" tokens (work handler handler.start none tokens)

end Work

abbrev factorial (n : Float) : Traced Float :=
  Handler.traced.factorial n

theorem records_factorial (n : Float) :
    (factorial n).records = (Factorial.descent n).rounds.map fun round => .step (.factorial n round) := by
  have events : (factorial n).events =
      ((Factorial.descent n).rounds.map fun round => .step (.factorial n round)).map .record ++ [] := rfl
  rw [Traced.records, events, List.append_nil, List.filterMap_map]
  exact List.filterMap_some

abbrev scan (position : Nat) (held : Option Float) (tokens : List Token) : Traced (List Token) :=
  work .traced position held tokens

def resolve (tokens : List Token) : Traced (List Token) :=
  stage .traced tokens

theorem resolve_eq (tokens : List Token) :
    resolve tokens = Traced.tell [.stage "resolve_unary" tokens] >>= fun _ => scan 0 none tokens :=
  rfl

end Reckoner.Signs
