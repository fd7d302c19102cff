/-! # Factorials

The factorial of a double is the product of the double and its predecessors down to the last factor that is at least
one and a half: exact for small integers, one for all that lies below, and a truncated product between integers.
-/

namespace Reckoner.Factorial

/-- A factor that is due and the product of those before it. -/
structure Round where
  factor : Float
  product : Float

/-- The least factor that still counts. -/
def leastFactor : Float := 1.5

namespace Round

/-- The round before any multiplication. -/
def first (n : Float) : Round := ⟨n, 1⟩

/-- Takes the factor into the product and goes on to its predecessor. -/
def next (round : Round) : Round := ⟨round.factor - 1, round.product * round.factor⟩

/-- No factor is left that counts. A NaN counts. -/
def isLast (round : Round) : Bool := round.factor < leastFactor

/-- No further factor can change the product. -/
def isSettled (round : Round) : Bool := round.product.isInf || round.product.isNaN

end Round

/-- The rounds of a product, in order, and its value. -/
structure Descent where
  rounds : List Round
  value : Float

/-- Goes on from a round for at most `fuel` rounds. -/
def descend : (fuel : Nat) → Round → Descent
  | 0, round => ⟨[], round.product⟩
  | fuel + 1, round =>
    if round.isLast then ⟨[round], round.product⟩
    else if round.next.isSettled then ⟨[round], round.next.product⟩
    else
      let rest := descend fuel round.next
      ⟨round :: rest.rounds, rest.value⟩

/-- No factorial enters more rounds: more than 170 factors, each one less than the one before and none below one and a
half, have an infinite product. -/
def mostRounds : Nat := 171

def descent (n : Float) : Descent := descend mostRounds (.first n)

def value (n : Float) : Float := (descent n).value

end Reckoner.Factorial
