import Reckoner.Factorial
import Reckoner.Text.Quoted
import Reckoner.Token

/-! # Records

What a calculation tells whoever follows it: the tokens at each stage, the characters it skips, its steps and its end.
-/

namespace Reckoner

/-- A fine-grained step. -/
inductive Step where
  | start (text : String)
  /-- A factorial of `n` enters a round. -/
  | factorial (n : Float) (round : Factorial.Round)
  /-- Any other message. -/
  | note (message : String)

/-- The line that tells of a step. -/
def Step.message : Step → String
  | start text => "Start parse_and_compute: " ++ Text.Quoted.quote text
  | factorial n round =>
    "factorial " ++ Numeral.write n ++ " - loop current=" ++ Numeral.write round.factor ++
      " result=" ++ Numeral.write round.product
  | note message => message

/-- What a calculation tells whoever follows it. -/
inductive Record where
  /-- A stage is about to process these tokens. -/
  | stage (name : String) (tokens : List Token)
  | ignored (text : String)
  | step (step : Step)
  | finish

end Reckoner
