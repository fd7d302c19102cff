import Reckoner.Products
import Reckoner.Scan
import Reckoner.Signs
import Reckoner.Sums

/-! # Evaluation

A text is scanned, and its tokens go through the stages in the order of precedence: signs and factorials, products, sums.
-/

namespace Reckoner

/-- What a calculation comes to. -/
structure Evaluation where
  value : Float
  tokens : List Token
  deriving DecidableEq

namespace Evaluation

section Work

variable {m : Type → Type} [Monad m] {Place : Type} (handler : Handler m Place)

/-- Takes tokens through the stages. -/
def reduce (tokens : List Token) : m Float := do
  let binary ← Signs.stage handler tokens
  let sums ← Products.stage handler binary
  Sums.stage handler sums

/-- Scans a text and takes its tokens through the stages. -/
def work (text : String) : m Evaluation := do
  let tokens ← Scan.work handler "" text.toList
  handler.tell [.stage "compute" tokens]
  let value ← reduce handler tokens
  return ⟨value, tokens⟩

end Work

/-- The value of a list of tokens. -/
def ofTokens (tokens : List Token) : Traced Float :=
  reduce .traced tokens

theorem ofTokens_eq (tokens : List Token) :
    ofTokens tokens = Signs.resolve tokens >>= fun binary => Products.resolve binary >>= Sums.resolve :=
  rfl

/-- The value and the tokens of a text, stage by stage. -/
def unannounced (text : String) : Traced Evaluation :=
  work .traced text

theorem unannounced_eq (text : String) :
    unannounced text = Scan.tokens text >>= fun tokens =>
      .tell [.stage "compute" tokens] >>= fun _ => ofTokens tokens >>= fun value => pure ⟨value, tokens⟩ :=
  rfl

/-- The value and the tokens of a text, announced at the start and at the end. -/
def ofText (text : String) : Traced Evaluation := do
  .tell [.step (.start text)]
  .note (.evaluating text)
  let evaluation ← (unannounced text).closing .finish
  .note (.evaluated text evaluation.value)
  return evaluation

end Evaluation

end Reckoner
