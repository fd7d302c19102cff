import Reckoner.Handler

/-! # Scanning

The tokens of a text. Digits and points gather into a literal, an operator symbol or the end of the text closes it, and
any other character is skipped without closing it: `1 2` is the number twelve.
-/

namespace Reckoner.Scan

/-- Digits and points make up literals. -/
def isLiteral (c : Char) : Bool :=
  c.isDigit || c == '.'

/-- The operand that a gathered literal stands for, if any was gathered. -/
def close (literal : String) : Except Fault (List Token) :=
  if literal.isEmpty then .ok []
  else
    match Decimal.read? literal.toList with
    | some d => .ok [.operand d.toFloat]
    | none => .error (.unreadableLiteral literal)

section Work

variable {m : Type → Type} [Monad m] {Place : Type} (handler : Handler m Place)

/-- Reads the characters to come, after a literal gathered so far. -/
def work (literal : String) : List Char → m (List Token)
  | [] => handler.ofExcept (close literal)
  | c :: rest =>
    if isLiteral c then work (literal.push c) rest
    else
      match Operator.ofChar? c with
      | none => do
        handler.tell [.ignored (String.singleton c)]
        work literal rest
      | some op => do
        let closed ← handler.ofExcept (close literal)
        (closed ++ .operator op :: ·) <$> work "" rest

end Work

/-- The tokens of the characters to come, after a literal gathered so far. -/
abbrev scan (literal : String) (chars : List Char) : Traced (List Token) :=
  work .traced literal chars

def tokens (text : String) : Traced (List Token) :=
  scan "" text.toList

end Reckoner.Scan
