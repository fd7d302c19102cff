import Reckoner.Text.Integer
import Reckoner.Text.Printable

/-! # Quoted text

Text between quotation marks on one line: printable characters stand for themselves, all others are escaped. The mark is
an apostrophe, or a double quote where that saves escapes because the text holds apostrophes and no double quote.
-/

namespace Reckoner.Text.Quoted

/-- The mark that most texts are quoted with. -/
def apostrophe : Char := '\x27'

/-- The mark of texts that hold an apostrophe. -/
def doubleQuote : Char := '\x22'

/-- The mark that quotes a text. -/
def mark (text : List Char) : Char :=
  if text.contains apostrophe && !text.contains doubleQuote then doubleQuote else apostrophe

/-- A character inside quotation marks. -/
def escape (mark c : Char) : List Char :=
  if c = mark || c = '\\' then ['\\', c]
  else if c = '\n' then ['\\', 'n']
  else if c = '\r' then ['\\', 'r']
  else if c = '\t' then ['\\', 't']
  else if Printable.isPrintable c then [c]
  else if c.toNat < 0x100 then '\\' :: 'x' :: padded 16 2 c.toNat
  else if c.toNat < 0x10000 then '\\' :: 'u' :: padded 16 4 c.toNat
  else '\\' :: 'U' :: padded 16 8 c.toNat

/-- A text in quotation marks. -/
def quote (text : String) : String :=
  let mark := mark text.toList
  String.ofList (mark :: text.toList.flatMap (escape mark) ++ [mark])

end Reckoner.Text.Quoted
