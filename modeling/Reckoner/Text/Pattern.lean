import Reckoner.Text.Quoted

/-! # Patterns

A message for a log is a pattern and the texts for its gaps, which are filled only when the message is entered.
-/

namespace Reckoner.Text

/-- A pattern with its gaps filled in order, `%s` by a text as it stands and `%r` by a quoted text. `%%` is a percent sign,
and no other gaps are known. There have to be as many texts as gaps. -/
def fill? : (pattern : List Char) → (texts : List String) → Option (List Char)
  | [], [] => some []
  | [], _ :: _ => none
  | '%' :: 's' :: rest, text :: texts => (fill? rest texts).map (text.toList ++ ·)
  | '%' :: 'r' :: rest, text :: texts => (fill? rest texts).map ((Quoted.quote text).toList ++ ·)
  | '%' :: '%' :: rest, texts => (fill? rest texts).map ('%' :: ·)
  | '%' :: _, _ => none
  | c :: rest, texts => (fill? rest texts).map (c :: ·)

/-- A message for a log. -/
structure Message where
  pattern : String
  /-- What fills the gaps. Without any the pattern is the message, percent signs included. -/
  texts : List String

/-- The text of a message, if its gaps can be filled. -/
def Message.text? (message : Message) : Option String :=
  if message.texts.isEmpty then some message.pattern
  else (fill? message.pattern.toList message.texts).map String.ofList

end Reckoner.Text
