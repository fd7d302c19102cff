import Reckoner.CommandLine.Usage
import Reckoner.Text.Digit

/-! # Words

What each argument of a command line is, before anything is done about it. The first `--` is a separator, and every
argument after it is an operand.
-/

namespace Reckoner.CommandLine

/-- What becomes of text attached to an option in a way that makes little sense. Parsers of command lines have gone both
ways. -/
inductive Convention where
  /-- Behind a single dash a text after `=` is read as more flags, and every character is to be a flag. A separator as the
  value of an option leaves the value empty. -/
  | lenient
  /-- No flag takes a text after `=`, and flags are read as far as they go. A separator as the value of an option is a value
  like any other. -/
  | strict
  deriving DecidableEq

/-- An argument with the part that it can play. -/
inductive Word where
  /-- A calculation, or the value of an option. -/
  | operand (text : String)
  | separator
  /-- An option, with the text that stands after its `=`. -/
  | switch (switch : Switch) (attached : Option String)
  /-- A flag with one dash and the characters that stand right behind it. -/
  | cluster (flag : Flag) (rest : List Char)
  /-- Something that looks like an option and is none. -/
  | unknown (text : String)
  deriving DecidableEq

namespace Word

/-- The argument that separates options from operands. -/
def separatorText : String := "--"

/-- A minus sign and a decimal number; a line feed may end it. -/
def isNegativeNumber : List Char → Bool
  | '-' :: rest =>
    let body := if rest.getLast? = some '\n' then rest.dropLast else rest
    match body.dropWhile Text.Digit.isDecimal with
    | [] => !body.isEmpty
    | point :: fraction => point = '.' && !fraction.isEmpty && fraction.all Text.Digit.isDecimal
  | _ => false

/-- An argument that has no meaning as an option. -/
def ofOther (text : String) : Word :=
  if isNegativeNumber text.toList || text.toList.contains ' ' then operand text else unknown text

/-- An argument that begins with one dash, and is no option by itself. A letter that is a flag begins a cluster. -/
def ofShort (text : String) : Word :=
  match text.toList with
  | _ :: letter :: rest =>
    match Flag.ofLetter? letter with
    | some flag => cluster flag rest
    | none => ofOther text
  | _ => ofOther text

/-- An argument that begins with two dashes, and is no option by itself. Options may be abbreviated. -/
def ofLong (text name : String) (attached : Option String) : Except UsageFault Word :=
  match Switch.abbreviatedBy name with
  | [] => .ok (ofOther text)
  | [found] => .ok (switch found attached)
  | candidates => .error (.ambiguous text candidates)

/-- An option with a text attached by a `=`. -/
def withAttached (convention : Convention) (found : Switch) (name attached : String) : Word :=
  match convention, found with
  | .lenient, .flag flag => if name = flag.long then switch found (some attached) else cluster flag attached.toList
  | .lenient, .logger | .strict, _ => switch found (some attached)

/-- An argument before the separator. -/
def ofArgument (convention : Convention) (text : String) : Except UsageFault Word :=
  let name := String.ofList (text.toList.takeWhile (· ≠ '='))
  let attached := (text.toList.dropWhile (· ≠ '=')).tail?.map String.ofList
  match text.toList with
  | ['-'] => .ok (operand text)
  | '-' :: rest =>
    match Switch.ofSpelling? name, attached with
    | some found, none => .ok (switch found none)
    | some found, some attached => .ok (withAttached convention found name attached)
    | none, _ => if rest.head? = some '-' then ofLong text name attached else .ok (ofShort text)
  | _ => .ok (operand text)

/-- All arguments of a command line. -/
def ofArguments (convention : Convention) : List String → Except UsageFault (List Word)
  | [] => .ok []
  | text :: rest =>
    if text = separatorText then .ok (separator :: rest.map operand)
    else do
      let word ← ofArgument convention text
      let words ← ofArguments convention rest
      return word :: words

end Word

end Reckoner.CommandLine
