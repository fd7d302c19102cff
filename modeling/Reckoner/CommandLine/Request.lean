import Reckoner.CommandLine.Word

/-! # Requests

What a command line asks for. Options may stand before, between and after the operands; the first operand is the
calculation, and no other is allowed.
-/

namespace Reckoner.CommandLine

/-- Why a command line leads to no calculation. -/
inductive Stop where
  | help
  | fault (fault : UsageFault)
  /-- It asks for a calculation and leaves the choice empty where the trace goes. -/
  | undecided (calculation : String) (verbosity : Nat) (json : Bool)
  deriving DecidableEq

structure Request where
  calculation : String
  verbosity : Nat
  json : Bool
  /-- Where the trace goes. -/
  backend : Backend
  deriving DecidableEq

/-- A request while its words are read. -/
structure Draft where
  /-- The calculation, once it was met. -/
  calculation : Option String := none
  verbosity : Nat := 0
  json : Bool := false
  /-- Where the trace goes, unless that choice was left empty. -/
  backend : Option Backend := some .console
  /-- The arguments that nothing takes, in order. -/
  surplus : List String := []
  deriving DecidableEq

namespace Draft

/-- Keeps an argument that nothing takes. -/
def leave (draft : Draft) (text : String) : Draft :=
  { draft with surplus := draft.surplus ++ [text] }

def apply (draft : Draft) : Flag → Except Stop Draft
  | .help => .error .help
  | .verbose => .ok { draft with verbosity := draft.verbosity + 1 }
  | .json => .ok { draft with json := true }

/-- Does what a series of flags asks for. -/
def applyAll (draft : Draft) : List Flag → Except Stop Draft
  | [] => .ok draft
  | flag :: rest => do
    let draft ← draft.apply flag
    draft.applyAll rest

/-- Selects where the trace goes. -/
def select (convention : Convention) (draft : Draft) (name : String) : Except Stop Draft :=
  if convention = .lenient ∧ name = Word.separatorText then .ok { draft with backend := none }
  else
    match Backend.ofName? name with
    | some backend => .ok { draft with backend := some backend }
    | none => .error (.fault (.unknownValue .logger name))

/-- A flag and those behind it. Every character has to be the letter of a flag, and there has to be one. -/
def allFlags (flag : Flag) : List Char → Except UsageFault (List Flag)
  | [] => .error (.needlessValue (.flag flag) "")
  | letter :: rest =>
    match Flag.ofLetter? letter with
    | none => .error (.needlessValue (.flag flag) (String.ofList (letter :: rest)))
    | some found => if rest.isEmpty then .ok [flag, found] else (flag :: ·) <$> allFlags found rest

/-- A flag and those behind it up to the first other character, and from there on an argument that nothing takes. A `=` or a
dash would make a value of what follows. -/
def leadingFlags (flag : Flag) : List Char → Except UsageFault (List Flag × List String)
  | [] => .ok ([flag], [])
  | '=' :: rest => .error (.needlessValue (.flag flag) (String.ofList rest))
  | '-' :: rest => .error (.needlessValue (.flag flag) (String.ofList ('-' :: rest)))
  | letter :: rest =>
    match Flag.ofLetter? letter with
    | none => .ok ([flag], [String.ofList ('-' :: letter :: rest)])
    | some found => do
      let (flags, surplus) ← leadingFlags found rest
      return (flag :: flags, surplus)

/-- The flags behind a single dash, and what is left of the argument. -/
def flags (convention : Convention) (flag : Flag) (rest : List Char) : Except UsageFault (List Flag × List String) :=
  match convention with
  | .lenient => (·, []) <$> allFlags flag rest
  | .strict => leadingFlags flag rest

section Read

variable (convention : Convention)

/-- Reads words into a draft. A separator right before or after the calculation belongs to it. -/
def read (draft : Draft) : List Word → Except Stop Draft
  | [] => .ok draft
  | .unknown text :: rest => (draft.leave text).read rest
  | .cluster flag attached :: rest =>
    match flags convention flag attached with
    | .error fault => .error (.fault fault)
    | .ok (flags, surplus) => do
      let draft ← draft.applyAll flags
      (surplus.foldl leave draft).read rest
  | .switch (.flag flag) (some value) :: _ => .error (.fault (.needlessValue (.flag flag) value))
  | .switch (.flag flag) none :: rest => do
    let draft ← draft.apply flag
    draft.read rest
  | .switch .logger (some value) :: rest => do
    let draft ← draft.select convention value
    draft.read rest
  | .switch .logger none :: .operand value :: rest => do
    let draft ← draft.select convention value
    draft.read rest
  | .switch .logger none :: _ => .error (.fault (.missingValue .logger))
  | .separator :: .operand text :: rest =>
    match draft.calculation with
    | none => { draft with calculation := some text }.read rest
    | some _ => ((draft.leave Word.separatorText).leave text).read rest
  | .separator :: rest => (draft.leave Word.separatorText).read rest
  | .operand text :: .separator :: rest =>
    match draft.calculation with
    | none => { draft with calculation := some text }.read rest
    | some _ => ((draft.leave text).leave Word.separatorText).read rest
  | .operand text :: rest =>
    match draft.calculation with
    | none => { draft with calculation := some text }.read rest
    | some _ => (draft.leave text).read rest

end Read

/-- The request, if it has a calculation, nothing else is left and it is known where the trace goes. -/
def request (draft : Draft) : Except Stop Request :=
  match draft.calculation with
  | none => .error (.fault .missingCalculation)
  | some calculation =>
    if draft.surplus.isEmpty then
      match draft.backend with
      | some backend => .ok ⟨calculation, draft.verbosity, draft.json, backend⟩
      | none => .error (.undecided calculation draft.verbosity draft.json)
    else .error (.fault (.surplus draft.surplus))

end Draft

/-- The request of a command line. -/
def Request.ofArguments (convention : Convention) (arguments : List String) : Except Stop Request :=
  match Word.ofArguments convention arguments with
  | .error fault => .error (.fault fault)
  | .ok words => do
    let draft ← ({} : Draft).read convention words
    draft.request

end Reckoner.CommandLine
