/-! # Switches

The options of the command line and their spellings.
-/

namespace Reckoner.CommandLine

inductive Flag where
  | help
  /-- Asks for more of the trace; counts. -/
  | verbose
  | json
  deriving DecidableEq

/-- An option. -/
inductive Switch where
  | flag (flag : Flag)
  /-- Selects where the trace goes; takes a value. -/
  | logger
  deriving DecidableEq

namespace Flag

def all : List Flag := [help, verbose, json]

def letter? : Flag → Option Char
  | help => some 'h'
  | verbose => some 'v'
  | json => none

def ofLetter? (letter : Char) : Option Flag :=
  all.find? (·.letter? == some letter)

/-- The spelling with two dashes. -/
def long : Flag → String
  | help => "--help"
  | verbose => "--verbose"
  | json => "--json"

end Flag

namespace Switch

/-- All options, in the order of messages. -/
def all : List Switch := Flag.all.map flag ++ [logger]

/-- The spelling with two dashes. -/
def long : Switch → String
  | .flag f => f.long
  | .logger => "--logger"

def letter? : Switch → Option Char
  | .flag f => f.letter?
  | .logger => none

/-- The spelling with one dash, if the option has one. -/
def short? (switch : Switch) : Option String :=
  switch.letter?.map fun letter => String.ofList ['-', letter]

/-- How messages name an option: all its spellings. -/
def title (switch : Switch) : String :=
  match switch.short? with
  | some short => short ++ "/" ++ switch.long
  | none => switch.long

/-- The option with exactly this spelling. -/
def ofSpelling? (text : String) : Option Switch :=
  all.find? fun switch => switch.long == text || switch.short? == some text

/-- The options whose long spelling starts with a text. -/
def abbreviatedBy (text : String) : List Switch :=
  all.filter fun switch => text.toList.isPrefixOf switch.long.toList

end Switch

end Reckoner.CommandLine
