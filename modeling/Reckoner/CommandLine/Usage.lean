import Reckoner.CommandLine.Switch
import Reckoner.Settings

/-! # Usage

The help text, and the faults of a command line.
-/

namespace Reckoner.CommandLine

/-- How the command is called. -/
def usage : String :=
  "usage: numerika [-h] [-v] [--json] [--logger \x7bconsole,logging,null\x7d]\n" ++
  "                CALCULATION"

def help : String :=
  usage ++ "\n\n" ++
  "Execute a calculation.\n\n" ++
  "positional arguments:\n" ++
  "  CALCULATION           The calculation that should be executed\n\n" ++
  "options:\n" ++
  "  -h, --help            show this help message and exit\n" ++
  "  -v, --verbose         Verbose mode (-v, -vv, -vvv, etc.)\n" ++
  "  --json                Output machine-readable JSON\n" ++
  "  --logger \x7bconsole,logging,null\x7d\n" ++
  "                        Where trace output goes (default: console)\n\n" ++
  "Supported: + - * / with the usual precedence, postfix ! (factorial),\n" ++
  "unary + and -. Characters other than digits, '.' and operators are\n" ++
  "ignored, so \"3 + 2\" and \"3+2\" are the same calculation.\n" ++
  "Use \"--\" before a calculation that starts with \"-\": numerika -- -2+1"

/-- What is wrong with a command line. -/
inductive UsageFault where
  | missingCalculation
  | surplus (arguments : List String)
  | ambiguous (argument : String) (candidates : List Switch)
  | missingValue (switch : Switch)
  | unknownValue (switch : Switch) (value : String)
  | needlessValue (switch : Switch) (value : String)
  deriving DecidableEq

namespace UsageFault

/-- What is wrong with an option. -/
def about (switch : Switch) (complaint : String) : String :=
  "argument " ++ switch.title ++ ": " ++ complaint

/-- The line that tells what is wrong. -/
def message : UsageFault → String
  | missingCalculation => "the following arguments are required: CALCULATION"
  | surplus arguments => "unrecognized arguments: " ++ " ".intercalate arguments
  | ambiguous argument candidates =>
    "ambiguous option: " ++ argument ++ " could match " ++ ", ".intercalate (candidates.map Switch.long)
  | missingValue switch => about switch "expected one argument"
  | unknownValue switch value =>
    about switch ("invalid choice: " ++ Text.Quoted.quote value ++ " (choose from " ++ Backend.choices ++ ")")
  | needlessValue switch value => about switch ("ignored explicit argument " ++ Text.Quoted.quote value)

end UsageFault

end Reckoner.CommandLine
