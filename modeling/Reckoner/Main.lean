import Reckoner.CommandLine.Command

/-! # The program -/

namespace Reckoner

/-- Writes a line to its stream. -/
def writeLine (line : Stream × String) : IO Unit :=
  match line.1 with
  | .standardError => IO.eprintln line.2
  | .standardOutput | .buffer => IO.println line.2

end Reckoner

/-- Carries out the calculation that a command line asks for. -/
def main (arguments : List String) : IO UInt32 :=
  match Reckoner.CommandLine.run .strict arguments with
  | .ok exit => do
    exit.lines.forM Reckoner.writeLine
    return UInt32.ofNat exit.code
  | .error fault => do
    IO.eprintln fault.message
    return 1
