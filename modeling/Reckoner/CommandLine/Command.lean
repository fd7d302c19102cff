import Reckoner.CommandLine.Request
import Reckoner.Text.Json
import Reckoner.Tracer

/-! # The command

What the command writes and how it exits. A JSON document has the standard output to itself; the trace then goes to the
standard error, which always gets the log.
-/

namespace Reckoner.CommandLine

/-- What the command leaves behind. -/
structure Exit where
  /-- The exit code: zero for a value or help, one for a fault, two for a wrong command line. -/
  code : Nat
  /-- The lines on either stream, in order. -/
  lines : List (Stream × String)
  deriving DecidableEq

/-- All text that a stream gets. -/
def Exit.text (exit : Exit) (stream : Stream) : String :=
  Output.text stream (exit.lines.map fun line => .line line.1 line.2)

/-- The verbosity from which on the log is shown. -/
def logVerbosity : Nat := 2

/-- The line that shows a piece of output at some verbosity. -/
def terminal? (verbosity : Nat) : Output → Option (Stream × String)
  | .line stream text => some (stream, text)
  | .entry channel message =>
    if logVerbosity ≤ verbosity then some (.standardError, channel ++ " - DEBUG - " ++ message) else none

namespace Document

/-- A value in a JSON document; those that JSON has no number for are strings. -/
def number (value : Float) : String :=
  if value.isNaN || value.isInf then Text.Json.string (Numeral.write value) else Numeral.write value

def ofValue (value : Float) : String :=
  Text.Json.object [("status", Text.Json.string "ok"), ("result", number value)]

def ofFault (fault : Fault) : String :=
  Text.Json.object [("status", Text.Json.string "error"), ("kind", Text.Json.string fault.kind.name),
    ("message", Text.Json.string fault.message)]

end Document

namespace Request

/-- The stream that a trace is written to, if it is written. -/
def target (request : Request) : Stream :=
  if request.json then .standardError else .standardOutput

def gate (request : Request) : Gate := ⟨request.verbosity, {}⟩

/-- The tracer that a request asks for. -/
def tracer (request : Request) : Tracer :=
  ⟨.ofBackend request.target Tracer.defaultChannel request.backend, request.gate⟩

/-- The last line, and the exit code with it. -/
def conclude (request : Request) : Except Fault Evaluation → Nat × Stream × String
  | .ok evaluation =>
    (0, .standardOutput, if request.json then Document.ofValue evaluation.value else Numeral.write evaluation.value)
  | .error fault =>
    if request.json then (1, .standardOutput, Document.ofFault fault)
    else (1, .standardError, "Error: " ++ fault.message)

def carryOut (request : Request) : Exit :=
  let run := request.tracer.run (Evaluation.ofText request.calculation)
  let (code, line) := request.conclude run.outcome
  ⟨code, run.outputs.filterMap (terminal? request.verbosity) ++ [line]⟩

end Request

/-- What a stopped command leaves behind. Where the choice is empty there is no backend to be found, and no exit either. -/
def Stop.exit : Stop → Except SettingsFault Exit
  | .help => .ok ⟨0, [(.standardOutput, CommandLine.help)]⟩
  | .fault reason => .ok ⟨2, [(.standardError, usage), (.standardError, "numerika: error: " ++ reason.message)]⟩
  | .undecided _ _ _ => .error .missingBackend

/-- Carries out a command line. -/
def run (convention : Convention) (arguments : List String) : Except SettingsFault Exit :=
  match Request.ofArguments convention arguments with
  | .ok request => .ok request.carryOut
  | .error stop => stop.exit

end Reckoner.CommandLine
