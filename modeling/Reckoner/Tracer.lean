import Reckoner.Evaluation
import Reckoner.Settings
import Reckoner.Text.Pattern

/-! # Tracers

A tracer turns the reports of a calculation into output. Its gate decides which records are shown, its destination where
they go. Diagnostics always go to their own channels. The outcome is the same under all tracers.
-/

namespace Reckoner

/-- Where text can be written. -/
inductive Stream where
  | standardOutput
  | standardError
  | buffer
  deriving DecidableEq

/-- A piece of output. -/
inductive Output where
  | line (stream : Stream) (text : String)
  | entry (channel message : String)
  deriving DecidableEq

namespace Output

/-- All text that a stream gets. -/
def text (stream : Stream) (outputs : List Output) : String :=
  String.join (outputs.map fun
    | line target text => if target = stream then text ++ "\n" else ""
    | entry _ _ => "")

/-- All entries in the log, each with its channel. -/
def entries (outputs : List Output) : List (String × String) :=
  outputs.filterMap fun
    | line _ _ => none
    | entry channel message => some (channel, message)

end Output

/-- Decides which records are shown. -/
structure Gate where
  /-- How much is shown; negative values show the least. -/
  verbosity : Int := 0
  thresholds : Thresholds := {}
  deriving DecidableEq

/-- What the console shows of a record: a line, unless the gate or the nature of the record holds it back. -/
def Console.line? (gate : Gate) : Record → Option String
  | .stage name tokens =>
    if gate.thresholds.stages < gate.verbosity then some (name ++ " operation: " ++ Token.listing tokens) else none
  | .ignored text =>
    if gate.thresholds.ignored < gate.verbosity then some ("Ignore " ++ Text.Quoted.quote text) else none
  | .step step =>
    if gate.thresholds.steps < gate.verbosity then some step.message else none
  | .finish => none

/-- What the log is sent for a record, with the same provisos. A step is sent as it stands, without gaps. -/
def Log.message? (gate : Gate) : Record → Option Text.Message
  | .stage name tokens =>
    if gate.thresholds.stages < gate.verbosity then some ⟨"%s operation: %s", [name, Token.listing tokens]⟩ else none
  | .ignored text =>
    if gate.thresholds.ignored < gate.verbosity then some ⟨"Ignore %r", [text]⟩ else none
  | .step step =>
    if gate.thresholds.steps < gate.verbosity then some ⟨step.message, []⟩ else none
  | .finish => none

/-- Where the shown records go. -/
inductive Destination where
  /-- To a stream, one line each. -/
  | stream (stream : Stream)
  /-- To a log channel, one entry each. -/
  | channel (name : String)
  | nowhere
  deriving DecidableEq

namespace Destination

/-- The log channel of a name. Without a name it is the root of all channels. -/
def channelNamed (name : String) : String :=
  if name.isEmpty then "root" else name

/-- Where a backend sends shown records, given the stream and the channel that it may use. -/
def ofBackend (target : Stream) (name : String) : Backend → Destination
  | .console => .stream target
  | .logging => .channel (channelNamed name)
  | .null => .nowhere

end Destination

/-- Turns reports into output. -/
structure Tracer where
  destination : Destination
  gate : Gate
  deriving DecidableEq

/-- What running a computation leaves behind. -/
structure Run (α : Type) where
  outputs : List Output
  outcome : Except Fault α

namespace Tracer

/-- The log channel that traces go to by default. -/
def defaultChannel : String := "numerika.trace"

/-- Writes to a stream. -/
def write? (target : Stream) (gate : Gate) (record : Record) : Option Output :=
  (Console.line? gate record).map (.line target)

/-- Sends to a log channel. The gaps of a message are filled when it is entered there. -/
def send? (name : String) (gate : Gate) (record : Record) : Option Output :=
  (Log.message? gate record).bind fun message => message.text?.map (.entry name)

/-- Discards every record. -/
def discard? (_ : Record) : Option Output :=
  none

def ofRecord? (tracer : Tracer) : Record → Option Output :=
  match tracer.destination with
  | .stream target => write? target tracer.gate
  | .channel name => send? name tracer.gate
  | .nowhere => discard?

def ofEvent? (tracer : Tracer) : Event → Option Output
  | .record record => tracer.ofRecord? record
  | .diagnostic diagnostic => some (.entry diagnostic.channel diagnostic.message)

def run {α : Type} (tracer : Tracer) (x : Traced α) : Run α :=
  ⟨x.events.filterMap tracer.ofEvent?, x.outcome⟩

/-- Runs a computation under a tracer and leaves the diagnostics to others. -/
def follow {α : Type} (tracer : Tracer) (x : Traced α) : Run α :=
  ⟨x.records.filterMap tracer.ofRecord?, x.outcome⟩

/-- The tracer that settings ask for. -/
def ofSettings? (settings : Settings) : Except SettingsFault Tracer :=
  match Backend.ofName? settings.backend with
  | none => .error (.unknownBackend settings.backend)
  | some backend =>
    .ok ⟨.ofBackend .standardOutput defaultChannel backend, ⟨settings.verbosity, settings.thresholds⟩⟩

end Tracer

/-- Evaluates a text under the tracer that settings ask for. -/
def Settings.evaluate (settings : Settings) (text : String) : Except SettingsFault (Run Evaluation) :=
  (Tracer.ofSettings? settings).map (·.run (Evaluation.ofText text))

end Reckoner
