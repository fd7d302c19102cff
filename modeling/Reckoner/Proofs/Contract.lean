import Reckoner.CommandLine.Command
import Reckoner.Proofs.Backends
import Reckoner.Proofs.Documents

/-! # The contract of the command

What the command writes and how it exits follows from the evaluation of its calculation: the trace, the log and the last
line each have their stream, and a JSON document has the standard output to itself. Nothing else comes of a command line
than an exit, unless a lenient reading leaves it open where the trace goes.
-/

namespace Reckoner

def unlines (lines : List String) : String :=
  String.join (lines.map (· ++ "\n"))

theorem unlines_append (first second : List String) : unlines (first ++ second) = unlines first ++ unlines second := by
  simp [unlines]

namespace Output

/-- The line that a stream gets of a piece of output. -/
def lineOn? (stream : Stream) : Output → Option String
  | line target text => if target = stream then some text else none
  | entry _ _ => none

theorem text_eq_unlines (stream : Stream) (outputs : List Output) :
    text stream outputs = unlines (outputs.filterMap (lineOn? stream)) := by
  induction outputs with
  | nil => rfl
  | cons output rest ih =>
      cases output with
      | entry channel message => simpa [text, unlines, lineOn?, List.filterMap_cons] using ih
      | line target text => by_cases same : target = stream <;> simpa [Output.text, unlines, lineOn?, same] using ih

end Output

namespace CommandLine

def on? (stream : Stream) (line : Stream × String) : Option String :=
  if line.1 = stream then some line.2 else none

theorem Exit.text_eq (exit : Exit) (stream : Stream) : exit.text stream = unlines (exit.lines.filterMap (on? stream)) := by
  rw [Exit.text, Output.text_eq_unlines, List.filterMap_map]
  rfl

namespace Request

def evaluation (request : Request) : Traced Evaluation :=
  Evaluation.ofText request.calculation

/-- The line that a report adds to the trace on the console. -/
def traceLine? (request : Request) : Event → Option String
  | .record record =>
    if request.backend = .console ∧ request.gate.shows record = true then some record.rendering else none
  | .diagnostic _ => none

/-- The line that a report adds to the log, which holds the trace as well if that goes there. -/
def logLine? (request : Request) : Event → Option String
  | .record record =>
    if 2 ≤ request.verbosity ∧ request.backend = .logging ∧ request.gate.shows record = true then
      some ("numerika.trace - DEBUG - " ++ record.rendering)
    else none
  | .diagnostic diagnostic =>
    if 2 ≤ request.verbosity then some (diagnostic.channel ++ " - DEBUG - " ++ diagnostic.message) else none

def trace (request : Request) : List String :=
  request.evaluation.events.filterMap request.traceLine?

def log (request : Request) : List String :=
  request.evaluation.events.filterMap request.logLine?

/-- The trace and the log in the order of the reports. -/
def traceAndLog (request : Request) : List String :=
  request.evaluation.events.filterMap fun event => (request.traceLine? event).or (request.logLine? event)

end Request

/-- The fields that tell of an outcome. -/
def fields : Except Fault Evaluation → List (String × Text.Json.Scalar)
  | .ok evaluation =>
    [("status", .string "ok"),
      ("result", if Numeral.write evaluation.value ∈ Numeral.special then .string (Numeral.write evaluation.value)
        else .number (Numeral.write evaluation.value))]
  | .error fault => [("status", .string "error"), ("kind", .string fault.kind.name), ("message", .string fault.message)]

/-- What a request promises of its exit. -/
structure Contract (request : Request) (exit : Exit) : Prop where
  success : exit.code = 0 ↔ ∃ evaluation, request.evaluation.outcome = .ok evaluation
  failure : exit.code = 1 ↔ ∃ fault, request.evaluation.outcome = .error fault
  plainOutput : request.json = false → exit.text .standardOutput = unlines request.trace ++
    match request.evaluation.outcome with
    | .ok evaluation => Numeral.write evaluation.value ++ "\n"
    | .error _ => ""
  plainError : request.json = false → exit.text .standardError = unlines request.log ++
    match request.evaluation.outcome with
    | .ok _ => ""
    | .error fault => "Error: " ++ fault.message ++ "\n"
  jsonOutput : request.json = true → ∃ document, exit.text .standardOutput = document ++ "\n" ∧
    (∀ c ∈ document.toList, Text.Json.isPlain c = true) ∧
    Text.Json.document? document = some (fields request.evaluation.outcome)
  jsonError : request.json = true → exit.text .standardError = unlines request.traceAndLog

namespace Request

variable {request : Request}

/-- The line on the terminal that a report adds. -/
def shown? (request : Request) (event : Event) : Option (Stream × String) :=
  (request.tracer.ofEvent? event).bind (terminal? request.verbosity)

theorem shown?_eq (event : Event) : request.shown? event =
    ((request.traceLine? event).map (request.target, ·)).or ((request.logLine? event).map (.standardError, ·)) := by
  cases event with
  | diagnostic diagnostic =>
      simp only [shown?, Tracer.ofEvent?, traceLine?, logLine?, Option.bind_some, Option.map_none, Option.none_or]
      by_cases logged : 2 ≤ request.verbosity <;> simp [terminal?, logVerbosity, logged]
  | record record =>
      simp only [shown?, Tracer.ofEvent?, Tracer.ofRecord?_eq, tracer, traceLine?, logLine?]
      by_cases shown : request.gate.shows record = true
      · have entered : Destination.channelNamed Tracer.defaultChannel ++ " - DEBUG - " = "numerika.trace - DEBUG - " := by
          decide
        by_cases logged : 2 ≤ request.verbosity <;> cases request.backend <;>
          simp [shown, logged, Destination.ofBackend, Destination.output?, terminal?, logVerbosity, entered]
      · simp [shown]

/-- No report adds to both. -/
theorem traceLine?_or_logLine? (request : Request) (event : Event) :
    request.traceLine? event = none ∨ request.logLine? event = none := by
  cases event with
  | diagnostic => exact .inl rfl
  | record record =>
      by_cases console : request.backend = .console
      · exact .inr (by simp [logLine?, console])
      · exact .inl (by simp [traceLine?, console])

theorem shown?_on? (stream : Stream) (event : Event) :
    (request.shown? event).bind (on? stream) =
      (if request.target = stream then request.traceLine? event else none).or
        (if .standardError = stream then request.logLine? event else none) := by
  rw [shown?_eq]
  -- A report that adds a line to the one leaves the other alone, so the stream of the line decides.
  obtain silent | silent := request.traceLine?_or_logLine? event
  · cases request.logLine? event <;> simp [silent, on?]
  · cases request.traceLine? event <;> simp [silent, on?]

theorem text_carryOut (request : Request) (stream : Stream) :
    request.carryOut.text stream =
      unlines (request.evaluation.events.filterMap fun event => (request.shown? event).bind (on? stream)) ++
        unlines (on? stream (request.conclude request.evaluation.outcome).2).toList := by
  have last (line : Stream × String) : [line].filterMap (on? stream) = (on? stream line).toList := by
    rw [List.filterMap_cons]
    cases on? stream line <;> rfl
  rw [Exit.text_eq, ← unlines_append]
  simp only [carryOut, Tracer.run, List.filterMap_append, List.filterMap_filterMap, last]
  rfl

theorem output_carryOut (request : Request) :
    request.carryOut.text .standardOutput =
      (if request.json then "" else unlines request.trace) ++
        unlines (on? .standardOutput (request.conclude request.evaluation.outcome).2).toList := by
  rw [text_carryOut]
  cases json : request.json with
  | false => simp [shown?_on?, target, json, trace]
  | true =>
      have silent : request.evaluation.events.filterMap (fun _ => (none : Option String)) = [] :=
        List.filterMap_eq_nil_iff.mpr fun _ _ => rfl
      simp [shown?_on?, target, json, silent, unlines]

theorem error_carryOut (request : Request) :
    request.carryOut.text .standardError =
      unlines (if request.json then request.traceAndLog else request.log) ++
        unlines (on? .standardError (request.conclude request.evaluation.outcome).2).toList := by
  rw [text_carryOut]
  cases json : request.json <;> simp [shown?_on?, target, json, traceAndLog, log]

end Request

def document (outcome : Except Fault Evaluation) : String :=
  Text.Json.object ((fields outcome).map fun field => (field.1, field.2.text))

theorem document_ok (evaluation : Evaluation) : document (.ok evaluation) = Document.ofValue evaluation.value := by
  simp only [document, fields, Document.ofValue, Document.number, ← Numeral.mem_special_iff]
  split <;> rfl

theorem document_error (fault : Fault) : document (.error fault) = Document.ofFault fault := rfl

theorem isWritten_fields (outcome : Except Fault Evaluation) : ∀ field ∈ fields outcome, field.2.IsWritten := by
  cases outcome with
  | error fault =>
      simp only [fields, List.forall_mem_cons]
      exact ⟨trivial, trivial, trivial, nofun⟩
  | ok evaluation =>
      simp only [fields, List.forall_mem_cons]
      refine ⟨trivial, ?_, nofun⟩
      split
      · trivial
      · rename_i finite
        rw [Numeral.mem_special_iff, Bool.not_eq_true] at finite
        exact Text.Json.isNumber_write finite

theorem conclude_plain {request : Request} (plain : request.json = false) (outcome : Except Fault Evaluation) :
    request.conclude outcome = match outcome with
      | .ok evaluation => (0, .standardOutput, Numeral.write evaluation.value)
      | .error fault => (1, .standardError, "Error: " ++ fault.message) := by
  cases outcome <;> simp [Request.conclude, plain]

theorem conclude_json {request : Request} (json : request.json = true) (outcome : Except Fault Evaluation) :
    (request.conclude outcome).2 = (.standardOutput, document outcome) := by
  cases outcome <;> simp [Request.conclude, json, document_ok, document_error]

theorem code_conclude (request : Request) (outcome : Except Fault Evaluation) :
    (request.conclude outcome).1 = match outcome with
      | .ok _ => 0
      | .error _ => 1 := by
  cases outcome with
  | ok => rfl
  | error => cases json : request.json <;> simp [Request.conclude, json]

theorem contract_carryOut (request : Request) : Contract request request.carryOut := by
  have output := request.output_carryOut
  have error := request.error_carryOut
  have code : request.carryOut.code = match request.evaluation.outcome with
      | .ok _ => 0
      | .error _ => 1 := code_conclude request request.evaluation.outcome
  exact {
    success := by
      rw [code]
      cases request.evaluation.outcome <;> simp
    failure := by
      rw [code]
      cases request.evaluation.outcome <;> simp
    plainOutput := by
      intro plain
      rw [output, plain, conclude_plain plain]
      cases request.evaluation.outcome <;> simp [on?, unlines]
    plainError := by
      intro plain
      rw [error, plain, conclude_plain plain]
      cases request.evaluation.outcome <;> simp [on?, unlines]
    jsonOutput := by
      intro json
      have written := isWritten_fields request.evaluation.outcome
      refine ⟨document request.evaluation.outcome, ?_, Text.Json.isPlain_object written, Text.Json.document?_object written⟩
      rw [output, json, conclude_json json]
      simp [on?, unlines]
    jsonError := by
      intro json
      rw [error, json, conclude_json json]
      simp [on?, unlines] }

namespace Draft

/-- It stays known where the trace goes, or the reading stops for another reason. -/
def StaysDecided : Except Stop Draft → Prop
  | .ok draft => draft.backend ≠ none
  | .error stop => ∀ calculation verbosity json, stop ≠ .undecided calculation verbosity json

theorem StaysDecided.bind {x : Except Stop Draft} {f : Draft → Except Stop Draft} (decided : StaysDecided x)
    (further : ∀ draft, draft.backend ≠ none → StaysDecided (f draft)) : StaysDecided (x >>= f) := by
  cases x with
  | error stop => exact decided
  | ok draft => exact further draft decided

variable {draft : Draft} (decided : draft.backend ≠ none)

include decided

end Draft

end CommandLine

end Reckoner
