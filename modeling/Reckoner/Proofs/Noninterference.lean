import Reckoner.Proofs.Quiet
import Reckoner.Tracer

/-! # Tracing does not interfere

Whoever follows the evaluation of a text, and whatever they make of it, the outcome stays the same, and so does what the
parts of the calculation log. Settings are refused for what they are, whatever the text.
-/

namespace Reckoner

namespace Output

/-- Whether a log channel belongs to a part of the calculation. -/
def isCalculation (channel : String) : Bool :=
  "numerika.calculation.".toList.isPrefixOf channel.toList

/-- What the parts of the calculation have logged. -/
def calculationLog (outputs : List Output) : List (String × String) :=
  (entries outputs).filter fun entry => isCalculation entry.1

theorem isCalculation_channel (diagnostic : Diagnostic) : isCalculation diagnostic.channel = true := by
  cases diagnostic <;> simp only [Diagnostic.channel] <;> decide

theorem calculationLog_append (first second : List Output) :
    calculationLog (first ++ second) = calculationLog first ++ calculationLog second := by
  simp only [calculationLog, entries, List.filterMap_append, List.filter_append]

theorem calculationLog_diagnostic (diagnostic : Diagnostic) (outputs : List Output) :
    calculationLog (entry diagnostic.channel diagnostic.message :: outputs) =
      (diagnostic.channel, diagnostic.message) :: calculationLog outputs := by
  rw [calculationLog, entries, List.filterMap_cons]
  exact List.filter_cons_of_pos (isCalculation_channel diagnostic)

end Output

open Output (calculationLog isCalculation)

/-- Someone who follows a calculation, may remember what was reported, and may put something out on each report. -/
structure Logger where
  State : Type
  start : State
  report : State → Record → State × List Output

namespace Logger

/-- What is remembered after a list of events, and all that was put out, with the diagnostics in their places. -/
def drive (logger : Logger) : logger.State → List Event → logger.State × List Output
  | state, [] => (state, [])
  | state, .record record :: rest =>
    let (next, shown) := logger.report state record
    let (last, outputs) := logger.drive next rest
    (last, shown ++ outputs)
  | state, .diagnostic diagnostic :: rest =>
    let (last, outputs) := logger.drive state rest
    (last, .entry diagnostic.channel diagnostic.message :: outputs)

def run {α : Type} (logger : Logger) (x : Traced α) : Run α :=
  ⟨(logger.drive logger.start x.events).2, x.outcome⟩

/-- A tracer remembers nothing. -/
def ofTracer (tracer : Tracer) : Logger :=
  ⟨Unit, (), fun _ record => ((), (tracer.ofRecord? record).toList)⟩

/-- Remembers every record and puts nothing out. -/
def recorder : Logger :=
  ⟨List Record, [], fun seen record => (seen ++ [record], [])⟩

theorem drive_ofTracer (tracer : Tracer) (events : List Event) :
    ((ofTracer tracer).drive () events).2 = events.filterMap tracer.ofEvent? := by
  induction events with
  | nil => rfl
  | cons event rest ih =>
      cases event with
      | diagnostic diagnostic => exact congrArg (.entry diagnostic.channel diagnostic.message :: ·) ih
      | record record =>
          calc
            ((ofTracer tracer).drive () (.record record :: rest)).2 =
                (tracer.ofRecord? record).toList ++ ((ofTracer tracer).drive () rest).2 := rfl
            _ = (.record record :: rest).filterMap tracer.ofEvent? := by
              rw [ih, List.filterMap_cons, Tracer.ofEvent?]
              cases tracer.ofRecord? record <;> rfl

/-- Under a tracer a computation runs as it does under the logger that the tracer is. -/
theorem run_ofTracer {α : Type} (tracer : Tracer) (x : Traced α) : (ofTracer tracer).run x = tracer.run x := by
  rw [run, Tracer.run, Run.mk.injEq]
  exact ⟨drive_ofTracer tracer x.events, rfl⟩

/-- A logger that leaves the channels of the calculation alone. -/
def IsApart (logger : Logger) : Prop :=
  ∀ state record, calculationLog (logger.report state record).2 = []

/-- One report adds nothing to the log of the calculation, hence a list of events only its own diagnostics. -/
theorem calculationLog_drive {logger : Logger} (apart : logger.IsApart) (state : logger.State) (events : List Event) :
    calculationLog (logger.drive state events).2 =
      (events.filterMap Event.diagnostic?).map fun diagnostic => (diagnostic.channel, diagnostic.message) := by
  induction events generalizing state with
  | nil => rfl
  | cons event rest ih =>
      cases event with
      | record record =>
          rw [drive, Output.calculationLog_append, apart, List.nil_append]
          exact ih _
      | diagnostic diagnostic =>
          rw [drive, Output.calculationLog_diagnostic, ih]
          rfl

theorem isApart_ofTracer {tracer : Tracer}
    (apart : ∀ name, tracer.destination = .channel name → isCalculation name = false) : (ofTracer tracer).IsApart := by
  intro state record
  obtain ⟨destination, gate⟩ := tracer
  cases destination with
  | nowhere => rfl
  | stream target =>
      change calculationLog (Tracer.write? target gate record).toList = []
      unfold Tracer.write?
      cases Console.line? gate record <;> rfl
  | channel name =>
      have other : isCalculation name = false := apart name rfl
      change calculationLog (Tracer.send? name gate record).toList = []
      cases sent : Tracer.send? name gate record with
      | none => rfl
      | some output =>
          obtain ⟨message, -, entered⟩ := Option.bind_eq_some_iff.mp sent
          obtain ⟨text, -, rfl⟩ := Option.map_eq_some_iff.mp entered
          exact List.filter_cons_of_neg (by simp [other])

/-- What settings ask for keeps apart, as the default channel of traces is not one of the calculation. -/
theorem isApart_ofBackend (backend : Backend) (stream : Stream) (gate : Gate) :
    (ofTracer ⟨.ofBackend stream Tracer.defaultChannel backend, gate⟩).IsApart := by
  apply isApart_ofTracer
  intro name target
  cases backend with
  | console | null => cases target
  | logging =>
      cases target
      decide

theorem isApart_recorder : recorder.IsApart := fun _ _ => rfl

end Logger

/-- The settings of an evaluation, and the logger that may be handed over beside them. It then stands in for the tracer
that the settings ask for. -/
structure Way where
  verbosity : Int
  thresholds : Thresholds
  backend : String
  logger : Option Logger

namespace Way

/-- A refused way leaves nothing behind but the reason. -/
def run (way : Way) (text : String) : Except SettingsFault (Run Evaluation) :=
  (Settings.make? way.verbosity way.thresholds way.backend).bind fun settings =>
    match way.logger with
    | none => settings.evaluate text
    | some logger => .ok (logger.run (Evaluation.ofText text))

/-- Why no text is evaluated, if so. -/
def refusal? (way : Way) : Option SettingsFault :=
  if way.verbosity < 0 then some (.negativeVerbosity way.verbosity)
  else if way.logger.isNone && (Backend.ofName? way.backend).isNone then some (.unknownBackend way.backend)
  else none

/-- Either every text is refused for the same reason, or every text is evaluated under the same logger. -/
theorem run_cases (way : Way) :
    (∃ fault, way.refusal? = some fault ∧ ∀ text, way.run text = .error fault) ∨
      way.refusal? = none ∧ ∃ logger : Logger, ((∀ given ∈ way.logger, given.IsApart) → logger.IsApart) ∧
        ∀ text, way.run text = .ok (logger.run (Evaluation.ofText text)) := by
  obtain ⟨verbosity, thresholds, backend, given⟩ := way
  cases verbosity with
  | negSucc n => exact .inl ⟨.negativeVerbosity (.negSucc n), if_pos (Int.negSucc_lt_zero n), fun text => rfl⟩
  | ofNat n =>
      have natural : ¬ Int.ofNat n < 0 := by simp
      cases given with
      | some logger =>
          refine .inr ⟨?_, logger, fun apart => apart logger rfl, fun text => rfl⟩
          simp only [refusal?, if_neg natural]
          rfl
      | none =>
          cases found : Backend.ofName? backend with
          | none =>
              refine .inl ⟨.unknownBackend backend, ?_, fun text => ?_⟩
              · simp only [refusal?, if_neg natural, found]
                rfl
              · simp only [run, Settings.make?, Except.bind, Settings.evaluate, Tracer.ofSettings?, found]
                rfl
          | some known =>
              refine .inr ⟨?_, .ofTracer ⟨.ofBackend .standardOutput Tracer.defaultChannel known, n, thresholds⟩, ?_, ?_⟩
              · simp only [refusal?, if_neg natural, found]
                rfl
              · intro _
                exact Logger.isApart_ofBackend known _ _
              · intro text
                rw [Logger.run_ofTracer]
                simp only [run, Settings.make?, Except.bind, Settings.evaluate, Tracer.ofSettings?, found]
                rfl

end Way

/-- The value and the tokens of a text by hand: the stages one after the other, each on the output of the one before. -/
def Evaluation.byHand (text : String) : Except Fault Evaluation := do
  let tokens ← (Scan.tokens text).outcome
  let binary ← (Signs.resolve tokens).outcome
  let sums ← (Products.resolve binary).outcome
  let value ← (Sums.resolve sums).outcome
  return ⟨value, tokens⟩

/-- The same with the quiet stages, which report to nobody. -/
def Evaluation.quiet (text : String) : Except Fault Evaluation := do
  let tokens ← Scan.quiet "" text.toList
  let binary ← Signs.quiet none tokens
  let sums ← Products.quiet none binary
  let value ← Sums.fold 0 none sums
  return ⟨value, tokens⟩

theorem Evaluation.byHand_eq_quiet (text : String) : byHand text = quiet text := by
  simp only [byHand, quiet, Scan.outcome_tokens, Signs.outcome_resolve, Products.outcome_resolve, Sums.outcome_resolve]

theorem Evaluation.outcome_eq_byHand (text : String) : (ofText text).outcome = byHand text := by
  rw [outcome_ofText]
  simp only [ofTokens_eq, Traced.outcome_bind, Except.map_bind]
  simp only [Except.map_eq_bind]
  rfl

namespace Way

theorem run_eq_ok {way : Way} {text : String} {run : Run Evaluation} (h : way.run text = .ok run) :
    run.outcome = Evaluation.byHand text ∧
      ((∀ given ∈ way.logger, given.IsApart) → calculationLog run.outputs =
        (Evaluation.ofText text).diagnostics.map fun diagnostic => (diagnostic.channel, diagnostic.message)) := by
  obtain ⟨fault, -, refuses⟩ | ⟨-, logger, apart, runs⟩ := way.run_cases
  · rw [refuses] at h
    cases h
  · rw [runs] at h
    cases h
    exact ⟨Evaluation.outcome_eq_byHand text, fun given => Logger.calculationLog_drive (apart given) _ _⟩

/-- Tracing never interferes: two evaluations of a text come to the same outcome, which is that of the stages by hand, and
log the same on the channels of the calculation as long as their loggers leave these alone. Whether a way is refused, and
why, depends on its settings and not on the text. -/
theorem tracing_never_interferes :
    (∀ (text : String) (way other : Way) (first second : Run Evaluation),
      way.run text = .ok first → other.run text = .ok second →
        first.outcome = second.outcome ∧
          ((∀ given ∈ way.logger, given.IsApart) → (∀ given ∈ other.logger, given.IsApart) →
            calculationLog first.outputs = calculationLog second.outputs)) ∧
      (∀ (text : String) (way : Way) (run : Run Evaluation), way.run text = .ok run →
        run.outcome = Evaluation.byHand text ∧ run.outcome = Evaluation.quiet text) ∧
      (Logger.recorder.IsApart ∧
        (∀ (backend : Backend) (stream : Stream) (gate : Gate),
          (Logger.ofTracer ⟨.ofBackend stream Tracer.defaultChannel backend, gate⟩).IsApart) ∧
        ∀ (name : String) (gate : Gate), isCalculation name = false →
          (Logger.ofTracer ⟨.channel name, gate⟩).IsApart) ∧
      ∀ way : Way, (way.refusal? = none ∧ ∀ text, ∃ run, way.run text = .ok run) ∨
        ∃ fault, way.refusal? = some fault ∧ ∀ text, way.run text = .error fault := by
  refine ⟨?two, ?hand, ⟨Logger.isApart_recorder, Logger.isApart_ofBackend, ?channels⟩, ?settings⟩
  case two =>
    intro text way other first second h h'
    obtain ⟨outcome, log⟩ := run_eq_ok h
    obtain ⟨outcome', log'⟩ := run_eq_ok h'
    exact ⟨outcome.trans outcome'.symm, fun apart apart' => (log apart).trans (log' apart').symm⟩
  case hand =>
    intro text way run h
    have outcome := (run_eq_ok h).1
    exact ⟨outcome, outcome.trans (Evaluation.byHand_eq_quiet text)⟩
  case channels =>
    intro name gate other
    apply Logger.isApart_ofTracer
    rintro target ⟨⟩
    exact other
  case settings =>
    intro way
    rcases way.run_cases with refused | ⟨admitted, logger, -, runs⟩
    · exact .inr refused
    · exact .inl ⟨admitted, fun text => ⟨_, runs text⟩⟩

end Way

end Reckoner
