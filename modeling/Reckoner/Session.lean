import Reckoner.Tracer

/-! # Sessions

A series of calls under one tracer, whose gate may change between them. A fault ends its call and not the session.
-/

namespace Reckoner.Session

inductive Call where
  | record (record : Record)
  /-- Changes the verbosity from here on. -/
  | setVerbosity (verbosity : Int)
  /-- Changes the thresholds from here on. -/
  | setThresholds (thresholds : Thresholds)
  | evaluate (text : String)
  | scan (text : String)
  | factorial (n : Float)
  | signs (tokens : List Token)
  | products (tokens : List Token)
  | sums (tokens : List Token)

/-- What a call answers. -/
inductive Answer where
  | done
  | value (value : Float)
  | tokens (tokens : List Token)
  | evaluation (evaluation : Evaluation)

namespace Call

/-- What a call computes. -/
def perform : Call → Traced Answer
  | .record r => do
    .tell [r]
    return .done
  | .setVerbosity _ | .setThresholds _ => return .done
  | .evaluate text => .evaluation <$> Evaluation.ofText text
  | .scan text => .tokens <$> Scan.tokens text
  | .factorial n => .value <$> Signs.factorial n
  | .signs tokens => .tokens <$> Signs.resolve tokens
  | .products tokens => .tokens <$> Products.resolve tokens
  | .sums tokens => .value <$> Sums.resolve tokens

/-- The gate after a call. -/
def adjust : Call → Gate → Gate
  | .setVerbosity verbosity, gate => { gate with verbosity }
  | .setThresholds thresholds, gate => { gate with thresholds }
  | _, gate => gate

end Call

/-- The runs of a series of calls under one tracer, which shows its own records alone. -/
def run (tracer : Tracer) : List Call → List (Run Answer)
  | [] => []
  | call :: rest =>
    tracer.follow call.perform :: run { tracer with gate := call.adjust tracer.gate } rest

end Reckoner.Session
