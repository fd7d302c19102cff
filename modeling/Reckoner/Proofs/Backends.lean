import Reckoner.Proofs.Noninterference
import Reckoner.Session

/-! # Backends agree

Over a whole session the console shows, line by line, what the logging backend enters in its log. Both show the records
of each call whose category exceeds its threshold at that time. What a call answers depends neither on the backend nor on
the calls before it.
-/

namespace Reckoner

/-- The sorts of records that thresholds tell apart. -/
inductive Category where
  | stages
  | ignored
  | steps

namespace Record

def category? : Record → Option Category
  | stage _ _ => some .stages
  | ignored _ => some .ignored
  | step _ => some .steps
  | finish => none

def rendering : Record → String
  | stage name tokens => name ++ " operation: " ++ Token.listing tokens
  | ignored text => "Ignore " ++ Text.Quoted.quote text
  | step told => told.message
  | finish => ""

end Record

def Thresholds.of (thresholds : Thresholds) : Category → Int
  | .stages => thresholds.stages
  | .ignored => thresholds.ignored
  | .steps => thresholds.steps

namespace Gate

def shows (gate : Gate) (record : Record) : Bool :=
  record.category?.any fun category => gate.thresholds.of category < gate.verbosity

def messages (gate : Gate) (records : List Record) : List String :=
  (records.filter gate.shows).map Record.rendering

/-- Whatever makes of each record what its rendering becomes, if it is shown, makes of all records what the messages
become. -/
theorem filterMap_shown {β : Type} {gate : Gate} {show? : Record → Option β} {become : String → β}
    (shown : ∀ record, show? record = if gate.shows record then some (become record.rendering) else none)
    (records : List Record) : records.filterMap show? = (gate.messages records).map become := by
  induction records with
  | nil => rfl
  | cons record rest ih =>
      rw [List.filterMap_cons, shown, ih, messages, messages]
      cases isShown : gate.shows record <;> simp [isShown]

end Gate

theorem Console.line?_eq (gate : Gate) (record : Record) :
    line? gate record = if gate.shows record then some record.rendering else none := by
  cases record with
  | finish => rfl
  | stage | ignored | step => exact ite_cond_congr decide_eq_true_eq.symm

namespace Text.Message

theorem text?_of_fill {pattern first text : String} {others : List String}
    (filled : fill? pattern.toList (first :: others) = some text.toList) : text? ⟨pattern, first :: others⟩ = some text := by
  have notEmpty : ¬(first :: others).isEmpty = true := Bool.false_ne_true
  rw [text?, if_neg notEmpty, filled, Option.map_some, String.ofList_toList]

theorem text?_stage (name listing : String) :
    text? ⟨"%s operation: %s", [name, listing]⟩ = some (name ++ " operation: " ++ listing) :=
  text?_of_fill (by simp [fill?])

theorem text?_ignored (text : String) : text? ⟨"Ignore %r", [text]⟩ = some ("Ignore " ++ Quoted.quote text) :=
  text?_of_fill (by simp [fill?])

/-- A step is no pattern, even if it holds percent signs. -/
theorem text?_bare (message : String) : text? ⟨message, []⟩ = some message := rfl

end Text.Message

open Text.Message in
/-- With its gaps filled, what the log is sent for a record reads as the line on the console does. -/
theorem Log.text?_message? (gate : Gate) (record : Record) :
    (message? gate record).bind Text.Message.text? = Console.line? gate record := by
  have filled {threshold : Int} {message : Text.Message} {line : String} (reads : message.text? = some line) :
      (if threshold < gate.verbosity then some message else none).bind Text.Message.text? =
        if threshold < gate.verbosity then some line else none := by
    split
    · exact reads
    · rfl
  cases record with
  | finish => rfl
  | stage name tokens => exact filled (text?_stage name (Token.listing tokens))
  | ignored text => exact filled (text?_ignored text)
  | step step => exact filled (text?_bare step.message)

namespace Output

end Output

/-- What becomes of a text at a destination. -/
def Destination.output? : Destination → String → Option Output
  | .stream target, text => some (.line target text)
  | .channel name, text => some (.entry name text)
  | .nowhere, _ => none

namespace Tracer

theorem write?_eq (target : Stream) (gate : Gate) (record : Record) :
    write? target gate record = if gate.shows record then some (.line target record.rendering) else none := by
  rw [write?, Console.line?_eq]
  split <;> rfl

theorem send?_eq (name : String) (gate : Gate) (record : Record) :
    send? name gate record = if gate.shows record then some (.entry name record.rendering) else none := by
  have entered : send? name gate record = ((Log.message? gate record).bind Text.Message.text?).map (.entry name) := by
    rw [send?, Option.map_bind]
    rfl
  rw [entered, Log.text?_message?, Console.line?_eq]
  split <;> rfl

/-- Wherever they go, the records that are shown are those that the gate lets through, and they read the same. -/
theorem ofRecord?_eq (tracer : Tracer) (record : Record) :
    tracer.ofRecord? record =
      if tracer.gate.shows record then tracer.destination.output? record.rendering else none := by
  obtain ⟨destination, gate⟩ := tracer
  cases destination with
  | stream target => exact write?_eq target gate record
  | channel name => exact send?_eq name gate record
  | nowhere => exact (ite_self _).symm

variable {α : Type} (gate : Gate) (x : Traced α)

end Tracer

namespace Session

namespace Call

/-- What a call reports: a record that is handed over, or all that a calculation reports, as far as it gets. -/
def told : Call → List Record
  | record r => [r]
  | setVerbosity _ | setThresholds _ => []
  | evaluate text => (Evaluation.ofText text).records
  | scan text => (Scan.tokens text).records
  | factorial n => (Signs.factorial n).records
  | signs tokens => (Signs.resolve tokens).records
  | products tokens => (Products.resolve tokens).records
  | sums tokens => (Sums.resolve tokens).records

/-- What a call comes to with nobody to report to. -/
def quiet : Call → Except Fault Answer
  | record _ | setVerbosity _ | setThresholds _ => .ok .done
  | evaluate text => (Evaluation.quiet text).map .evaluation
  | scan text => (Scan.quiet "" text.toList).map .tokens
  | factorial n => .ok (.value (Factorial.quiet n))
  | signs tokens => (Signs.quiet none tokens).map .tokens
  | products tokens => (Products.quiet none tokens).map .tokens
  | sums tokens => (Sums.fold 0 none tokens).map .value

end Call

end Session

end Reckoner
