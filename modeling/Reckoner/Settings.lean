import Reckoner.Text.Integer
import Reckoner.Text.Quoted

/-! # Settings

How much of a trace is shown, and where. Settings never bear on the value of a calculation.
-/

namespace Reckoner

/-- The verbosity that each sort of record has to exceed before it is shown. -/
structure Thresholds where
  /-- For the tokens that a stage is about to process. -/
  stages : Int := 1
  ignored : Int := 1
  steps : Int := 4
  deriving DecidableEq

/-- Where a trace goes. -/
inductive Backend where
  | console
  | logging
  | null
  deriving DecidableEq

namespace Backend

/-- All backends, in the order of messages. -/
def all : List Backend := [console, logging, null]

/-- The name that selects a backend. -/
def name : Backend → String
  | console => "console"
  | logging => "logging"
  | null => "null"

def ofName? (name : String) : Option Backend :=
  all.find? (·.name == name)

/-- The names of all backends, quoted and separated by commas. -/
def choices : String :=
  ", ".intercalate (all.map fun backend => Text.Quoted.quote backend.name)

end Backend

/-- Why settings are refused. -/
inductive SettingsFault where
  | negativeVerbosity (verbosity : Int)
  | unknownBackend (name : String)
  /-- The choice of a backend was left empty. -/
  | missingBackend
  deriving DecidableEq

namespace SettingsFault

/-- The line about a choice that is no backend. -/
def notAvailable (choice : String) : String :=
  "Unknown logger type: " ++ choice ++ ". Available: [" ++ Backend.choices ++ "]"

def message : SettingsFault → String
  | negativeVerbosity verbosity => "verbosity must be >= 0, got " ++ Text.integer verbosity
  | unknownBackend name => notAvailable name
  | missingBackend => notAvailable "[]"

end SettingsFault

/-- The settings of one calculation. The backend is looked up only when a trace is needed. -/
structure Settings where
  verbosity : Nat := 0
  thresholds : Thresholds := {}
  backend : String := Backend.console.name
  deriving DecidableEq

/-- Settings with a verbosity that is not below zero. -/
def Settings.make? (verbosity : Int) (thresholds : Thresholds) (backend : String) : Except SettingsFault Settings :=
  match verbosity with
  | .ofNat verbosity => .ok ⟨verbosity, thresholds, backend⟩
  | .negSucc _ => .error (.negativeVerbosity verbosity)

end Reckoner
