import Reckoner.Diagnostic
import Reckoner.Fault
import Reckoner.Record

/-! # Traced computations

A traced computation is what it reports, in order, and its outcome. The reports before a fault stay.
-/

namespace Reckoner

/-- Anything that a calculation reports. -/
inductive Event where
  | record (record : Record)
  | diagnostic (diagnostic : Diagnostic)

def Event.record? : Event → Option Record
  | .record r => some r
  | .diagnostic _ => none

def Event.diagnostic? : Event → Option Diagnostic
  | .record _ => none
  | .diagnostic d => some d

/-- A computation with what it reports on its way to a value or a fault. -/
structure Traced (α : Type) where
  events : List Event
  outcome : Except Fault α

namespace Traced

variable {α β : Type}

/-- Goes on with the value, if there is one. -/
protected def bind (x : Traced α) (f : α → Traced β) : Traced β :=
  match x.outcome with
  | .ok a =>
    let y := f a
    ⟨x.events ++ y.events, y.outcome⟩
  | .error fault => ⟨x.events, .error fault⟩

instance : Monad Traced where
  pure a := ⟨[], .ok a⟩
  bind := Traced.bind
  map f x := ⟨x.events, x.outcome.map f⟩

def tell (records : List Record) : Traced Unit := ⟨records.map .record, .ok ()⟩

def note (diagnostic : Diagnostic) : Traced Unit := ⟨[.diagnostic diagnostic], .ok ()⟩

/-- An outcome without reports. -/
def ofExcept (outcome : Except Fault α) : Traced α := ⟨[], outcome⟩

def refuse (fault : Fault) : Traced α := .ofExcept (.error fault)

def stop (diagnostic : Diagnostic) (fault : Fault) : Traced α := ⟨[.diagnostic diagnostic], .error fault⟩

/-- Reports a record at the end, whatever the outcome. -/
def closing (record : Record) (x : Traced α) : Traced α := ⟨x.events ++ [.record record], x.outcome⟩

def records (x : Traced α) : List Record := x.events.filterMap Event.record?

def diagnostics (x : Traced α) : List Diagnostic := x.events.filterMap Event.diagnostic?

end Traced

end Reckoner
