import Reckoner.Evaluation
import Reckoner.Proofs.Reports

/-! # Stages under different handlers

Where one handler, seen through a view of its computations, answers all requests as another one does, the stages do the
same under both.
-/

namespace Reckoner

/-- Seen through a view, the first handler answers as the second one does, wherever either of them is. What they make of
operations and of breaches is left open: scanning and the first stage have neither. -/
structure Handler.SeenAs {m n : Type → Type} [Monad m] [Monad n] {Place Place' : Type} (handler : Handler m Place)
    (other : Handler n Place') (view : {α : Type} → m α → n α) : Prop where
  pure {α : Type} (a : α) : view (Pure.pure a) = Pure.pure a
  map {α β : Type} (f : α → β) (x : m α) : view (f <$> x) = f <$> view x
  bind {α β : Type} (x : m α) (f : α → m β) : view (x >>= f) = view x >>= fun a => view (f a)
  tell (records : List Record) : view (handler.tell records) = other.tell records
  ofExcept {α : Type} (outcome : Except Fault α) : view (handler.ofExcept outcome) = other.ofExcept outcome
  stop {α : Type} (place : Place) (place' : Place') (misplacement : Misplacement) :
    view (handler.stop place misplacement) = (other.stop place' misplacement : n α)

/-- The handlers answer operations and breaches alike, too. -/
structure Handler.WhollySeenAs {m n : Type → Type} [Monad m] [Monad n] {Place Place' : Type} (handler : Handler m Place)
    (other : Handler n Place') (view : {α : Type} → m α → n α) : Prop extends handler.SeenAs other view where
  carryOut (operation : Operation) : view (handler.carryOut operation) = other.carryOut operation
  breach {α : Type} (breach : Breach) : view (handler.breach breach) = (other.breach breach : n α)

/-- Answers with outcomes alone and keeps no places. -/
def Handler.plain : Handler (Except Fault) Unit where
  start := ()
  next := id
  tell _ := .ok ()
  carryOut _ := .ok ()
  ofExcept := id
  stop _ misplacement := .error misplacement.fault
  breach breach := .error breach.fault

theorem Handler.traced_seenAs_plain : traced.WhollySeenAs plain Traced.outcome where
  pure _ := rfl
  map _ _ := rfl
  bind := Traced.outcome_bind
  tell _ := rfl
  carryOut _ := rfl
  ofExcept _ := rfl
  stop _ _ _ := rfl
  breach _ := rfl

section View

variable {m n : Type → Type} [Monad m] [Monad n] {Place Place' : Type} {handler : Handler m Place}
  {other : Handler n Place'} {view : {α : Type} → m α → n α}

theorem Handler.SeenAs.factorial (seen : handler.SeenAs other view) (n : Float) :
    view (handler.factorial n) = other.factorial n := by
  unfold Handler.factorial
  rw [seen.bind, seen.tell]
  simp only [seen.pure]

theorem Handler.SeenAs.stage (seen : handler.SeenAs other view) {α : Type} {name : String} {tokens : List Token}
    {work : m α} {work' : n α} (same : view work = work') :
    view (handler.stage name tokens work) = other.stage name tokens work' := by
  unfold Handler.stage
  rw [seen.bind, seen.tell, same]

theorem Handler.WhollySeenAs.operate (seen : handler.WhollySeenAs other view) (operator : Operator) (left right : Float) :
    view (handler.operate operator left right) = other.operate operator left right := by
  unfold Handler.operate
  split
  · rw [seen.bind, seen.carryOut]
    simp only [seen.pure]
  · exact seen.breach _

theorem Scan.view_work (seen : handler.SeenAs other view) (literal : String) (chars : List Char) :
    view (work handler literal chars) = work other literal chars := by
  induction chars generalizing literal with
  | nil => exact seen.ofExcept _
  | cons c rest ih =>
      unfold work
      split
      · exact ih _
      · cases Operator.ofChar? c with
        | none => simp only [seen.bind, seen.tell, ih]
        | some op => simp only [seen.bind, seen.ofExcept, seen.map, ih]

namespace Signs

theorem view_work (seen : handler.SeenAs other view) (place : Place) (place' : Place') (held : Option Float)
    (tokens : List Token) :
    view (work handler place held tokens) = work other place' held tokens := by
  -- The handlers keep different places of the same token, so both places move on in the induction.
  fun_induction work handler place held tokens generalizing place' with
  | case1 => exact seen.pure _
  | case2 _ _ _ _ ih | case5 _ _ _ _ ih | case9 _ _ _ _ ih => rw [seen.map, work, ih]
  | case3 _ value rest ih =>
      rw [seen.bind, seen.factorial, work]
      simp only [ih _ (other.next place')]
  | case4 place => exact seen.stop place place' .factorial
  | case6 _ rest ih => exact ih _
  | case7 _ value rest ih => exact ih _
  | case8 place rest noOperand =>
      rw [work]
      · exact seen.stop place place' .sign
      · exact noOperand

theorem view_stage (seen : handler.SeenAs other view) (tokens : List Token) :
    view (stage handler tokens) = stage other tokens :=
  seen.stage (view_work seen handler.start other.start none tokens)

end Signs

variable (seen : handler.WhollySeenAs other view)

include seen

namespace Products

theorem view_work (place : Place) (place' : Place') (held : Option Float) (tokens : List Token) :
    view (work handler place held tokens) = work other place' held tokens := by
  fun_induction work handler place held tokens generalizing place' with
  | case1 => exact seen.pure _
  | case2 _ _ _ _ ih | case5 _ _ _ _ ih => rw [seen.map, work, ih]
  | case3 _ left op right rest ih =>
      rw [seen.bind, seen.operate, work]
      simp only [ih _ (other.next (other.next place'))]
  | case4 place held op rest incomplete =>
      rw [work]
      · exact seen.stop place place' (.product op)
      · exact incomplete
  | case6 => exact seen.breach .lateFactorial

theorem view_stage (tokens : List Token) : view (stage handler tokens) = stage other tokens :=
  seen.stage (view_work seen handler.start other.start none tokens)

end Products

namespace Sums

theorem view_work (behind : Nat) (running : Option Float) (tokens : List Token) :
    view (work handler behind running tokens) = work other behind running tokens := by
  fun_induction work handler behind running tokens with
  | case1 => exact seen.ofExcept _
  | case2 => exact seen.ofExcept _
  | case3 behind value rest ih => exact ih
  | case4 behind running value rest ih => exact ih
  | case5 behind left op right rest ih =>
      rw [seen.bind, seen.operate, work]
      simp only [ih]
  | case6 behind left op rest unfinished =>
      rw [work]
      · exact seen.ofExcept _
      · exact unfinished
  | case7 behind op => exact seen.breach (.nothingBefore op)
  | case8 behind running op =>
      rw [work]
      · exact seen.breach (.lateBeforeSums op)
      all_goals assumption

theorem view_stage (tokens : List Token) : view (stage handler tokens) = stage other tokens :=
  seen.stage (view_work seen 0 none tokens)

end Sums

namespace Evaluation

theorem view_reduce (tokens : List Token) : view (reduce handler tokens) = reduce other tokens := by
  unfold reduce
  simp only [seen.bind, Signs.view_stage seen.toSeenAs, Products.view_stage seen, Sums.view_stage seen]

theorem view_work (text : String) : view (work handler text) = work other text := by
  unfold work
  simp only [seen.bind, seen.pure, seen.tell, Scan.view_work seen.toSeenAs, view_reduce seen]

end Evaluation

end View

end Reckoner
