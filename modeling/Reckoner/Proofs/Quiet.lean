import Reckoner.Proofs.Handlers

/-! # Quiet stages

What the stages compute, written down as plain functions without records, diagnostics, positions and handlers. This is what
the stages are measured by: under a handler that answers plainly a stage comes to what its quiet form comes to. So every
fact about outcomes is proved on the quiet forms.
-/

namespace Reckoner

open Token (release)

variable {n : Type → Type} [Monad n] {Place : Type} {handler : Handler n Place} {lift : {α : Type} → Except Fault α → n α}

namespace Token

@[simp] theorem release_none (rest : List Token) : release none rest = rest := rfl

@[simp] theorem release_some (value : Float) (rest : List Token) : release (some value) rest = .operand value :: rest :=
  rfl

@[simp] theorem map_release_none (x : Except Fault (List Token)) : x.map (release none) = x := by
  cases x <;> rfl

end Token

namespace Factorial

/-- The product at the end of a descent, for at most `fuel` rounds. -/
def quietDescend : (fuel : Nat) → Round → Float
  | 0, round => round.product
  | fuel + 1, round =>
    if round.isLast then round.product
    else if round.next.isSettled then round.next.product
    else quietDescend fuel round.next

/-- The factorial of a double, without its rounds. -/
def quiet (n : Float) : Float := quietDescend mostRounds (.first n)

theorem value_descend (fuel : Nat) (round : Round) : (descend fuel round).value = quietDescend fuel round := by
  induction fuel generalizing round with
  | zero => rfl
  | succ fuel ih =>
      simp only [descend, quietDescend]
      split
      · rfl
      · split
        · rfl
        · exact ih round.next

theorem quiet_eq_value (n : Float) : quiet n = value n :=
  (value_descend mostRounds (.first n)).symm

end Factorial

namespace Scan

/-- The tokens of the characters to come, after a literal gathered so far. -/
def quiet (literal : String) : List Char → Except Fault (List Token)
  | [] => close literal
  | c :: rest =>
    if isLiteral c then quiet (literal.push c) rest
    else
      match Operator.ofChar? c with
      | none => quiet literal rest
      | some op => (close literal).bind fun closed => (quiet "" rest).map (closed ++ .operator op :: ·)

theorem work_plain (literal : String) (chars : List Char) : work .plain literal chars = quiet literal chars := by
  induction chars generalizing literal with
  | nil => rfl
  | cons c rest ih =>
      simp only [work, quiet]
      split
      · exact ih (literal.push c)
      · cases Operator.ofChar? c with
        | none => exact ih literal
        | some op =>
            change ((close literal).bind fun closed => (work .plain "" rest).map (closed ++ .operator op :: ·)) = _
            rw [ih]

/-- Under every handler that takes over the plain answers, scanning comes to its quiet form. -/
theorem work_eq_quiet (seen : Handler.plain.SeenAs handler lift) (literal : String) (chars : List Char) :
    work handler literal chars = lift (quiet literal chars) := by
  rw [← work_plain, view_work seen]

theorem outcome_scan (literal : String) (chars : List Char) : (scan literal chars).outcome = quiet literal chars :=
  (view_work Handler.traced_seenAs_plain.toSeenAs literal chars).trans (work_plain literal chars)

theorem outcome_tokens (text : String) : (tokens text).outcome = quiet "" text.toList :=
  outcome_scan "" text.toList

end Scan

namespace Signs

/-- Works off the tokens. An operand directly before them is held back, for a factorial may follow. -/
def quiet : (held : Option Float) → List Token → Except Fault (List Token)
  | held, [] => .ok (release held [])
  | held, .operand value :: rest => (quiet (some value) rest).map (release held)
  | some value, .operator .factorial :: rest => quiet (some (Factorial.quiet value)) rest
  | none, .operator .factorial :: _ => .error .danglingFactorial
  | some value, .operator (.sum op) :: rest => (quiet none rest).map (.operand value :: .operator (.sum op) :: ·)
  | none, .operator (.sum .add) :: rest => quiet none rest
  | none, .operator (.sum .subtract) :: .operand value :: rest => quiet (some (-value)) rest
  | none, .operator (.sum .subtract) :: _ => .error .danglingSign
  | held, .operator (.product op) :: rest => (quiet none rest).map (release held <| .operator (.product op) :: ·)

theorem outcome_factorial (n : Float) : (factorial n).outcome = .ok (Factorial.quiet n) := by
  rw [Factorial.quiet_eq_value]
  rfl

theorem work_plain (place : Unit) (held : Option Float) (tokens : List Token) :
    work .plain place held tokens = quiet held tokens := by
  fun_induction work Handler.plain place held tokens with
  | case1 => rw [quiet]; rfl
  | case2 _ _ _ _ ih | case5 _ _ _ _ ih | case9 _ _ _ _ ih => rw [quiet, ih]; rfl
  | case3 _ value rest ih =>
      rw [quiet, Factorial.quiet_eq_value]
      exact ih _
  | case4 => rfl
  | case6 _ rest ih => exact ih
  | case7 _ value rest ih => exact ih
  | case8 _ rest noOperand =>
      rw [quiet]
      · rfl
      · exact noOperand

/-- So does the first stage, for it carries out no operation and finds no breach. -/
theorem stage_eq_quiet (seen : Handler.plain.SeenAs handler lift) (tokens : List Token) :
    stage handler tokens = lift (quiet none tokens) := by
  rw [← view_stage seen, ← work_plain ()]
  rfl

theorem outcome_scan (position : Nat) (held : Option Float) (tokens : List Token) :
    (scan position held tokens).outcome = quiet held tokens :=
  (view_work Handler.traced_seenAs_plain.toSeenAs position () held tokens).trans (work_plain () held tokens)

theorem outcome_resolve (tokens : List Token) : (resolve tokens).outcome = quiet none tokens :=
  outcome_scan 0 none tokens

/-- A held operand comes out first. -/
theorem head_of_held {value : Float} {tokens output : List Token} (h : quiet (some value) tokens = .ok output) :
    ∃ result rest, output = .operand result :: rest := by
  generalize held : some value = holds at h
  fun_induction quiet holds tokens generalizing value output with
  | case1 => subst held; cases h; exact ⟨_, _, rfl⟩
  | case2 => subst held; obtain ⟨_, _, rfl⟩ := Except.map_eq_ok.mp h; exact ⟨_, _, rfl⟩
  | case3 value rest ih => exact ih rfl h
  | case4 | case6 | case7 | case8 => cases held
  | case5 => obtain ⟨_, _, rfl⟩ := Except.map_eq_ok.mp h; exact ⟨_, _, rfl⟩
  | case9 => subst held; obtain ⟨_, _, rfl⟩ := Except.map_eq_ok.mp h; exact ⟨_, _, rfl⟩

end Signs

namespace Products

/-- Works off the tokens. An operand directly before them is held back, for it may be a left factor. -/
def quiet : (held : Option Float) → List Token → Except Fault (List Token)
  | held, [] => .ok (release held [])
  | held, .operand value :: rest => (quiet (some value) rest).map (release held)
  | some left, .operator (.product op) :: .operand right :: rest => quiet (some (op.apply left right)) rest
  | _, .operator (.product op) :: _ => .error (.incompleteProduct op)
  | held, .operator (.sum op) :: rest => (quiet none rest).map (release held <| .operator (.sum op) :: ·)
  | _, .operator .factorial :: _ => .error .lateFactorial

theorem work_plain (place : Unit) (held : Option Float) (tokens : List Token) :
    work .plain place held tokens = quiet held tokens := by
  fun_induction work Handler.plain place held tokens with
  | case1 => rw [quiet]; rfl
  | case2 _ _ _ _ ih | case5 _ _ _ _ ih => rw [quiet, ih]; rfl
  | case3 _ left op right rest ih => exact ih _
  | case4 _ held op rest incomplete =>
      rw [quiet]
      · rfl
      · exact incomplete
  | case6 => rw [quiet]; rfl

theorem outcome_scan (position : Nat) (held : Option Float) (tokens : List Token) :
    (scan position held tokens).outcome = quiet held tokens :=
  (view_work Handler.traced_seenAs_plain position () held tokens).trans (work_plain () held tokens)

theorem outcome_resolve (tokens : List Token) : (resolve tokens).outcome = quiet none tokens :=
  outcome_scan 0 none tokens

/-- A held operand comes out first, times whatever factors follow. -/
theorem head_of_held {value : Float} {tokens output : List Token} (h : quiet (some value) tokens = .ok output) :
    ∃ result rest, output = .operand result :: rest := by
  generalize held : some value = holds at h
  fun_induction quiet holds tokens generalizing value output with
  | case1 => subst held; cases h; exact ⟨_, _, rfl⟩
  | case2 => subst held; obtain ⟨_, _, rfl⟩ := Except.map_eq_ok.mp h; exact ⟨_, _, rfl⟩
  | case3 left op right rest ih => exact ih rfl h
  | case4 | case6 => cases h
  | case5 => subst held; obtain ⟨_, _, rfl⟩ := Except.map_eq_ok.mp h; exact ⟨_, _, rfl⟩

end Products

namespace Sums

/-- Works off the tokens, after the running value and the number of operands left behind before it. -/
def fold (behind : Nat) : (running : Option Float) → List Token → Except Fault Float
  | none, [] => .error .empty
  | some value, [] => if behind = 0 then .ok value else .error (.unconnected (behind + 1))
  | none, .operand value :: rest => fold behind (some value) rest
  | some _, .operand value :: rest => fold (behind + 1) (some value) rest
  | some left, .operator (.sum op) :: .operand right :: rest => fold behind (some (op.apply left right)) rest
  | _, .operator (.sum op) :: _ => .error (.incompleteSum op)
  | _, .operator op :: _ => .error (.lateBeforeSums op)

theorem work_plain (behind : Nat) (running : Option Float) (tokens : List Token) :
    work .plain behind running tokens = fold behind running tokens := by
  fun_induction work Handler.plain behind running tokens with
  | case1 | case2 => rfl
  | case3 behind value rest ih => exact ih
  | case4 behind running value rest ih => exact ih
  | case5 behind left op right rest ih => exact ih _
  | case6 behind left op rest unfinished =>
      rw [fold]
      · rfl
      · exact fun _ right others _ => unfinished right others
  | case7 => rfl
  | case8 behind running op rest _ notLater notFirst =>
      cases op with
      | product | factorial => cases running <;> rfl
      | sum op =>
          cases running with
          | none => exact (notFirst op rfl rfl).elim
          | some value => exact (notLater value op rfl rfl).elim

theorem outcome_resolve (tokens : List Token) : (resolve tokens).outcome = fold 0 none tokens :=
  (view_stage Handler.traced_seenAs_plain tokens).trans (work_plain 0 none tokens)

theorem events_work (behind : Nat) (running : Option Float) (tokens : List Token) :
    (work .traced behind running tokens).events = [] := by
  fun_induction work Handler.traced behind running tokens with
  | case1 | case2 | case6 | case7 | case8 => rfl
  | case3 behind value rest ih => exact ih
  | case4 behind running value rest ih => exact ih
  | case5 behind left op right rest ih => rw [Handler.traced_operate rfl, pure_bind, ih]

/-- The stage reports its tokens and nothing else. -/
theorem events_resolve (tokens : List Token) :
    (resolve tokens).events = [.record (.stage "resolve_add_sub" tokens)] := by
  change [.record (.stage "resolve_add_sub" tokens)] ++ (work .traced 0 none tokens).events = _
  rw [events_work, List.append_nil]

@[simp] theorem records_resolve (tokens : List Token) :
    (resolve tokens).records = [.stage "resolve_add_sub" tokens] := by
  rw [Traced.records, events_resolve]
  rfl

@[simp] theorem diagnostics_resolve (tokens : List Token) : (resolve tokens).diagnostics = [] := by
  rw [Traced.diagnostics, events_resolve]
  rfl

end Sums

namespace Evaluation

theorem outcome_ofTokens (tokens : List Token) :
    (ofTokens tokens).outcome =
      (Signs.quiet none tokens).bind fun binary => (Products.quiet none binary).bind (Sums.fold 0 none) := by
  simp [ofTokens_eq, Signs.outcome_resolve, Products.outcome_resolve, Sums.outcome_resolve]

/-- Announcements do not change what a text comes to. -/
theorem outcome_eq_unannounced (text : String) : (ofText text).outcome = (unannounced text).outcome := by
  rw [ofText]
  simp only [Traced.outcome_bind, Traced.outcome_tell, Traced.outcome_note, Traced.outcome_closing, Traced.outcome_pure,
    Except.bind]
  cases (unannounced text).outcome <;> rfl

theorem outcome_eq_plain (text : String) : (ofText text).outcome = work .plain text :=
  (outcome_eq_unannounced text).trans (view_work Handler.traced_seenAs_plain text)

theorem outcome_ofText (text : String) :
    (ofText text).outcome =
      (Scan.tokens text).outcome.bind fun tokens => (ofTokens tokens).outcome.map fun value => ⟨value, tokens⟩ := by
  rw [outcome_eq_unannounced, unannounced_eq]
  simp only [Traced.outcome_bind, Traced.outcome_tell, Traced.outcome_pure, Except.map_eq_bind, Except.bind]

end Evaluation

end Reckoner
