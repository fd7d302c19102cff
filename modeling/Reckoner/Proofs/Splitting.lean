import Reckoner.Proofs.Course
import Reckoner.Proofs.Joining

/-! # Stages split at operators

A binary operator sets a stage back to its start: what stands before it is worked off as if nothing followed, and what
stands after it as if it came first, up to the positions that are told. So a `+` that could only be a sign changes nothing.
-/

namespace Reckoner

open Token (release EndsOperand)

/-- A binary operator, given the tokens before it: a `*` or `/` in any place, a `+` or `-` after an operand. -/
def Operator.JoinsAfter (before : List Token) : Operator → Prop
  | .product _ => True
  | .sum _ => EndsOperand before
  | .factorial => False

namespace Token

/-- Tokens after which a `+` can only be a sign, for an operand is still to come. -/
inductive AwaitsOperand : List Token → Prop where
  | nothing : AwaitsOperand []
  | plus (before : List Token) : AwaitsOperand (before ++ [.operator (.sum .add)])
  | product (before : List Token) (op : ProductOp) : AwaitsOperand (before ++ [.operator (.product op)])
  /-- A binary `-`; a sign `-` takes its operand from the very next token. -/
  | minus {before : List Token} (ends : EndsOperand before) : AwaitsOperand (before ++ [.operator (.sum .subtract)])

theorem release_append (held : Option Float) (before after : List Token) :
    release held before ++ after = release held (before ++ after) := by
  cases held <;> rfl

/-- Where a list does not start with an operand, neither does it with an operator behind it. -/
theorem not_operand_append {rest : List Token} (other : ∀ value more, rest = .operand value :: more → False)
    (op : Operator) (after : List Token) (value : Float) (more : List Token) :
    rest ++ .operator op :: after = .operand value :: more → False := by
  intro same
  cases rest with
  | nil => cases same
  | cons token rest =>
      cases same
      exact other value rest rfl

theorem not_endsOperand_nil : ¬EndsOperand [] := by
  rintro ⟨last, found, -⟩
  cases found

theorem endsOperand_cons {token : Token} {rest : List Token} :
    EndsOperand (token :: rest) ↔ (rest = [] ∧ token.endsOperand = true) ∨ EndsOperand rest := by
  cases rest with
  | nil => simp [EndsOperand]
  | cons next rest => simp [EndsOperand, List.getLast?_cons_cons]

theorem EndsOperand.tail {held next : Option Float} {token : Token} {rest : List Token}
    (ends : EndsOperand (release held (token :: rest))) (holds : token.endsOperand = true → next.isSome = true) :
    EndsOperand (release next rest) := by
  have last : EndsOperand (token :: rest) := by
    cases held with
    | none => exact ends
    | some value => simpa [endsOperand_cons] using ends
  obtain ⟨rfl, isEnd⟩ | later := endsOperand_cons.mp last
  · obtain ⟨value, rfl⟩ := Option.isSome_iff_exists.mp (holds isEnd)
    exact ⟨.operand value, rfl, rfl⟩
  · cases next with
    | none => exact later
    | some value => exact endsOperand_cons.mpr (.inr later)

end Token

theorem Operator.JoinsAfter.tail {op : Operator} {held next : Option Float} {token : Token} {rest : List Token}
    (joins : op.JoinsAfter (release held (token :: rest))) (holds : token.endsOperand = true → next.isSome = true) :
    op.JoinsAfter (release next rest) := by
  match op, joins with
  | .product _, _ => trivial
  | .sum _, ends => exact Token.EndsOperand.tail ends holds

namespace Products

open Handler (traced_next_add)

/-- Every `+` and `-` parts the stage: what stands before it is worked off first, and what stands after it next, as if it
stood alone at its position. -/
theorem scan_append (position : Nat) (held : Option Float) (before after : List Token) (op : SumOp) :
    scan position held (before ++ .operator (.sum op) :: after) = (do
      let first ← scan position held before
      (first ++ .operator (.sum op) :: ·) <$> scan (position + before.length + 1) none after) := by
  unfold scan
  fun_induction work Handler.traced position held before with
  | case1 position held => cases held <;> rfl
  | case2 position held _ rest ih | case5 position held _ rest ih =>
      simp only [List.cons_append, work, ih, traced_next_add, map_bind, bind_map_left, Functor.map_map,
        Token.release_append, List.length_cons]
  | case3 position left op' right rest ih =>
      simp only [List.cons_append, work, ih, traced_next_add, bind_assoc, List.length_cons]
  | case4 position held op' rest incomplete =>
      rw [List.cons_append, work]
      · rfl
      · exact fun left right others holds =>
          Token.not_operand_append (fun right others => incomplete left right others holds) (.sum op) after right others
  | case6 => rfl

end Products

/-- The rounds of factorials that a computation reports. -/
def Traced.rounds {α : Type} (x : Traced α) : List Record :=
  x.records.filter Record.isRound

namespace Signs

open Handler (traced_next_add)

/-- A binary operator parts the stage in the same way. -/
theorem scan_append (position : Nat) (held : Option Float) (before after : List Token) {op : Operator}
    (joins : op.JoinsAfter (release held before)) :
    scan position held (before ++ .operator op :: after) = (do
      let first ← scan position held before
      (first ++ .operator op :: ·) <$> scan (position + before.length + 1) none after) := by
  -- The held operand counts among the tokens before the operator, so the operator stays binary when one more is taken.
  unfold scan
  fun_induction work Handler.traced position held before with
  | case1 position held =>
      cases op with
      | product op => cases held <;> rfl
      | sum op =>
          cases held with
          | none => exact (Token.not_endsOperand_nil joins).elim
          | some value => rfl
      | factorial => exact joins.elim
  | case2 position held _ rest ih | case5 position held _ rest ih | case9 position held _ rest ih =>
      simp only [List.cons_append, work, ih (joins.tail (by simp [Token.endsOperand])), traced_next_add,
        map_bind, bind_map_left, Functor.map_map, Token.release_append, List.length_cons]
  | case3 position value rest ih =>
      simp only [List.cons_append, work, ih _ (joins.tail fun _ => rfl), traced_next_add, bind_assoc,
        List.length_cons]
  | case4 => rfl
  | case6 position rest ih =>
      simp only [List.cons_append, work, ih (joins.tail (by simp [Token.endsOperand])), traced_next_add, List.length_cons]
  | case7 position value rest ih =>
      have later : op.JoinsAfter (release none (.operand value :: rest)) :=
        joins.tail (by simp [Token.endsOperand])
      simp only [List.cons_append, work, ih (later.tail fun _ => rfl), traced_next_add, List.length_cons]
  | case8 position rest noOperand =>
      rw [List.cons_append, work]
      · rfl
      · exact Token.not_operand_append noOperand op after

/-- The rounds of factorials do not depend on where the tokens stand. -/
theorem records_scan_congr (position other : Nat) (held : Option Float) (tokens : List Token) :
    (scan position held tokens).records = (scan other held tokens).records := by
  unfold scan
  fun_induction work Handler.traced position held tokens generalizing other with
  | case1 | case4 => rfl
  | case2 _ _ _ _ ih | case5 _ _ _ _ ih | case9 _ _ _ _ ih =>
      simp only [work, Traced.records_map, ih (Handler.traced.next other)]
  | case3 position value rest ih =>
      simp only [work, Traced.records_bind, outcome_factorial, ih (Factorial.quiet value) (Handler.traced.next other)]
  | case6 position rest ih => exact ih (other + 1)
  | case7 position value rest ih => exact ih (other + 2)
  | case8 position rest noOperand =>
      rw [work]
      · rfl
      · exact noOperand

theorem quiet_append (held : Option Float) {before : List Token} {op : Operator}
    (joins : op.JoinsAfter (release held before)) (after : List Token) :
    quiet held (before ++ .operator op :: after) =
      (quiet held before).bind fun first => (quiet none after).map (first ++ .operator op :: ·) := by
  simpa only [Traced.outcome_bind, Traced.outcome_map, outcome_scan] using
    congrArg Traced.outcome (scan_append 0 held before after joins)

theorem rounds_resolve (tokens : List Token) : (resolve tokens).rounds = (scan 0 none tokens).records := by
  have filtered : (resolve tokens).rounds = (scan 0 none tokens).records.filter Record.isRound := by
    rw [Traced.rounds, resolve_eq, Traced.records_bind]
    rfl
  rw [filtered, List.filter_eq_self.mpr isRound_scan]

/-- At a binary operator the first stage splits. Its output is that of the tokens before the operator, the operator, and
that of the tokens after it. Of two faults the first wins, and the factorials after it are never begun. -/
theorem splits_at_binary_operator {before : List Token} {op : Operator} (joins : op.JoinsAfter before)
    (after : List Token) :
    (resolve (before ++ .operator op :: after)).outcome =
        (resolve before).outcome.bind (fun first => (resolve after).outcome.map (first ++ .operator op :: ·)) ∧
      (resolve (before ++ .operator op :: after)).rounds =
        (resolve before).rounds ++ match (resolve before).outcome with
          | .ok _ => (resolve after).rounds
          | .error _ => [] := by
  constructor
  · simp only [outcome_resolve]
    exact quiet_append none joins after
  · rw [rounds_resolve, rounds_resolve, rounds_resolve, scan_append 0 none before after joins, Traced.records_bind,
      outcome_resolve, outcome_scan]
    simp only [Traced.records_map, records_scan_congr _ 0]
    cases quiet none before <;> rfl

/-- A `-` after a factorial splits a list, and the sign after it goes with what follows. -/
theorem splits_at_minus :
    have before : List Token := [.operator (.sum .subtract), .operand 3, .operator .factorial]
    have after : List Token := [.operator (.sum .subtract), .operand 4, .operator .factorial]
    (Operator.sum .subtract).JoinsAfter before ∧
      (resolve (before ++ .operator (.sum .subtract) :: after)).outcome =
        .ok [.operand (Factorial.quiet (-3)), .operator (.sum .subtract), .operand (Factorial.quiet (-4))] ∧
      (resolve (before ++ .operator (.sum .subtract) :: after)).rounds =
        (resolve before).rounds ++ (resolve after).rounds := by
  intro before after
  have joins : (Operator.sum .subtract).JoinsAfter before := ⟨.operator .factorial, rfl, rfl⟩
  obtain ⟨outcome, rounds⟩ := splits_at_binary_operator joins after
  exact ⟨joins, outcome, rounds⟩

/-- The factorials after a fault are never begun. -/
theorem rounds_stop_at_fault :
    have before : List Token := [.operator .factorial]
    have after : List Token := [.operand 3, .operator .factorial]
    (Operator.product .multiply).JoinsAfter before ∧
      (resolve (before ++ .operator (.product .multiply) :: after)).rounds ≠
        (resolve before).rounds ++ (resolve after).rounds := by
  intro before after
  refine ⟨trivial, fun same => ?_⟩
  have lengths := congrArg List.length same
  revert lengths
  decide +kernel

/-- A `+` after another never counts. -/
theorem quiet_plus_plus (held : Option Float) (before after : List Token) :
    quiet held (before ++ .operator (.sum .add) :: .operator (.sum .add) :: after) =
      quiet held (before ++ .operator (.sum .add) :: after) := by
  fun_induction quiet held before with
  | case1 held => cases held <;> rfl
  | case4 => rfl
  | case8 rest noOperand =>
      rw [List.cons_append, List.cons_append, quiet, quiet]
      · exact Token.not_operand_append noOperand _ _
      · exact Token.not_operand_append noOperand _ _
  | case2 _ _ _ ih | case3 _ _ ih | case5 _ _ _ ih | case6 _ ih | case7 _ _ ih | case9 _ _ _ ih =>
      simp only [List.cons_append, quiet, ih]

/-- A `+` where an operand is awaited never counts. -/
theorem quiet_plus {before : List Token} (awaits : Token.AwaitsOperand before) (after : List Token) :
    quiet none (before ++ .operator (.sum .add) :: after) = quiet none (before ++ after) := by
  cases awaits with
  | nothing => rfl
  | plus before => simpa using quiet_plus_plus none before after
  | product before op =>
      have joins : (Operator.product op).JoinsAfter before := trivial
      simp only [List.append_assoc, List.singleton_append, quiet_append none joins]
      rfl
  | @minus before ends =>
      have joins : (Operator.sum .subtract).JoinsAfter before := ends
      simp only [List.append_assoc, List.singleton_append, quiet_append none joins]
      rfl

end Signs

namespace Scan

theorem outcome_plus (text : String) :
    (tokens ("+" ++ text)).outcome = (tokens text).outcome.map (.operator (.sum .add) :: ·) := by
  have joined : joined "" (.sum .add) text = "+" ++ text := congrArg (· ++ text) (String.empty_append)
  rw [← joined, outcome_joined]
  rfl

end Scan

namespace Evaluation

open Token (AwaitsOperand)

/-- A `+` that can only be a sign makes no difference, neither to the value nor to the fault. -/
theorem plus_is_neutral :
    (∀ {before : List Token}, AwaitsOperand before → ∀ after,
      (ofTokens (before ++ .operator (.sum .add) :: after)).outcome = (ofTokens (before ++ after)).outcome) ∧
    ∀ text, (ofText ("+" ++ text)).outcome.map Evaluation.value = (ofText text).outcome.map Evaluation.value := by
  have tokens {before : List Token} (awaits : AwaitsOperand before) (after : List Token) :
      (ofTokens (before ++ .operator (.sum .add) :: after)).outcome = (ofTokens (before ++ after)).outcome := by
    rw [outcome_ofTokens, outcome_ofTokens, Signs.quiet_plus awaits]
  refine ⟨tokens, fun text => ?_⟩
  rw [outcome_ofText, outcome_ofText, Scan.outcome_plus]
  cases (Scan.tokens text).outcome with
  | error fault => rfl
  | ok list =>
      have same : (ofTokens (.operator (.sum .add) :: list)).outcome = (ofTokens list).outcome := tokens .nothing list
      simp only [Except.map, Except.bind, same]
      cases (ofTokens list).outcome <;> rfl

/-- After a binary `-`, and before the end of a product that lacks its right factor. -/
theorem plus_after_minus_and_product :
    have minus : List Token := [.operand 2, .operator (.sum .subtract)]
    have product : List Token := [.operand 2, .operator (.product .multiply)]
    (AwaitsOperand minus ∧ (ofTokens (minus ++ .operator (.sum .add) :: [.operand 3])).outcome =
      .ok (SumOp.subtract.apply 2 3)) ∧
    AwaitsOperand product ∧ (ofTokens (product ++ .operator (.sum .add) :: [])).outcome =
      .error (.incompleteProduct .multiply) := by
  intro minus product
  have ends : EndsOperand [.operand 2] := ⟨.operand 2, rfl, rfl⟩
  have afterMinus : AwaitsOperand minus := .minus ends
  have afterProduct : AwaitsOperand product := .product [.operand 2] .multiply
  exact ⟨⟨afterMinus, plus_is_neutral.1 afterMinus [.operand 3]⟩, afterProduct, plus_is_neutral.1 afterProduct []⟩

end Evaluation

end Reckoner
