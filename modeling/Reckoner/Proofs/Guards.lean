import Reckoner.Proofs.Classification
import Reckoner.Proofs.Invariants
import Reckoner.Proofs.Lexemes

/-! # Guarded stages

Stages check what earlier stages owe them: no operator comes late, no sum comes before any operand, every operator has an
operation. A guarded stage tells such a breach from a fault of its input and is otherwise the same stage. Evaluations
never breach.
-/

namespace Reckoner

open Token (release)

/-- Why a stage that tells breaches from faults of its input has no result. -/
inductive Failure where
  | input (fault : Fault)
  | breach (breach : Breach)

/-- The fault that callers see. -/
def Failure.fault : Failure → Fault
  | input fault => fault
  | breach found => found.fault

/-- Answers with outcomes alone and tells breaches apart. -/
def Handler.guarded : Handler (Except Failure) Unit where
  start := ()
  next := id
  tell _ := .ok ()
  carryOut _ := .ok ()
  ofExcept := .mapError .input
  stop _ misplacement := .error (.input misplacement.fault)
  breach found := .error (.breach found)

theorem Handler.guarded_seenAs_plain : guarded.WhollySeenAs plain (Except.mapError Failure.fault) where
  pure _ := rfl
  map f x := Except.mapError_map f Failure.fault x
  bind x f := by cases x <;> rfl
  tell _ := rfl
  carryOut _ := rfl
  ofExcept outcome := by cases outcome <;> rfl
  stop _ _ _ := rfl
  breach _ := rfl

theorem Handler.plain_seenAs_guarded : plain.SeenAs guarded (Except.mapError Failure.input) where
  pure _ := rfl
  map f x := Except.mapError_map f Failure.input x
  bind x f := by cases x <;> rfl
  tell _ := rfl
  ofExcept _ := rfl
  stop _ _ _ := rfl

/-- Where no breach is found, a guarded result is the plain one. -/
theorem Failure.eq_mapError_input {α : Type} {guarded : Except Failure α} {plain : Except Fault α}
    (same : guarded.mapError fault = plain) (sound : ∀ found, guarded ≠ .error (.breach found)) :
    guarded = plain.mapError input := by
  subst same
  match guarded, sound with
  | .ok _, _ | .error (.input _), _ => rfl
  | .error (.breach found), sound => exact (sound found rfl).elim

theorem Scan.guarded_eq (literal : String) (chars : List Char) :
    work .guarded literal chars = (quiet literal chars).mapError .input :=
  work_eq_quiet Handler.plain_seenAs_guarded literal chars

theorem Signs.guarded_eq (tokens : List Token) : stage .guarded tokens = (quiet none tokens).mapError .input :=
  stage_eq_quiet Handler.plain_seenAs_guarded tokens

namespace Products

theorem guarded_ne_breach {place : Unit} {held : Option Float} {tokens : List Token}
    (settled : Settled true held.isSome tokens) (found : Breach) :
    work .guarded place held tokens ≠ .error (.breach found) := by
  fun_induction work Handler.guarded place held tokens with
  | case1 | case4 =>
      intro same
      cases same
  | case2 _ held value rest ih => exact mt Except.map_eq_error.mp (ih settled)
  | case3 _ left op right rest ih => exact ih _ settled.2
  | case5 _ held op rest ih => exact mt Except.map_eq_error.mp (ih settled.2)
  | case6 => exact settled.elim

theorem guarded_eq {tokens : List Token} (settled : Settled true false tokens) :
    stage .guarded tokens = (quiet none tokens).mapError .input :=
  Failure.eq_mapError_input ((view_stage Handler.guarded_seenAs_plain tokens).trans (work_plain () none tokens))
    (guarded_ne_breach settled)

end Products

namespace Sums

theorem guarded_ne_breach {behind : Nat} {running : Option Float} {tokens : List Token}
    (settled : Settled false running.isSome tokens) (found : Breach) :
    work .guarded behind running tokens ≠ .error (.breach found) := by
  fun_induction work Handler.guarded behind running tokens with
  | case1 | case6 =>
      intro same
      cases same
  | case2 behind value => by_cases crowded : behind = 0 <;> simp [Handler.guarded, Except.mapError, crowded]
  | case3 behind value rest ih | case4 behind running value rest ih => exact ih settled
  | case5 behind left op right rest ih => exact ih _ settled.2
  | case7 => cases settled.1
  | case8 behind running op rest _ notLater notFirst =>
      cases op with
      | factorial => exact settled.elim
      | product => cases settled.1
      | sum op =>
          cases running with
          | none => exact (notFirst op rfl rfl).elim
          | some left => exact (notLater left op rfl rfl).elim

theorem guarded_eq {tokens : List Token} (settled : Settled false false tokens) :
    stage .guarded tokens = (fold 0 none tokens).mapError .input :=
  Failure.eq_mapError_input ((view_stage Handler.guarded_seenAs_plain tokens).trans (work_plain 0 none tokens))
    (guarded_ne_breach settled)

end Sums

namespace Evaluation

theorem StopsAtSigns.kind {tokens : List Token} {fault : Fault} (stops : StopsAtSigns tokens fault) :
    fault.kind = .misplacedOperator := by
  obtain ⟨i, sign, -, rfl⟩ := stopsAtSigns_iff.mp stops
  cases sign <;> rfl

theorem StopsAtProducts.kind {tokens : List Token} {fault : Fault} (stops : StopsAtProducts tokens fault) :
    fault.kind = .misplacedOperator := by
  obtain ⟨-, i, op, -, rfl⟩ := stopsAtProducts_iff.mp stops
  rfl

theorem StopsAtSums.kind {tokens : List Token} {fault : Fault} (stops : StopsAtSums tokens fault) :
    fault.kind = .unknown := by
  obtain ⟨i, op, -, rfl⟩ | ⟨-, ⟨-, rfl⟩ | ⟨-, -, rfl⟩⟩ := fault?_iff.mp (stopsAtSums_iff.mp stops).2.2 <;> rfl

theorem kind_ne_late {text : String} {fault : Fault} (h : (ofText text).outcome = .error fault) :
    fault.kind ≠ .lateOperator := by
  rw [outcome_ofText, Except.bind_eq_error] at h
  obtain unread | ⟨tokens, -, stops⟩ := h
  · obtain ⟨literal, -, rfl⟩ := Option.map_eq_some_iff.mp (Scan.error?_tokens text ▸ Except.error?_eq_some.mpr unread)
    simp [Fault.kind]
  · rw [Except.map_eq_error, error_iff_stops] at stops
    obtain signs | products | sums := stops
    · simp [signs.kind]
    · simp [products.kind]
    · simp [sums.kind]

/-- The evaluation of a text that tells breaches apart. -/
def guarded (text : String) : Except Failure Evaluation :=
  work .guarded text

theorem guarded_eq (text : String) : guarded text = (ofText text).outcome.mapError .input := by
  rw [outcome_ofText, guarded, work, Scan.guarded_eq, Scan.outcome_tokens]
  cases Scan.quiet "" text.toList with
  | error => rfl
  | ok tokens =>
      simp only [Except.mapError, Except.bind, bind, pure, Except.pure, outcome_ofTokens, reduce, Signs.guarded_eq]
      cases signs : Signs.quiet none tokens with
      | error => rfl
      | ok binary =>
          have settled : Settled true false binary := Signs.settled_quiet signs false
          simp only [Products.guarded_eq settled]
          cases products : Products.quiet none binary with
          | error => rfl
          | ok sums =>
              have settled : Settled false false sums := @Products.settled_quiet none _ _ settled products false
              simp only [Except.mapError, Sums.guarded_eq settled]
              cases Sums.fold 0 none sums <;> rfl

/-- The first stage leaves operands and binary operators, the second operands and sums between them, each with all that it
does not compute in place, and neither changes a list of its own making. So no evaluation breaches a check that a stage
makes on the stages before it. -/
theorem stage_invariants :
    (∀ tokens binary, (Signs.resolve tokens).outcome = .ok binary →
      Signless binary ∧
        (∀ before op op' after, binary ≠ before ++ .operator (.sum op) :: .operator (.sum op') :: after) ∧
        binary.filterMap Token.product? = tokens.filterMap Token.product? ∧
        binary.countP Token.isOperand = tokens.countP Token.isOperand ∧
        (Signs.resolve binary).outcome = .ok binary) ∧
      (∀ binary sums, (Products.resolve binary).outcome = .ok sums →
        (∀ token ∈ sums, token.isTermwise = true) ∧
          sums.filterMap Token.sum? = binary.filterMap Token.sum? ∧
          sums.countP Token.isOperand + (binary.filterMap Token.product?).length = binary.countP Token.isOperand ∧
          (Signless binary → SumsFollowOperands sums ∧ SumsPrecedeOperands sums) ∧
          (Products.resolve sums).outcome = .ok sums) ∧
      ∀ text, (∀ fault, (ofText text).outcome = .error fault → fault.kind ≠ .lateOperator) ∧
        (∀ failed, guarded text ≠ .error (.breach failed)) ∧ guarded text = (ofText text).outcome.mapError .input := by
  refine ⟨fun tokens binary h => ?signs, fun binary sums h => ?products,
    fun text => ⟨fun _ => kind_ne_late, ?sound, guarded_eq text⟩⟩
  case signs =>
    rw [Signs.outcome_resolve] at h ⊢
    have settled : Settled true false binary := Signs.settled_quiet h false
    exact ⟨settled.signless, fun _ op op' _ => settled.signless.binary.not_adjacent op op',
      Signs.filterMap_quiet Token.product? (fun _ => rfl) rfl (fun _ => rfl) h, Signs.operands_quiet h,
      Signs.quiet_settled settled⟩
  case products =>
    rw [Products.outcome_resolve] at h ⊢
    have termwise := Products.isTermwise_quiet h
    refine ⟨termwise, Products.sums_quiet h, Products.operands_quiet h, fun signless => ?_,
      Products.quiet_termwise termwise⟩
    have settled : Settled false false sums := @Products.settled_quiet none _ _ signless.settled h false
    exact ⟨settled.signless.binary, settled.sumsPrecedeOperands⟩
  case sound =>
    intro failed
    rw [guarded_eq]
    cases (ofText text).outcome <;> simp [Except.mapError]

theorem sign_product_and_sum :
    have tokens : List Token := [.operator (.sum .subtract), .operand 2, .operator (.product .multiply), .operand 3,
      .operator (.sum .add), .operand 1]
    have binary : List Token := [.operand (-2), .operator (.product .multiply), .operand 3, .operator (.sum .add), .operand 1]
    have sums : List Token := [.operand (ProductOp.multiply.apply (-2) 3), .operator (.sum .add), .operand 1]
    (Signs.resolve tokens).outcome = .ok binary ∧ (Products.resolve binary).outcome = .ok sums ∧
      Signless binary ∧ SumsFollowOperands sums ∧ SumsPrecedeOperands sums := by
  intro tokens binary sums
  have signs : (Signs.resolve tokens).outcome = .ok binary := rfl
  have products : (Products.resolve binary).outcome = .ok sums := rfl
  have signless : Signless binary := (stage_invariants.1 tokens binary signs).1
  exact ⟨signs, products, signless, (stage_invariants.2.1 binary sums products).2.2.2.1 signless⟩

end Evaluation

end Reckoner
