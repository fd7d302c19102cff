import Reckoner.Proofs.Replay

/-! # Where a NaN comes from

Literals are numbers that are not negative, and signs and factorials make numbers of numbers. So an evaluation comes to the
NaN only through an invalid operation: a product, quotient, sum or difference of two numbers that is no number.
-/

namespace Reckoner

open Token (release)

/-- An operation on two numbers that has no number for a value. -/
structure Operation.IsInvalid (operation : Operation) : Prop where
  left : operation.left.isNaN = false
  right : operation.right.isNaN = false
  value : ∃ value, operation.value? = some value ∧ value.isNaN = true

/-- A computation with the operations that it carries out, in order. -/
structure Performed (α : Type) where
  operations : List Operation
  outcome : Except Fault α

namespace Performed

variable {α β : Type}

/-- Goes on with the value, if there is one. -/
protected def bind (x : Performed α) (f : α → Performed β) : Performed β :=
  match x.outcome with
  | .ok a => ⟨x.operations ++ (f a).operations, (f a).outcome⟩
  | .error fault => ⟨x.operations, .error fault⟩

instance : Monad Performed where
  pure a := ⟨[], .ok a⟩
  bind := Performed.bind
  map f x := ⟨x.operations, x.outcome.map f⟩

/-- A computation without operations. -/
def ofExcept (outcome : Except Fault α) : Performed α := ⟨[], outcome⟩

@[simp] theorem outcome_pure (a : α) : (pure a : Performed α).outcome = .ok a := rfl

@[simp] theorem operations_pure (a : α) : (pure a : Performed α).operations = [] := rfl

@[simp] theorem outcome_map (f : α → β) (x : Performed α) : (f <$> x).outcome = x.outcome.map f := rfl

@[simp] theorem operations_map (f : α → β) (x : Performed α) : (f <$> x).operations = x.operations := rfl

@[simp] theorem outcome_ofExcept (outcome : Except Fault α) : (ofExcept outcome).outcome = outcome := rfl

@[simp] theorem operations_ofExcept (outcome : Except Fault α) : (ofExcept outcome).operations = [] := rfl

@[simp] theorem outcome_bind (x : Performed α) (f : α → Performed β) :
    (x >>= f).outcome = x.outcome.bind fun a => (f a).outcome := by
  change (x.bind f).outcome = _
  unfold Performed.bind
  cases x.outcome <;> rfl

theorem operations_bind (x : Performed α) (f : α → Performed β) :
    (x >>= f).operations = x.operations ++ match x.outcome with
      | .ok a => (f a).operations
      | .error _ => [] := by
  change (x.bind f).operations = _
  unfold Performed.bind
  cases x.outcome <;> simp

def operators (x : Performed α) : List Operator :=
  x.operations.map Operation.operator

/-- The operators of a computation are carried out one after the other, and all of them if it comes to a value. -/
def CarriesOut (x : Performed α) (operators : List Operator) : Prop :=
  x.operators <+: operators ∧ ∀ a, x.outcome = .ok a → x.operators = operators

theorem CarriesOut.map {x : Performed α} {operators : List Operator} (carries : x.CarriesOut operators) (f : α → β) :
    (f <$> x).CarriesOut operators := by
  refine ⟨carries.1, fun b h => ?_⟩
  obtain ⟨a, run, -⟩ := Except.map_eq_ok.mp h
  exact carries.2 a run

theorem CarriesOut.ofExcept (outcome : Except Fault α) : (ofExcept outcome).CarriesOut [] :=
  ⟨List.prefix_refl [], fun _ _ => rfl⟩

theorem CarriesOut.error (fault : Fault) (operators : List Operator) :
    (Performed.ofExcept (.error fault) : Performed α).CarriesOut operators :=
  ⟨List.nil_prefix, nofun⟩

end Performed

open Performed (operations_bind outcome_bind outcome_ofExcept outcome_pure)

namespace Handler

/-- Lists the operations that the stages carry out. -/
def performed : Handler Performed Unit where
  start := ()
  next := id
  tell _ := pure ()
  carryOut operation := ⟨[operation], .ok ()⟩
  ofExcept := .ofExcept
  stop _ misplacement := .ofExcept (.error misplacement.fault)
  breach found := .ofExcept (.error found.fault)

theorem performed_seenAs_plain : performed.WhollySeenAs plain Performed.outcome where
  pure _ := rfl
  map _ _ := rfl
  bind := outcome_bind
  tell _ := rfl
  carryOut _ := rfl
  ofExcept _ := rfl
  stop _ _ _ := rfl
  breach _ := rfl

/-- Where no operation is carried out, none is listed. -/
theorem plain_seenAs_performed : plain.SeenAs performed Performed.ofExcept where
  pure _ := rfl
  map _ _ := rfl
  bind x f := by cases x <;> rfl
  tell _ := rfl
  ofExcept _ := rfl
  stop _ _ _ := rfl

theorem performed_operate {operator : Operator} {left right value : Float}
    (computes : operator.compute? left right = some value) {α : Type} (f : Float → Performed α) :
    performed.operate operator left right >>= f = ⟨⟨operator, left, right⟩ :: (f value).operations, (f value).outcome⟩ := by
  unfold operate
  rw [computes]
  rfl

theorem performed_carriesOut {operator : Operator} {left right value : Float}
    (computes : operator.compute? left right = some value) {α : Type} {f : Float → Performed α}
    {operators : List Operator} (carries : (f value).CarriesOut operators) :
    (performed.operate operator left right >>= f).CarriesOut (operator :: operators) := by
  rw [performed_operate computes]
  exact ⟨List.cons_prefix_cons.mpr ⟨rfl, carries.1⟩, fun a h => congrArg (operator :: ·) (carries.2 a h)⟩

end Handler

theorem Scan.performed_eq (text : String) : work .performed "" text.toList = .ofExcept (tokens text).outcome := by
  rw [outcome_tokens, work_eq_quiet Handler.plain_seenAs_performed]

theorem Signs.performed_eq (tokens : List Token) : stage .performed tokens = .ofExcept (resolve tokens).outcome := by
  rw [outcome_resolve, stage_eq_quiet Handler.plain_seenAs_performed]

/-- No operand is the NaN. -/
def Numbers (tokens : List Token) : Prop :=
  ∀ value, .operand value ∈ tokens → value.isNaN = false

@[simp] theorem numbers_nil : Numbers [] := nofun

@[simp] theorem numbers_operand {value : Float} {rest : List Token} :
    Numbers (.operand value :: rest) ↔ value.isNaN = false ∧ Numbers rest := by
  simp [Numbers]

@[simp] theorem numbers_operator {op : Operator} {rest : List Token} :
    Numbers (.operator op :: rest) ↔ Numbers rest := by
  simp [Numbers]

theorem numbers_release {held : Option Float} {rest : List Token} :
    Numbers (release held rest) ↔ (∀ value, held = some value → value.isNaN = false) ∧ Numbers rest := by
  cases held <;> simp

/-- A valid operation on two numbers leaves a number in their place. -/
theorem Numbers.operate {α : Type} {operator between : Operator} {left right value : Float} {rest : List Token}
    {f : Float → Performed α} (computes : operator.compute? left right = some value)
    (numbers : Numbers (.operand left :: .operator between :: .operand right :: rest))
    (valid : ∀ done ∈ (Handler.performed.operate operator left right >>= f).operations, ¬done.IsInvalid) :
    Numbers (.operand value :: rest) ∧ ∀ done ∈ (f value).operations, ¬done.IsInvalid := by
  rw [Handler.performed_operate computes, List.forall_mem_cons] at valid
  simp only [numbers_operand, numbers_operator] at numbers ⊢
  obtain ⟨left, right, rest⟩ := numbers
  have number : value.isNaN = false :=
    Bool.eq_false_iff.mpr fun nan => valid.1 ⟨left, right, value, computes, nan⟩
  exact ⟨⟨number, rest⟩, valid.2⟩

namespace Products

/-- The second stage carries out its products and quotients from left to right. -/
theorem performed_carriesOut (place : Unit) (held : Option Float) (tokens : List Token) :
    (work .performed place held tokens).CarriesOut ((tokens.filterMap Token.product?).map .product) := by
  fun_induction work Handler.performed place held tokens with
  | case1 => exact .ofExcept (.ok _)
  | case2 _ held value rest ih | case5 _ held op rest ih => exact ih.map _
  | case3 _ left op right rest ih => exact Handler.performed_carriesOut rfl (ih _)
  | case4 | case6 => exact .error _ _

/-- Without invalid operations the second stage leaves numbers. -/
theorem numbers_performed {place : Unit} {held : Option Float} {tokens output : List Token}
    (numbers : Numbers (release held tokens))
    (valid : ∀ operation ∈ (work .performed place held tokens).operations, ¬operation.IsInvalid)
    (h : (work .performed place held tokens).outcome = .ok output) : Numbers output := by
  fun_induction work Handler.performed place held tokens generalizing output with
  | case1 =>
      cases h
      exact numbers
  | case2 _ held value rest ih =>
      obtain ⟨output, run, rfl⟩ := Except.map_eq_ok.mp h
      obtain ⟨holds, number, rest⟩ := numbers_release.mp numbers |>.imp_right numbers_operand.mp
      exact numbers_release.mpr ⟨holds, ih (numbers_operand.mpr ⟨number, rest⟩) valid run⟩
  | case3 _ left op right rest ih =>
      obtain ⟨numbers, valid⟩ := numbers.operate rfl valid
      exact ih _ numbers valid h
  | case4 | case6 => cases h
  | case5 _ held op rest ih =>
      obtain ⟨output, run, rfl⟩ := Except.map_eq_ok.mp h
      obtain ⟨holds, rest⟩ := numbers_release.mp numbers |>.imp_right numbers_operator.mp
      exact numbers_release.mpr ⟨holds, numbers_operator.mpr (ih rest valid run)⟩

end Products

namespace Sums

/-- The third stage carries out its sums and differences from left to right. -/
theorem performed_carriesOut (behind : Nat) (running : Option Float) (tokens : List Token) :
    (work .performed behind running tokens).CarriesOut ((tokens.filterMap Token.sum?).map .sum) := by
  fun_induction work Handler.performed behind running tokens with
  | case1 | case2 => exact .ofExcept _
  | case3 behind value rest ih => exact ih
  | case4 behind running value rest ih => exact ih
  | case5 behind left op right rest ih => exact Handler.performed_carriesOut rfl (ih _)
  | case6 | case7 | case8 => exact .error _ _

/-- Without invalid operations the third stage comes to a number. -/
theorem number_performed {behind : Nat} {running : Option Float} {tokens : List Token} {value : Float}
    (numbers : Numbers (release running tokens))
    (valid : ∀ operation ∈ (work .performed behind running tokens).operations, ¬operation.IsInvalid)
    (h : (work .performed behind running tokens).outcome = .ok value) : value.isNaN = false := by
  fun_induction work Handler.performed behind running tokens with
  | case1 | case6 | case7 | case8 => cases h
  | case2 behind last =>
      change (if behind = 0 then .ok last else .error (Fault.unconnected (behind + 1))) = Except.ok value at h
      split at h
      · cases h
        exact numbers value List.mem_cons_self
      · cases h
  | case3 behind value rest ih => exact ih numbers valid h
  | case4 behind running value rest ih => exact ih (numbers_operand.mp numbers).2 valid h
  | case5 behind left op right rest ih =>
      obtain ⟨numbers, valid⟩ := numbers.operate rfl valid
      exact ih _ numbers valid h

end Sums

namespace Factorial

/-- As long as the product is at least one, so is the next one, and every factor is a number. -/
theorem Descends.grows {round : Round} {k : ℕ} {result : Descent} (h : Descends round k result)
    (grown : 1 ≤ round.product) (number : round.factor.isNaN = false) :
    1 ≤ result.value ∧ ∀ r ∈ result.rounds, r.factor.isNaN = false ∧ 1 ≤ r.product := by
  induction h with
  | last => exact ⟨grown, List.forall_mem_singleton.mpr ⟨number, grown⟩⟩
  | settled more =>
      have counts := (isLast_eq_false number).mp more
      exact ⟨one_le_next grown counts, List.forall_mem_singleton.mpr ⟨number, grown⟩⟩
  | @further round _ rest more _ _ ih =>
      have counts := (isLast_eq_false number).mp more
      have number' : round.next.factor.isNaN = false :=
        (Binary64.isNaN_of_le (Binary64.sub_one_mono (by decide +kernel) (one_le_of_counts counts))).2
      obtain ⟨value, rounds⟩ := ih (one_le_next grown counts) number'
      exact ⟨value, List.forall_mem_cons.mpr ⟨⟨number, grown⟩, rounds⟩⟩

theorem descent_grows {n : Float} (number : n.isNaN = false) :
    1 ≤ value n ∧ ∀ r ∈ (descent n).rounds, r.factor.isNaN = false ∧ 1 ≤ r.product := by
  obtain ⟨k, -, descends⟩ := descends_descent n
  have unit : (1 : Float) ≤ 1 := by decide +kernel
  exact descends.grows unit number

/-- The loop never goes on to a product that is no number. -/
theorem isNaN_next {n : Float} (number : n.isNaN = false) {round : Round} (member : round ∈ (descent n).rounds)
    (more : round.isLast = false) : round.next.product.isNaN = false := by
  obtain ⟨number, grown⟩ := (descent_grows number).2 round member
  exact (Binary64.isNaN_of_le (one_le_next grown ((isLast_eq_false number).mp more))).2

end Factorial

theorem Binary64.isNaN_neg {x : Float} (number : x.isNaN = false) : (-x).isNaN = false := by
  obtain rfl | ⟨sign, n, bound, rfl⟩ := nan_or_signed x
  · cases number
  · rw [neg_signed sign bound, isNaN_signed (-sign) bound]

theorem Factorial.isNaN_value {n : Float} (number : n.isNaN = false) : (value n).isNaN = false :=
  (Binary64.isNaN_of_le (descent_grows number).1).2

theorem Token.EndsIn.isNaN {tokens : List Token} {value : Float} (ends : EndsIn tokens value)
    (numbers : Numbers tokens) : value.isNaN = false := by
  induction ends with
  | operand value => exact numbers value (by simp)
  | negated value => exact Binary64.isNaN_neg (numbers value (by simp))
  | factorial _ ih =>
      exact Factorial.isNaN_value (ih fun value member => numbers value (List.mem_append_left _ member))

namespace Signs

/-- Signs and factorials make numbers of numbers. -/
theorem numbers_quiet {held : Option Float} {tokens output : List Token} (numbers : Numbers (release held tokens))
    (h : quiet held tokens = .ok output) : Numbers output := by
  fun_induction quiet held tokens generalizing output with
  | case1 =>
      cases h
      exact numbers
  | case2 held value rest ih =>
      obtain ⟨output, run, rfl⟩ := Except.map_eq_ok.mp h
      obtain ⟨holds, rest⟩ := numbers_release.mp numbers
      exact numbers_release.mpr ⟨holds, ih rest run⟩
  | case3 value rest ih =>
      obtain ⟨number, rest⟩ := numbers_operand.mp numbers
      have number' : (Factorial.quiet value).isNaN = false := by
        rw [Factorial.quiet_eq_value]
        exact Factorial.isNaN_value number
      exact ih (numbers_operand.mpr ⟨number', numbers_operator.mp rest⟩) h
  | case4 | case8 => cases h
  | case5 value op rest ih =>
      obtain ⟨output, run, rfl⟩ := Except.map_eq_ok.mp h
      obtain ⟨number, rest⟩ := numbers_operand.mp numbers
      exact numbers_operand.mpr ⟨number, numbers_operator.mpr (ih (numbers_operator.mp rest) run)⟩
  | case6 rest ih => exact ih (numbers_operator.mp numbers) h
  | case7 value rest ih =>
      obtain ⟨number, rest⟩ := numbers_operand.mp (numbers_operator.mp numbers)
      exact ih (numbers_operand.mpr ⟨Binary64.isNaN_neg number, rest⟩) h
  | case9 held op rest ih =>
      obtain ⟨output, run, rfl⟩ := Except.map_eq_ok.mp h
      obtain ⟨holds, rest⟩ := numbers_release.mp numbers
      exact numbers_release.mpr ⟨holds, numbers_operator.mpr (ih (numbers_operator.mp rest) run)⟩

/-- The factorials of the stage are those of numbers. -/
theorem number_scan {tokens : List Token} (numbers : Numbers tokens) {n : Float} {round : Factorial.Round}
    (member : .step (.factorial n round) ∈ (scan 0 none tokens).records) :
    n.isNaN = false ∧ round ∈ (Factorial.descent n).rounds := by
  obtain ⟨operands, ends, records⟩ := @tellsFactorials_scan 0 none tokens [] .nothing
  rw [records, List.mem_flatMap] at member
  obtain ⟨operand, isOperand, told⟩ := member
  rw [records_factorial, List.mem_map] at told
  obtain ⟨round, isRound, same⟩ := told
  cases same
  have part (i : ℕ) : Numbers (tokens.take i) := fun value found => numbers value (List.mem_of_mem_take found)
  have all := (List.forall₂_and_left _ _).mp (ends.flip.imp fun n place ends => ⟨ends.isNaN (part place.2), ends⟩)
  exact ⟨all.1 n isOperand, isRound⟩

end Signs

namespace Scan

/-- Literals are numbers that are not negative, the infinite ones included. -/
theorem signed_quiet {literal : String} {chars : List Char} {output : List Token} (h : quiet literal chars = .ok output)
    {value : Float} (member : .operand value ∈ output) :
    ∃ n ≤ Binary64.infinityBits, value = Binary64.signed .positive n := by
  have closed {literal : String} {tokens : List Token} (h : close literal = .ok tokens)
      (member : .operand value ∈ tokens) : ∃ n ≤ Binary64.infinityBits, value = Binary64.signed .positive n := by
    unfold close at h
    split at h
    · cases h
      cases member
    · split at h
      · rename_i d _
        cases h
        cases List.mem_singleton.mp member
        exact ⟨_, Binary64.number_le d.value, Binary64.nearest_eq d.value⟩
      · cases h
  fun_induction quiet literal chars generalizing output with
  | case1 literal => exact closed h member
  | case2 literal c rest digit ih => exact ih h member
  | case3 literal c rest other none ih => exact ih h member
  | case4 literal c rest other op found ih =>
      obtain ⟨tokens, closes, tail⟩ := Except.bind_eq_ok.mp h
      obtain ⟨output, run, rfl⟩ := Except.map_eq_ok.mp tail
      obtain before | after := List.mem_append.mp member
      · exact closed closes before
      · exact ih run (by simpa using after)

/-- The tokens of a text have no signs, and no NaN. -/
theorem operand_tokens {text : String} {tokens : List Token} (h : (Scan.tokens text).outcome = .ok tokens) {value : Float}
    (member : .operand value ∈ tokens) :
    value.isNaN = false ∧ 0 ≤ value ∧ value.toBits.toNat < Binary64.signBit := by
  rw [outcome_tokens] at h
  obtain ⟨n, bound, rfl⟩ := signed_quiet h member
  refine ⟨Binary64.isNaN_signed .positive bound, ?_, ?_⟩
  · rw [Binary64.zero_eq, Binary64.signed_le_signed (Nat.zero_le _) bound]
    exact Nat.zero_le n
  · rw [Binary64.toBits_signed .positive bound, Binary64.offset, Nat.zero_add]
    exact bound.trans_lt (by decide)

theorem numbers_tokens {text : String} {tokens : List Token} (h : (Scan.tokens text).outcome = .ok tokens) :
    Numbers tokens :=
  fun _ member => (operand_tokens h member).1

end Scan

namespace Record

/-- A round that is not the last of its factorial. -/
def goesOn : Record → Bool
  | step (.factorial _ round) => !round.isLast
  | _ => false

theorem eq_of_goesOn {record : Record} (more : record.goesOn = true) :
    ∃ n round, record = .step (.factorial n round) ∧ round.isLast = false := by
  unfold goesOn at more
  split at more
  · exact ⟨_, _, rfl, (Bool.not_eq_true' _).mp more⟩
  · cases more

end Record

namespace Evaluation

/-- The factorials that the evaluation of a text tells are those of its first stage. -/
theorem factorial_of_ofText {text : String} {n : Float} {round : Factorial.Round}
    (member : .step (.factorial n round) ∈ (ofText text).records) :
    ∃ tokens, (Scan.tokens text).outcome = .ok tokens ∧
      .step (.factorial n round) ∈ (Signs.scan 0 none tokens).records := by
  obtain ⟨skipped, heard⟩ := Scan.records_skipped text
  have notSkipped : .step (.factorial n round) ∉ skipped.map Record.skip := by simp [Record.skip]
  rw [records_ofText, heard] at member
  have staged : .step (.factorial n round) ∈ stages text := by simpa [notSkipped] using member
  cases read : (Scan.tokens text).outcome with
  | error =>
      rw [stages, read] at staged
      cases staged
  | ok tokens =>
      have notLater : .step (.factorial n round) ∉ laterStages tokens := fun later =>
        Bool.false_ne_true (isStage_laterStages tokens _ later)
      simp only [stages, read, records_ofTokens] at staged
      exact ⟨tokens, rfl, by simpa [notLater] using staged⟩

/-- The evaluation of a text that lists the operations of its stages. -/
def performed (text : String) : Performed Evaluation :=
  work .performed text

theorem outcome_performed (text : String) : (performed text).outcome = (ofText text).outcome :=
  (view_work Handler.performed_seenAs_plain text).trans (outcome_eq_plain text).symm

theorem performed_eq_ok {text : String} {evaluation : Evaluation} (h : (performed text).outcome = .ok evaluation) :
    ∃ binary sums, (Signs.resolve evaluation.tokens).outcome = .ok binary ∧
      (Scan.tokens text).outcome = .ok evaluation.tokens ∧
      (Products.work .performed () none binary).outcome = .ok sums ∧
      (Sums.work .performed 0 none sums).outcome = .ok evaluation.value ∧
      (performed text).operations =
        (Products.work .performed () none binary).operations ++ (Sums.work .performed 0 none sums).operations := by
  -- Neither scanning nor the first stage carries out an operation, so their outcomes are all there is of them.
  have stages : performed text = Performed.ofExcept (Scan.tokens text).outcome >>= fun tokens =>
      (Performed.ofExcept (Signs.resolve tokens).outcome >>= fun binary =>
        Products.work .performed () none binary >>= Sums.work .performed 0 none) >>= fun value =>
      pure ⟨value, tokens⟩ := by
    rw [← Scan.performed_eq]
    simp only [← Signs.performed_eq]
    rfl
  rw [stages] at h ⊢
  simp only [outcome_bind, outcome_ofExcept, outcome_pure, Except.bind_eq_ok] at h
  obtain ⟨tokens, read, value, ⟨binary, signs, sums, products, folds⟩, same⟩ := h
  cases same
  refine ⟨binary, sums, signs, read, products, folds, ?_⟩
  simp [operations_bind, read, signs, products, folds, Except.bind]

/-- A successful evaluation carries out one operation for each operator that its first stage leaves: the products and
quotients from left to right, then the sums and differences. -/
theorem operators_performed {text : String} {evaluation : Evaluation}
    (h : (performed text).outcome = .ok evaluation) :
    ∃ binary, (Signs.resolve evaluation.tokens).outcome = .ok binary ∧
      (performed text).operators =
        (binary.filterMap Token.product?).map .product ++ (binary.filterMap Token.sum?).map .sum := by
  obtain ⟨binary, sums, signs, -, products, folds, operations⟩ := performed_eq_ok h
  refine ⟨binary, signs, ?_⟩
  have resolved : Products.quiet none binary = .ok sums := by
    rw [← Products.work_plain (), ← Products.view_work Handler.performed_seenAs_plain () ()]
    exact products
  rw [Performed.operators, operations, List.map_append, ← Products.sums_quiet resolved]
  exact congrArg₂ (· ++ ·) ((Products.performed_carriesOut () none binary).2 sums products)
    ((Sums.performed_carriesOut 0 none sums).2 evaluation.value folds)

/-- An evaluation comes to the NaN through an invalid operation of its second or third stage only. -/
theorem invalid_of_isNaN {text : String} {evaluation : Evaluation} (h : (performed text).outcome = .ok evaluation)
    (nan : evaluation.value.isNaN = true) : ∃ operation ∈ (performed text).operations, operation.IsInvalid := by
  obtain ⟨binary, sums, signs, read, products, folds, operations⟩ := performed_eq_ok h
  rw [operations]
  by_contra valid
  simp only [not_exists, not_and, List.forall_mem_append] at valid
  rw [Signs.outcome_resolve] at signs
  have numbers : Numbers binary := @Signs.numbers_quiet none _ _ (Scan.numbers_tokens read) signs
  have numbers' : Numbers sums := @Products.numbers_performed () none _ _ numbers valid.1 products
  have number := @Sums.number_performed 0 none _ _ numbers' valid.2 folds
  exact Bool.false_ne_true (number.symm.trans nan)

/-- A NaN comes from an invalid operation only. Factorials of numbers are numbers from one on, the tokens of a text are
numbers that are not negative, and so the first stage leaves numbers and never goes on to a product that is none. If an
evaluation comes to the NaN nevertheless, then its second or third stage has made it of two numbers. -/
theorem nan_from_operation :
    (∀ n : Float, n.isNaN = false → (Factorial.value n).isNaN = false ∧ 1 ≤ Factorial.value n) ∧
      ∀ text,
        (∀ tokens, (Scan.tokens text).outcome = .ok tokens →
          (∀ value, .operand value ∈ tokens →
            value.isNaN = false ∧ 0 ≤ value ∧ value.toBits.toNat < Binary64.signBit) ∧
          ∀ binary, (Signs.resolve tokens).outcome = .ok binary →
            ∀ value, .operand value ∈ binary → value.isNaN = false) ∧
        (∀ n round, .step (.factorial n round) ∈ (ofText text).records →
          n.isNaN = false ∧ (round.isLast = false → round.next.product.isNaN = false)) ∧
        (performed text).outcome = (ofText text).outcome ∧
        ∀ evaluation, (ofText text).outcome = .ok evaluation → evaluation.value.isNaN = true →
          ∃ operation ∈ (performed text).operations, operation.IsInvalid := by
  refine ⟨fun n number => ⟨Factorial.isNaN_value number, (Factorial.descent_grows number).1⟩, fun text => ?_⟩
  refine ⟨?operands, ?rounds, outcome_performed text, ?invalid⟩
  case operands =>
    intro tokens read
    refine ⟨fun value => Scan.operand_tokens read, fun binary signs => ?_⟩
    rw [Signs.outcome_resolve] at signs
    exact @Signs.numbers_quiet none _ _ (Scan.numbers_tokens read) signs
  case rounds =>
    intro n round told
    obtain ⟨tokens, read, member⟩ := factorial_of_ofText told
    obtain ⟨number, isRound⟩ := Signs.number_scan (Scan.numbers_tokens read) member
    exact ⟨number, Factorial.isNaN_next number isRound⟩
  case invalid =>
    intro evaluation ok nan
    exact invalid_of_isNaN ((outcome_performed text).trans ok) nan

/-- The quotient of two zeros is invalid, and the factorial before it is not. -/
theorem factorial_and_quotient :
    (3 : Float).isNaN = false ∧ 1 ≤ Factorial.value 3 ∧
      (∃ n round, .step (.factorial n round) ∈ (ofText "3!-0/0").records ∧ n.isNaN = false ∧
        round.isLast = false ∧ round.next.product.isNaN = false) ∧
      ∃ evaluation binary, (ofText "3!-0/0").outcome = .ok evaluation ∧ evaluation.value.isNaN = true ∧
        (Scan.tokens "3!-0/0").outcome = .ok evaluation.tokens ∧
        (∀ value, .operand value ∈ evaluation.tokens →
          value.isNaN = false ∧ 0 ≤ value ∧ value.toBits.toNat < Binary64.signBit) ∧
        (Signs.resolve evaluation.tokens).outcome = .ok binary ∧
        (∀ value, .operand value ∈ binary → value.isNaN = false) ∧
        ∃ operation ∈ (performed "3!-0/0").operations, operation.IsInvalid := by
  have isNaN : (ofText "3!-0/0").outcome.toOption.any (fun evaluation => evaluation.value.isNaN) = true := by
    decide +kernel
  have started : (ofText "3!-0/0").records.any Record.goesOn = true := by decide +kernel
  have number : (3 : Float).isNaN = false := by decide +kernel
  obtain ⟨-, grown⟩ := nan_from_operation.1 3 number
  obtain ⟨operands, rounds, performs, invalid⟩ := nan_from_operation.2 "3!-0/0"
  refine And.intro number (And.intro grown (And.intro ?started ?nan))
  case started =>
    obtain ⟨record, member, goesOn⟩ := List.any_eq_true.mp started
    obtain ⟨n, round, rfl, more⟩ := Record.eq_of_goesOn goesOn
    obtain ⟨number, next⟩ := rounds n round member
    exact ⟨n, round, member, number, more, next more⟩
  case nan =>
    cases outcome : (ofText "3!-0/0").outcome with
    | error fault =>
        rw [outcome] at isNaN
        cases isNaN
    | ok evaluation =>
        rw [outcome] at isNaN
        obtain ⟨binary, sums, signs, read, -⟩ := performed_eq_ok (performs.trans outcome)
        obtain ⟨signless, numbers⟩ := operands evaluation.tokens read
        exact ⟨evaluation, binary, rfl, isNaN, read, signless, signs, numbers binary signs, invalid evaluation outcome isNaN⟩

end Evaluation

end Reckoner
