import Reckoner.Proofs.Classification

/-! # Faults of sums

The third stage meets the faults of its list from left to right and stops at the first: an operator that should not be
left, or a `+` or `-` without an operand somewhere before it and another right after it. Without any, what counts is how
many operands nothing joins to the ones before them.
-/

namespace Reckoner

open Token (alone release)

namespace Sums

/-- What is wrong with the token at a position: it is an operator that should not be left, or a `+` or `-` with no operand
anywhere before it or none right after it. -/
def faultAt? (tokens : List Token) (i : Nat) : Option Fault :=
  match tokens[i]? with
  | some (.operator (.sum op)) =>
    if (tokens.take i).any Token.isOperand && tokens[i + 1]?.any Token.isOperand then none else some (.incompleteSum op)
  | some (.operator op) => some (.lateBeforeSums op)
  | _ => none

/-- The leftmost fault. -/
def leftmost? (tokens : List Token) : Option Fault :=
  (List.range tokens.length).findSome? (faultAt? tokens)

/-- How many operands stand right after another. -/
def adjacencies (tokens : List Token) : Nat :=
  (tokens.zip tokens.tail).countP fun pair => pair.1.isOperand && pair.2.isOperand

theorem leftmost?_operand_operand (a b : Float) (rest : List Token) :
    leftmost? (.operand a :: .operand b :: rest) = leftmost? (.operand b :: rest) := by
  simp [leftmost?, List.range_succ_eq_map, List.findSome?_map, faultAt?, Function.comp_def, Token.isOperand]

theorem leftmost?_sum (a b c : Float) (op : SumOp) (rest : List Token) :
    leftmost? (.operand a :: .operator (.sum op) :: .operand b :: rest) = leftmost? (.operand c :: rest) := by
  simp [leftmost?, List.range_succ_eq_map, List.findSome?_map, faultAt?, Function.comp_def, Token.isOperand]

theorem findSome?_range {α : Type} {check : Nat → Option α} {n : Nat} {found : α} :
    (List.range n).findSome? check = some found ↔ ∃ i < n, check i = some found ∧ ∀ j < i, check j = none := by
  induction n with
  | zero => simp
  | succ n ih =>
      rw [List.range_succ, List.findSome?_append, Option.or_eq_some_iff, ih, List.findSome?_eq_none_iff]
      constructor
      · intro h
        rcases h with ⟨i, bound, here, earlier⟩ | ⟨nothing, last⟩
        · exact ⟨i, by omega, here, earlier⟩
        · exact ⟨n, by omega, by simpa using last, fun j bound => nothing j (List.mem_range.mpr bound)⟩
      · intro h
        obtain ⟨i, bound, here, earlier⟩ := h
        rcases Nat.lt_succ_iff_lt_or_eq.mp bound with less | rfl
        · exact .inl ⟨i, less, here, earlier⟩
        · exact .inr ⟨fun j member => earlier j (List.mem_range.mp member), by simpa using here⟩

theorem faultAt?_of_length_le {tokens : List Token} {i : Nat} (outside : tokens.length ≤ i) :
    faultAt? tokens i = none := by
  rw [faultAt?, List.getElem?_eq_none outside]

theorem leftmost?_eq_some {tokens : List Token} {fault : Fault} :
    leftmost? tokens = some fault ↔ ∃ i, faultAt? tokens i = some fault ∧ ∀ j < i, faultAt? tokens j = none := by
  rw [leftmost?, findSome?_range]
  constructor
  · intro h
    obtain ⟨i, -, first⟩ := h
    exact ⟨i, first⟩
  · intro h
    obtain ⟨i, here, earlier⟩ := h
    refine ⟨i, Nat.lt_of_not_le fun outside => ?_, here, earlier⟩
    cases (faultAt?_of_length_le outside).symm.trans here

theorem leftmost?_eq_none {tokens : List Token} : leftmost? tokens = none ↔ ∀ i, faultAt? tokens i = none := by
  rw [leftmost?, List.findSome?_eq_none_iff]
  constructor
  · intro nothing i
    by_cases inside : i < tokens.length
    · exact nothing i (List.mem_range.mpr inside)
    · exact faultAt?_of_length_le (Nat.le_of_not_lt inside)
  · exact fun nothing i _ => nothing i

theorem faultAt?_incomplete {running : Option Float} {op : SumOp} {rest : List Token}
    (incomplete : ∀ left right others, running = some left → rest = .operand right :: others → False) :
    faultAt? (release running (.operator (.sum op) :: rest)) (release running []).length = some (.incompleteSum op) := by
  match running, rest, incomplete with
  | none, _, _ | some _, [], _ | some _, .operator _ :: _, _ => rfl
  | some left, .operand right :: others, incomplete => exact (incomplete left right others rfl rfl).elim

theorem faultAt?_late {running : Option Float} {op : Operator} {rest : List Token}
    (notSum : ∀ sum, op = .sum sum → False) :
    faultAt? (release running (.operator op :: rest)) (release running []).length = some (.lateBeforeSums op) := by
  cases op with
  | sum op => exact (notSum op rfl).elim
  | product | factorial => cases running <;> rfl

/-- An operand is no fault, so an operator behind the running one may be the leftmost. -/
theorem leftmost?_operator {running : Option Float} {op : Operator} {rest : List Token} {fault : Fault}
    (here : faultAt? (release running (.operator op :: rest)) (release running []).length = some fault) :
    leftmost? (release running (.operator op :: rest)) = some fault := by
  refine leftmost?_eq_some.mpr ⟨_, here, fun j bound => ?_⟩
  cases running with
  | none => exact absurd bound (Nat.not_lt_zero j)
  | some value =>
      cases Nat.lt_one_iff.mp bound
      rfl

theorem adjacencies_operand_operand (a b : Float) (rest : List Token) :
    adjacencies (.operand a :: .operand b :: rest) = adjacencies (.operand b :: rest) + 1 := by
  simp [adjacencies, Token.isOperand]

theorem adjacencies_operand_operator (value : Float) (op : Operator) (rest : List Token) :
    adjacencies (.operand value :: .operator op :: rest) = adjacencies rest := by
  cases rest <;> simp [adjacencies, Token.isOperand]

theorem adjacencies_operand (a b : Float) (rest : List Token) :
    adjacencies (.operand a :: rest) = adjacencies (.operand b :: rest) := by
  cases rest <;> simp [adjacencies, List.countP_cons, Token.isOperand]

/-- The stage stops at the leftmost fault, if there is one. -/
theorem error?_fold_leftmost (behind : Nat) (running : Option Float) (tokens : List Token) :
    (fold behind running tokens).error? =
      (leftmost? (release running tokens)).or
        (fault? none (release running tokens).isEmpty (behind + adjacencies (release running tokens))) := by
  -- The running operand stands for all tokens before: it shows that an operand has come, and it is the last of them.
  fun_induction fold behind running tokens with
  | case1 => rfl
  | case2 => rfl
  | case3 behind value some => simp [fault?, leftmost?, faultAt?, adjacencies, some]
  | case4 behind value rest ih => exact ih
  | case5 behind running value rest ih =>
      rw [ih, Token.release_some, Token.release_some, leftmost?_operand_operand, adjacencies_operand_operand,
        Nat.add_right_comm, Nat.add_assoc behind]
      rfl
  | case6 behind left op right rest ih =>
      rw [ih, Token.release_some, Token.release_some, leftmost?_sum, adjacencies_operand_operator,
        adjacencies_operand _ right]
      rfl
  | case7 behind running op rest incomplete =>
      rw [leftmost?_operator (faultAt?_incomplete incomplete)]
      rfl
  | case8 behind running op rest notSum _ =>
      rw [leftmost?_operator (faultAt?_late notSum)]
      rfl

/-- A list has a value if sums join its operands, one after the other, and it is computed from left to right. -/
theorem fold_eq_ok {tokens : List Token} {value : Float} :
    fold 0 none tokens = .ok value ↔
      ∃ chain : Chain SumOp Float, chain.tokens .sum alone = tokens ∧ chain.value SumOp.apply id = value := by
  constructor
  · intro h
    exact (chain_of_fold h).2
  · intro h
    obtain ⟨chain, rfl, rfl⟩ := h
    exact fold_chain chain

/-- A list of operands joined by sums has the value that they compute from left to right. Any other list is refused for
its leftmost fault, or else for being empty or for the operands that nothing joins. -/
theorem leftmost_fault_decides (tokens : List Token) :
    (∀ value, (resolve tokens).outcome = .ok value ↔
        ∃ chain : Chain SumOp Float, chain.tokens .sum alone = tokens ∧ chain.value SumOp.apply id = value) ∧
      (∀ fault, (resolve tokens).outcome = .error fault ↔
        (∃ i, faultAt? tokens i = some fault ∧ ∀ j < i, faultAt? tokens j = none) ∨
          (∀ i, faultAt? tokens i = none) ∧
            (tokens = [] ∧ fault = .empty ∨
              tokens ≠ [] ∧ 0 < adjacencies tokens ∧ fault = .unconnected (1 + adjacencies tokens))) ∧
      (∀ op, (Fault.lateBeforeSums op).report =
        ⟨.lateOperator, Fault.cited op.symbol ++ " should have been resolved before addition"⟩) ∧
      (∀ op, (Fault.incompleteSum op).report =
        ⟨.unknown, Fault.cited op.symbol ++ " needs a number on both sides"⟩) ∧
      Fault.empty.report = ⟨.unknown, "empty expression"⟩ ∧
      ∀ count, (Fault.unconnected count).report =
        ⟨.unknown, Text.natural count ++ " values left without operators between them"⟩ := by
  refine ⟨fun value => ?value, fun fault => ?fault, fun _ => rfl, fun _ => rfl, rfl, fun _ => rfl⟩
  case value => rw [outcome_resolve, fold_eq_ok]
  case fault =>
    rw [outcome_resolve, ← Except.error?_eq_some, error?_fold_leftmost, Token.release_none, Option.or_eq_some_iff,
      leftmost?_eq_some, leftmost?_eq_none, fault?_eq_some]
    simp [Nat.add_comm 1]

end Sums

end Reckoner
