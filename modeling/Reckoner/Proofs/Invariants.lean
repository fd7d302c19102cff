import Reckoner.Proofs.Roles

/-! # What the stages keep

After the first stage only binary operators are left, after the second only sums between operands. What a stage does not
compute comes out as it went in, and a stage changes nothing in a list of its own making.
-/

namespace Reckoner

open Token (release)

namespace Token

def product? : Token → Option ProductOp
  | operator (.product op) => some op
  | _ => none

def sum? : Token → Option SumOp
  | operator (.sum op) => some op
  | _ => none

/-- An operand, or an operator that joins terms. -/
def isTermwise : Token → Bool
  | operand _ | operator (.sum _) => true
  | _ => false

end Token

/-- Every `+` and `-` stands right after an operand. -/
def SumsFollowOperands (tokens : List Token) : Prop :=
  ∀ before op after, tokens = before ++ .operator (.sum op) :: after → ∃ value, before.getLast? = some (.operand value)

/-- Every `+` and `-` stands right before an operand or at the end. -/
def SumsPrecedeOperands (tokens : List Token) : Prop :=
  ∀ before op after, tokens = before ++ .operator (.sum op) :: after →
    after = [] ∨ ∃ value rest, after = .operand value :: rest

/-- Signs and factorials are settled. -/
structure Signless (tokens : List Token) : Prop where
  noFactorial : .operator .factorial ∉ tokens
  binary : SumsFollowOperands tokens

theorem SumsFollowOperands.not_adjacent {tokens before after : List Token} (binary : SumsFollowOperands tokens)
    (op op' : SumOp) : tokens ≠ before ++ .operator (.sum op) :: .operator (.sum op') :: after := by
  intro same
  obtain ⟨value, ends⟩ := binary (before ++ [.operator (.sum op)]) op' after (by simpa using same)
  simp at ends

namespace Settled

variable {products follows : Bool} {token : Token} {tokens rest before after : List Token} {op : SumOp}

theorem tail (settled : Settled products follows (token :: rest)) : Settled products token.isOperand rest := by
  match token, settled with
  | .operand _, settled => exact settled
  | .operator (.sum _), settled | .operator (.product _), settled => exact settled.2

theorem before_sum (settled : Settled products follows (before ++ .operator (.sum op) :: after)) :
    (before = [] ∧ follows = true) ∨ ∃ value, before.getLast? = some (.operand value) := by
  induction before generalizing follows with
  | nil => exact .inl ⟨rfl, settled.1⟩
  | cons token rest ih =>
      obtain ⟨rfl, isOperand⟩ | ⟨value, ends⟩ := ih settled.tail
      · cases token with
        | operand value => exact .inr ⟨value, rfl⟩
        | operator => cases isOperand
      · exact .inr ⟨value, by rw [List.getLast?_cons, ends]; rfl⟩

theorem after_sum (settled : Settled products follows (before ++ .operator (.sum op) :: after)) :
    Settled products false after := by
  induction before generalizing follows with
  | nil => exact settled.2
  | cons token rest ih => exact ih settled.tail

theorem noFactorial (settled : Settled products follows tokens) : .operator .factorial ∉ tokens := by
  induction tokens generalizing follows with
  | nil => exact List.not_mem_nil
  | cons token rest ih =>
      rw [List.mem_cons, not_or]
      refine ⟨?_, ih settled.tail⟩
      rintro rfl
      exact settled

theorem signless (settled : Settled products false tokens) : Signless tokens := by
  refine ⟨settled.noFactorial, fun before op after same => ?_⟩
  subst same
  exact settled.before_sum.resolve_left (by simp)

theorem sumsPrecedeOperands (settled : Settled false follows tokens) : SumsPrecedeOperands tokens := by
  rintro before op after rfl
  exact settled.after_sum.start

/-- What holds of the tokens one by one holds of the list. -/
theorem of_signless (noFactorial : .operator .factorial ∉ tokens)
    (binary : ∀ before op after, tokens = before ++ .operator (.sum op) :: after →
      (before = [] ∧ follows = true) ∨ ∃ value, before.getLast? = some (.operand value)) :
    Settled true follows tokens := by
  induction tokens generalizing follows with
  | nil => trivial
  | cons token rest ih =>
      rw [List.mem_cons, not_or] at noFactorial
      have settled : Settled true token.isOperand rest := by
        refine ih noFactorial.2 fun before op after same => ?_
        obtain ⟨nothing, -⟩ | ⟨value, ends⟩ := binary (token :: before) op after (by rw [same]; rfl)
        · cases nothing
        · rw [List.getLast?_cons] at ends
          cases last : before.getLast? with
          | none =>
              rw [last] at ends
              cases ends
              exact .inl ⟨List.getLast?_eq_none_iff.mp last, rfl⟩
          | some other =>
              rw [last] at ends
              cases ends
              exact .inr ⟨value, rfl⟩
      match token, settled, noFactorial with
      | .operand _, settled, _ => exact settled
      | .operator .factorial, _, noFactorial => exact (noFactorial.1 rfl).elim
      | .operator (.product _), settled, _ => exact ⟨rfl, settled⟩
      | .operator (.sum op), settled, _ =>
          obtain ⟨-, follows⟩ | ⟨value, ends⟩ := binary [] op rest rfl
          · exact ⟨follows, settled⟩
          · cases ends

end Settled

theorem Signless.settled {tokens : List Token} (signless : Signless tokens) : Settled true false tokens :=
  .of_signless signless.noFactorial fun before op after same => .inr (signless.binary before op after same)

namespace Signs

/-- The first stage drops signs and factorials and changes the values of operands. All else comes out as it went in. -/
theorem filterMap_quiet {α : Type} (read : Token → Option α) {seen : Option α}
    (operand : ∀ value, read (.operand value) = seen) (factorial : read (.operator .factorial) = none)
    (sum : ∀ op, read (.operator (.sum op)) = none) {held : Option Float} {tokens output : List Token}
    (h : quiet held tokens = .ok output) : output.filterMap read = (release held tokens).filterMap read := by
  fun_induction quiet held tokens generalizing output with
  | case1 => cases h; rfl
  | case2 held value rest ih =>
      obtain ⟨output, run, rfl⟩ := Except.map_eq_ok.mp h
      cases held <;> simp [List.filterMap_cons, operand, ih run]
  | case3 value rest ih => simp [List.filterMap_cons, operand, factorial, ih h]
  | case4 | case8 => cases h
  | case5 value op rest ih =>
      obtain ⟨output, run, rfl⟩ := Except.map_eq_ok.mp h
      simp [List.filterMap_cons, operand, sum, ih run]
  | case6 rest ih => simp [sum, ih h]
  | case7 value rest ih => simp [List.filterMap_cons, operand, sum, ih h]
  | case9 held op rest ih =>
      obtain ⟨output, run, rfl⟩ := Except.map_eq_ok.mp h
      cases held <;> simp [List.filterMap_cons, operand, ih run]

theorem operands_quiet {held : Option Float} {tokens output : List Token} (h : quiet held tokens = .ok output) :
    output.countP Token.isOperand = (release held tokens).countP Token.isOperand := by
  have same := filterMap_quiet (fun token => if token.isOperand then some () else none) (fun _ => rfl) rfl
    (fun _ => rfl) h
  have count (tokens : List Token) : tokens.countP Token.isOperand =
      (tokens.filterMap fun token => if token.isOperand then some () else none).length := by
    rw [List.length_filterMap_eq_countP]
    congr 1
    funext token
    cases token <;> rfl
  rw [count, count, same]

/-- Where nothing is to be settled the first stage changes nothing. -/
theorem quiet_settled {held : Option Float} {tokens : List Token} (settled : Settled true held.isSome tokens) :
    quiet held tokens = .ok (release held tokens) := by
  fun_induction quiet held tokens with
  | case1 => rfl
  | case2 held value rest ih => rw [ih settled]; rfl
  | case3 | case4 => exact settled.elim
  | case5 value op rest ih => rw [ih settled.2]; rfl
  | case6 | case7 | case8 => cases settled.1
  | case9 held op rest ih => rw [ih settled.2]; rfl

end Signs

namespace Products

/-- The second stage lets sums pass. -/
theorem sums_quiet {held : Option Float} {tokens output : List Token} (h : quiet held tokens = .ok output) :
    output.filterMap Token.sum? = tokens.filterMap Token.sum? := by
  fun_induction quiet held tokens generalizing output with
  | case1 held => cases h; cases held <;> rfl
  | case2 held value rest ih =>
      obtain ⟨output, run, rfl⟩ := Except.map_eq_ok.mp h
      have tail := ih run
      cases held <;> exact tail
  | case3 left op right rest ih => exact ih h
  | case4 | case6 => cases h
  | case5 held op rest ih =>
      obtain ⟨output, run, rfl⟩ := Except.map_eq_ok.mp h
      have tail := congrArg (op :: ·) (ih run)
      cases held <;> exact tail

/-- Every product takes two operands and leaves one. -/
theorem operands_quiet {held : Option Float} {tokens output : List Token} (h : quiet held tokens = .ok output) :
    output.countP Token.isOperand + (tokens.filterMap Token.product?).length =
      (release held tokens).countP Token.isOperand := by
  fun_induction quiet held tokens generalizing output with
  | case1 => cases h; rfl
  | case2 held value rest ih =>
      obtain ⟨output, run, rfl⟩ := Except.map_eq_ok.mp h
      have tail := ih run
      cases held with
      | none => exact tail
      | some before =>
          simp only [Token.release_some, List.countP_cons, Token.isOperand, if_true, List.filterMap_cons,
            Token.product?] at tail ⊢
          omega
  | case3 left op right rest ih =>
      have tail := ih h
      simp only [Token.release_some, List.countP_cons, Token.isOperand, if_true, Bool.false_eq_true, if_false,
        List.filterMap_cons, Token.product?, List.length_cons] at tail ⊢
      omega
  | case4 | case6 => cases h
  | case5 held op rest ih =>
      obtain ⟨output, run, rfl⟩ := Except.map_eq_ok.mp h
      have tail := ih run
      cases held with
      | none => exact tail
      | some value =>
          simp only [Token.release_some, Token.release_none, List.countP_cons, Token.isOperand, if_true,
            Bool.false_eq_true, if_false, List.filterMap_cons, Token.product?] at tail ⊢
          omega

theorem isTermwise_quiet {held : Option Float} {tokens output : List Token} (h : quiet held tokens = .ok output) :
    ∀ token ∈ output, token.isTermwise = true := by
  fun_induction quiet held tokens generalizing output with
  | case1 held => cases h; cases held <;> simp [Token.isTermwise]
  | case2 held value rest ih =>
      obtain ⟨output, run, rfl⟩ := Except.map_eq_ok.mp h
      have tail := ih run
      cases held <;> simpa [Token.isTermwise] using tail
  | case3 left op right rest ih => exact ih h
  | case4 | case6 => cases h
  | case5 held op rest ih =>
      obtain ⟨output, run, rfl⟩ := Except.map_eq_ok.mp h
      have tail := ih run
      cases held <;> simpa [Token.isTermwise] using tail

/-- Where no product is left the second stage changes nothing. -/
theorem quiet_termwise {held : Option Float} {tokens : List Token}
    (termwise : ∀ token ∈ tokens, token.isTermwise = true) : quiet held tokens = .ok (release held tokens) := by
  fun_induction quiet held tokens with
  | case1 => rfl
  | case2 held value rest ih | case5 held op rest ih =>
      rw [ih fun token member => termwise token (List.mem_cons_of_mem _ member)]
      rfl
  | case3 | case4 | case6 => cases termwise _ List.mem_cons_self

end Products

end Reckoner
