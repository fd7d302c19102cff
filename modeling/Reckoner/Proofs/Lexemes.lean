import Mathlib.Data.List.SplitBy
import Reckoner.Proofs.Neighbours
import Reckoner.Proofs.Quiet

/-! # Texts as lexemes

A text without its other characters, cut at the operator symbols, is a list of lexemes: the symbols, and the literals
between them. Scanning reads each lexeme on its own, and the first literal that is no number is what it stops at.
-/

namespace Reckoner

theorem Operator.ofChar?_eq_some {c : Char} {op : Operator} : ofChar? c = some op ↔ c = op.symbol := by
  constructor
  · intro found
    rw [ofChar?] at found
    have same := List.find?_some found
    exact (beq_iff_eq.mp same).symm
  · intro h
    subst h
    rcases op with (_ | _) | (_ | _) | _ <;> rfl

namespace Scan

/-- Digits, points and operator symbols count, any other character does not. -/
def isKept (c : Char) : Bool :=
  c.isDigit || ['.', '+', '-', '*', '/', '!'].contains c

/-- Whether two neighbours belong to one literal. -/
def together (a b : Char) : Bool :=
  isLiteral a && isLiteral b

/-- The characters that count, cut around the operator symbols. -/
def lexemes (text : String) : List (List Char) :=
  (text.toList.filter isKept).splitBy together

/-- The literals of a text: its runs of digits and points between operator symbols. -/
def literals (text : String) : List (List Char) :=
  (lexemes text).filter (·.all isLiteral)

/-- A number has a digit and at most one point. -/
def isNumber (literal : List Char) : Bool :=
  literal.any Char.isDigit && decide (literal.count '.' ≤ 1)

def token (lexeme : List Char) : Except Fault Token :=
  match lexeme.head?.bind Operator.ofChar?, Decimal.read? lexeme with
  | some op, _ => .ok (.operator op)
  | none, some d => .ok (.operand d.toFloat)
  | none, none => .error (.unreadableLiteral (String.ofList lexeme))

theorem ofChar?_literal {c : Char} (literal : isLiteral c = true) : Operator.ofChar? c = none := by
  rw [Option.eq_none_iff_forall_ne_some]
  intro op found
  rw [Operator.ofChar?_eq_some.mp found] at literal
  rcases op with (_ | _) | (_ | _) | _ <;> cases literal

theorem isKept_iff {c : Char} : isKept c = true ↔ isLiteral c = true ∨ ∃ op, Operator.ofChar? c = some op := by
  simp only [Operator.ofChar?_eq_some]
  constructor
  · intro kept
    simp only [isKept, Bool.or_eq_true, List.contains_iff_mem, List.mem_cons, List.not_mem_nil, or_false] at kept
    rcases kept with digit | rfl | rfl | rfl | rfl | rfl | rfl
    · exact .inl (by simp [isLiteral, digit])
    · exact .inl rfl
    · exact .inr ⟨.sum .add, rfl⟩
    · exact .inr ⟨.sum .subtract, rfl⟩
    · exact .inr ⟨.product .multiply, rfl⟩
    · exact .inr ⟨.product .divide, rfl⟩
    · exact .inr ⟨.factorial, rfl⟩
  · intro h
    rcases h with literal | ⟨op, rfl⟩
    · rcases Bool.or_eq_true _ _ |>.mp literal with digit | point
      · simp [isKept, digit]
      · simp [isKept, beq_iff_eq.mp point]
    · rcases op with (_ | _) | (_ | _) | _ <;> rfl

theorem isDigit_eq_false {c : Char} (literal : isLiteral c = true) : c.isDigit = false ↔ c = '.' := by
  constructor
  · intro other
    simpa [isLiteral, other] using literal
  · intro h
    subst h
    rfl

theorem count_points_of_digits {chars : List Char} (digits : chars.all Char.isDigit = true) : chars.count '.' = 0 := by
  rw [List.count_eq_zero]
  intro member
  cases List.all_eq_true.mp digits '.' member

theorem count_points_eq_zero {chars : List Char} (all : ∀ c ∈ chars, isLiteral c = true) :
    chars.count '.' = 0 ↔ chars.all Char.isDigit = true := by
  constructor
  · intro noPoint
    rw [List.all_eq_true]
    intro c member
    by_contra other
    have point := (isDigit_eq_false (all c member)).mp (Bool.eq_false_iff.mpr other)
    exact List.count_eq_zero.mp noPoint (point ▸ member)
  · exact count_points_of_digits

theorem any_isDigit {chars : List Char} (digits : chars.all Char.isDigit = true) :
    chars.any Char.isDigit = !chars.isEmpty := by
  cases chars with
  | nil => rfl
  | cons c rest =>
      rw [List.all_cons, Bool.and_eq_true] at digits
      simp [digits.1]

theorem isNumber_whole {whole : List Char} (digits : whole.all Char.isDigit = true) :
    isNumber whole = !whole.isEmpty := by
  rw [isNumber, any_isDigit digits, count_points_of_digits digits]
  simp

theorem isNumber_point {whole fraction : List Char} (digits : whole.all Char.isDigit = true)
    (all : ∀ c ∈ fraction, isLiteral c = true) :
    isNumber (whole ++ '.' :: fraction) = (fraction.all Char.isDigit && !(whole ++ fraction).isEmpty) := by
  have points : (whole ++ '.' :: fraction).count '.' = fraction.count '.' + 1 := by
    rw [List.count_append, count_points_of_digits digits, List.count_cons_self, Nat.zero_add]
  have some : (whole ++ '.' :: fraction).any Char.isDigit = (whole ++ fraction).any Char.isDigit := by
    simp only [List.any_append, List.any_cons]
    rfl
  rw [isNumber, points, some]
  by_cases rest : fraction.all Char.isDigit = true
  · have noMore : fraction.count '.' = 0 := (count_points_eq_zero all).mpr rest
    have both : (whole ++ fraction).all Char.isDigit = true := by rw [List.all_append, digits, rest]; rfl
    rw [any_isDigit both, noMore, rest]
    simp
  · have more : fraction.count '.' ≠ 0 := mt (count_points_eq_zero all).mp rest
    rw [Bool.eq_false_iff.mpr rest, decide_eq_false (by omega)]
    simp

/-- A literal is read as a decimal where it is a number. -/
theorem read?_isSome {literal : List Char} (all : ∀ c ∈ literal, isLiteral c = true) :
    (Decimal.read? literal).isSome = isNumber literal := by
  have digits : (literal.takeWhile Char.isDigit).all Char.isDigit = true := List.all_takeWhile
  have parts : literal.takeWhile Char.isDigit ++ literal.dropWhile Char.isDigit = literal :=
    List.takeWhile_append_dropWhile
  unfold Decimal.read?
  cases rest : literal.dropWhile Char.isDigit with
  | nil =>
      rw [rest, List.append_nil] at parts
      rw [parts] at digits ⊢
      rw [isNumber_whole digits]
      cases literal <;> rfl
  | cons point fraction =>
      rw [rest] at parts
      have member : ∀ c ∈ point :: fraction, isLiteral c = true := fun c member =>
        all c (parts ▸ List.mem_append_right _ member)
      have other : point.isDigit = false := by
        have head := List.head_dropWhile_not Char.isDigit (l := literal) (by simp [rest])
        simpa only [rest, List.head_cons] using head
      obtain rfl : point = '.' := (isDigit_eq_false (member point List.mem_cons_self)).mp other
      have number := isNumber_point digits fun c inside => member c (List.mem_cons_of_mem _ inside)
      rw [parts] at number
      rw [number]
      simp only [decide_true, Bool.true_and]
      split
      · rename_i reads
        exact reads.symm
      · rename_i refuses
        exact (Bool.eq_false_iff.mpr refuses).symm

theorem together_of_literals {literal : List Char} (all : ∀ c ∈ literal, isLiteral c = true) :
    literal.IsChain fun a b => together a b = true := by
  induction literal with
  | nil => exact .nil
  | cons c rest ih =>
      rw [List.isChain_cons]
      refine ⟨fun next first => ?_, ih fun d member => all d (List.mem_cons_of_mem _ member)⟩
      have second := all next (List.mem_cons_of_mem _ (List.mem_of_mem_head? first))
      simp [together, all c List.mem_cons_self, second]

theorem splitBy_literal {literal : List Char} (all : ∀ c ∈ literal, isLiteral c = true) :
    literal.splitBy together = if literal.isEmpty then [] else [literal] := by
  cases literal with
  | nil => rfl
  | cons c rest => exact List.splitBy_of_isChain (List.cons_ne_nil c rest) (together_of_literals all)

/-- An operator symbol is cut off from what stands on its sides. -/
theorem splitBy_operator {symbol : Char} (other : isLiteral symbol = false) (before after : List Char) :
    (before ++ symbol :: after).splitBy together =
      before.splitBy together ++ [symbol] :: after.splitBy together := by
  rw [List.splitBy_append_cons _ fun last _ => by simp [together, other]]
  have alone : ([symbol] ++ after).splitBy together = [symbol].splitBy together ++ after.splitBy together :=
    List.splitBy_append fun last inside next _ => by
      cases List.mem_singleton.mp (List.mem_of_mem_getLast? inside)
      simp [together, other]
  exact congrArg (before.splitBy together ++ ·) alone

theorem token_operator {symbol : Char} {op : Operator} (found : Operator.ofChar? symbol = some op) :
    token [symbol] = .ok (.operator op) := by
  simp [token, found]

theorem token_literal {literal : List Char} (all : ∀ c ∈ literal, isLiteral c = true) :
    token literal =
      match Decimal.read? literal with
      | some d => .ok (.operand d.toFloat)
      | none => .error (.unreadableLiteral (String.ofList literal)) := by
  have noSymbol : literal.head?.bind Operator.ofChar? = none := by
    cases literal with
    | nil => rfl
    | cons c rest => exact ofChar?_literal (all c List.mem_cons_self)
  rw [token, noSymbol]
  cases Decimal.read? literal <;> rfl

theorem mapM_close {literal : String} (all : ∀ c ∈ literal.toList, isLiteral c = true) :
    (literal.toList.splitBy together).mapM token = close literal := by
  rw [splitBy_literal all, close]
  by_cases empty : literal = ""
  · cases empty
    rfl
  · have filled : literal.toList.isEmpty = false := by simpa using empty
    have filled' : literal.isEmpty = false := by simpa using empty
    simp only [filled, filled', Bool.false_eq_true, if_false, List.mapM_cons, List.mapM_nil, token_literal all,
      String.ofList_toList]
    cases Decimal.read? literal.toList <;> rfl

/-- Scanning is reading the lexemes, the first of which starts with the literal gathered so far. -/
theorem quiet_eq_mapM {literal : String} {chars : List Char} (all : ∀ c ∈ literal.toList, isLiteral c = true) :
    quiet literal chars = ((literal.toList ++ chars.filter isKept).splitBy together).mapM token := by
  fun_induction quiet literal chars with
  | case1 literal => rw [List.filter_nil, List.append_nil, mapM_close all]
  | case2 literal c rest digit ih =>
      have kept : isKept c = true := isKept_iff.mpr (.inl digit)
      have gathered : ∀ d ∈ (literal.push c).toList, isLiteral d = true := by
        intro d member
        rw [String.toList_push, List.mem_append, List.mem_singleton] at member
        rcases member with before | rfl
        · exact all d before
        · exact digit
      rw [ih gathered, List.filter_cons_of_pos kept, String.toList_push, List.append_assoc, List.singleton_append]
  | case3 literal c rest other skipped ih =>
      -- The gathered literal stays open, as it does in the text without this character.
      have dropped : ¬isKept c = true := by
        rw [isKept_iff, skipped]
        simp [other]
      rw [ih all, List.filter_cons_of_neg dropped]
  | case4 literal c rest other op found ih =>
      have kept : isKept c = true := isKept_iff.mpr (.inr ⟨op, found⟩)
      rw [List.filter_cons_of_pos kept, splitBy_operator (Bool.eq_false_iff.mpr other), List.mapM_append,
        List.mapM_cons, mapM_close all, token_operator found, ih (by simp)]
      cases close literal with
      | error => rfl
      | ok closed =>
          rw [String.toList_empty, List.nil_append]
          cases ((rest.filter isKept).splitBy together).mapM token <;> rfl

theorem outcome_eq_mapM (text : String) : (tokens text).outcome = (lexemes text).mapM token := by
  rw [outcome_tokens, quiet_eq_mapM (by simp), String.toList_empty, List.nil_append, lexemes]

theorem literals_of_together {c d : Char} {rest : List Char}
    (chain : (c :: d :: rest).IsChain fun a b => together a b = true) : ∀ e ∈ c :: d :: rest, isLiteral e = true := by
  induction rest generalizing c d with
  | nil => simpa [together] using chain
  | cons next rest ih =>
      rw [List.isChain_cons_cons, together, Bool.and_eq_true] at chain
      intro e member
      rcases List.mem_cons.mp member with rfl | later
      · exact chain.1.1
      · exact ih chain.2 e later

/-- A lexeme is an operator symbol or a literal. -/
theorem lexeme_cases {text : String} {lexeme : List Char} (member : lexeme ∈ lexemes text) :
    (∃ symbol op, lexeme = [symbol] ∧ Operator.ofChar? symbol = some op) ∨ ∀ c ∈ lexeme, isLiteral c = true := by
  have kept : ∀ c ∈ lexeme, isKept c = true := by
    intro c inside
    have flat : c ∈ (lexemes text).flatten := List.mem_flatten.mpr ⟨lexeme, member, inside⟩
    rw [lexemes, List.flatten_splitBy] at flat
    exact (List.mem_filter.mp flat).2
  have chain := List.isChain_of_mem_splitBy member
  cases lexeme with
  | nil => exact .inr (by simp)
  | cons c rest =>
      cases rest with
      | nil =>
          rcases isKept_iff.mp (kept c List.mem_cons_self) with literal | ⟨op, found⟩
          · exact .inr (by simpa using literal)
          · exact .inl ⟨c, op, rfl, found⟩
      | cons d rest =>
          exact .inr (literals_of_together chain)

/-- A literal that is no number is the only kind of lexeme without a token. -/
theorem error?_token {text : String} {lexeme : List Char} (member : lexeme ∈ lexemes text) :
    (token lexeme).error? =
      if lexeme.all isLiteral && !isNumber lexeme then some (.unreadableLiteral (String.ofList lexeme)) else none := by
  rcases lexeme_cases member with ⟨symbol, op, rfl, found⟩ | all
  · have other : isLiteral symbol = false := by
      by_contra literal
      rw [ofChar?_literal (by simpa using literal)] at found
      cases found
    rw [token_operator found]
    simp [other]
  · have every : lexeme.all isLiteral = true := List.all_eq_true.mpr all
    rw [token_literal all, every, ← read?_isSome all]
    cases Decimal.read? lexeme <;> rfl

theorem findSome?_token {list : List (List Char)} {text : String} (part : ∀ lexeme ∈ list, lexeme ∈ lexemes text) :
    (list.findSome? fun lexeme => (token lexeme).error?) =
      ((list.filter (·.all isLiteral)).find? fun literal => !isNumber literal).map fun literal =>
        .unreadableLiteral (String.ofList literal) := by
  induction list with
  | nil => rfl
  | cons lexeme rest ih =>
      have tail := ih fun other member => part other (List.mem_cons_of_mem _ member)
      rw [List.findSome?_cons, error?_token (part lexeme List.mem_cons_self), tail, List.filter_cons]
      cases lexeme.all isLiteral with
      | false => rfl
      | true =>
          rw [if_pos rfl, List.find?_cons]
          cases isNumber lexeme <;> rfl

theorem error?_tokens (text : String) :
    (tokens text).outcome.error? =
      ((literals text).find? fun literal => !isNumber literal).map fun literal =>
        .unreadableLiteral (String.ofList literal) := by
  rw [outcome_eq_mapM, Except.error?_mapM, findSome?_token fun _ => id]
  rfl

theorem close_eq_ok {literal : String} {closed : List Token} (h : close literal = .ok closed) :
    closed = [] ∨ ∃ value, closed = [.operand value] := by
  unfold close at h
  split at h
  · cases h
    exact .inl rfl
  · split at h
    · cases h
      exact .inr ⟨_, rfl⟩
    · cases h

/-- Operands stand apart: between two of them there is an operator symbol, for nothing else closes a literal. -/
theorem apart_quiet {literal : String} {chars : List Char} {output : List Token}
    (h : quiet literal chars = .ok output) :
    output.IsChain fun a b => ¬(a.isOperand = true ∧ b.isOperand = true) := by
  fun_induction quiet literal chars generalizing output with
  | case1 literal => obtain rfl | ⟨value, rfl⟩ := close_eq_ok h <;> simp
  | case2 | case3 => rename_i ih; exact ih h
  | case4 literal c rest other op found ih =>
      obtain ⟨closed, closes, tail⟩ := Except.bind_eq_ok.mp h
      obtain ⟨output, run, rfl⟩ := Except.map_eq_ok.mp tail
      have after : (.operator op :: output).IsChain fun a b : Token => ¬(a.isOperand = true ∧ b.isOperand = true) :=
        List.isChain_cons.mpr ⟨fun next _ both => Bool.false_ne_true both.1, ih run⟩
      obtain rfl | ⟨value, rfl⟩ := close_eq_ok closes
      · exact after
      · refine List.isChain_cons.mpr ⟨?_, after⟩
        intro next first both
        cases first
        cases both.2

/-- The tokens of a text, and the literal that it stops at, are those of its lexemes. Characters that do not count make
no difference, and operands never stand side by side. -/
theorem tokens_from_lexemes (text : String) :
    (tokens text).outcome = (lexemes text).mapM token ∧
      ((∃ output, (tokens text).outcome = .ok output) ↔ ∀ literal ∈ literals text, isNumber literal = true) ∧
      (∀ fault, (tokens text).outcome = .error fault ↔
        ∃ literal, (literals text).find? (fun literal => !isNumber literal) = some literal ∧
          fault = .unreadableLiteral (String.ofList literal) ∧ fault.kind = .unreadableNumber) ∧
      (∀ other : String, other.toList.filter isKept = text.toList.filter isKept →
        (tokens other).outcome = (tokens text).outcome) ∧
      ∀ output, (tokens text).outcome = .ok output →
        output.IsChain fun a b => ¬(a.isOperand = true ∧ b.isOperand = true) := by
  refine ⟨outcome_eq_mapM text, ?success, ?failure, ?skipped, ?apart⟩
  case success =>
    rw [← Except.error?_eq_none, error?_tokens, Option.map_eq_none_iff, List.find?_eq_none]
    simp
  case failure =>
    intro fault
    rw [← Except.error?_eq_some, error?_tokens, Option.map_eq_some_iff]
    constructor
    · intro h
      obtain ⟨literal, first, rfl⟩ := h
      exact ⟨literal, first, rfl, rfl⟩
    · intro h
      obtain ⟨literal, first, rfl, -⟩ := h
      exact ⟨literal, first, rfl⟩
  case skipped =>
    intro other same
    rw [outcome_eq_mapM, outcome_eq_mapM, lexemes, lexemes, same]
  case apart =>
    intro output run
    rw [outcome_tokens] at run
    exact apart_quiet run

example : (literals "1 . . 2+3").find? (fun literal => !isNumber literal) = some ['1', '.', '.', '2'] := by decide

end Scan

end Reckoner
