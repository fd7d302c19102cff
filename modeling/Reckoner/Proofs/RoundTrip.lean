import Reckoner.Proofs.Joining
import Reckoner.Proofs.Positional

/-! # Writing tokens and reading them back

A list of tokens is spelled by its operator symbols and the texts of its operands. Scanning gives the list back where no two
operands stand side by side. So the text of a double has that double as its value, with or without a sign.
-/

namespace Reckoner

open Numeral (IsPlain IsPositional)

namespace Token

/-- How a text shows a token. -/
def text : Token → String
  | .operand value => Numeral.write value
  | .operator op => String.singleton op.symbol

/-- The text that shows tokens one after the other. -/
def spelling (tokens : List Token) : String := String.join (tokens.map text)

theorem toList_spelling (tokens : List Token) :
    (spelling tokens).toList = (tokens.map fun token => token.text.toList).flatten := by
  rw [spelling, String.toList_join, List.flatMap_map, List.flatMap]

theorem toList_text_operator (op : Operator) : (Token.operator op).text.toList = [op.symbol] :=
  String.toList_singleton op.symbol

end Token

namespace Scan

/-- The text of a plain number is a literal that is read as this number. -/
theorem literal_plain {value : Float} (plain : IsPlain value) :
    (Numeral.write value).toList ≠ [] ∧ (∀ c ∈ (Numeral.write value).toList, isLiteral c = true) ∧
      token (Numeral.write value).toList = .ok (.operand value) := by
  obtain ⟨whole, fraction, written, isWhole, isFraction, reads⟩ := plain.magnitude_eq
  obtain ⟨n, finite, same⟩ := plain.signed
  have text : (Numeral.write value).toList = whole ++ '.' :: fraction := by
    rw [← written, same, Numeral.toList_write_positive finite.le]
  have digit {digits : List Char} (all : IsDigits digits) : ∀ c ∈ digits, isLiteral c = true := fun c member => by
    rw [isLiteral, all.digits c member, Bool.true_or]
  have literal : ∀ c ∈ whole ++ '.' :: fraction, isLiteral c = true :=
    List.forall_mem_append.mpr ⟨digit isWhole, List.forall_mem_cons.mpr ⟨rfl, digit isFraction⟩⟩
  rw [text]
  refine ⟨by simp, literal, ?_⟩
  rw [token_literal literal, Decimal.read?_point isWhole isFraction]
  exact congrArg (Except.ok ∘ Token.operand) reads

/-- The texts of the tokens are the lexemes of the text that spells them. -/
theorem splitBy_spelling {tokens : List Token}
    (apart : tokens.IsChain fun a b => ¬(a.isOperand = true ∧ b.isOperand = true))
    (plain : ∀ value, .operand value ∈ tokens → IsPlain value) :
    (tokens.map fun token => token.text.toList).flatten.splitBy together = tokens.map fun token => token.text.toList := by
  induction tokens with
  | nil => rfl
  | cons token rest ih =>
      have tail := ih apart.tail fun value member => plain value (List.mem_cons_of_mem _ member)
      rw [List.map_cons, List.flatten_cons]
      cases token with
      | operator op =>
          rw [Token.toList_text_operator, List.singleton_append, ← List.nil_append (op.symbol :: _),
            splitBy_operator (isLiteral_symbol op), tail]
          rfl
      | operand value =>
          obtain ⟨filled, literal, -⟩ := literal_plain (plain value List.mem_cons_self)
          have alone : (Token.operand value).text.toList.splitBy together = [(Token.operand value).text.toList] := by
            rw [Token.text, splitBy_literal literal, if_neg (by simpa using filled)]
          cases rest with
          | nil => rw [List.map_nil, List.flatten_nil, List.append_nil, alone]
          | cons next rest =>
              cases next with
              | operand => exact ((List.isChain_cons_cons.mp apart).1 ⟨rfl, rfl⟩).elim
              | operator op =>
                  -- The symbol closes the literal, as it would stand alone at the start of a text.
                  rw [List.map_cons, List.flatten_cons, Token.toList_text_operator, List.singleton_append] at *
                  rw [splitBy_operator (isLiteral_symbol op), alone, List.singleton_append]
                  rw [← List.nil_append (op.symbol :: _), splitBy_operator (isLiteral_symbol op)] at tail
                  exact congrArg _ tail

theorem isKept_spelling {tokens : List Token} (plain : ∀ value, .operand value ∈ tokens → IsPlain value) :
    ∀ c ∈ (Token.spelling tokens).toList, isKept c = true := by
  intro c member
  rw [Token.toList_spelling, List.mem_flatten] at member
  obtain ⟨chars, inside, member⟩ := member
  obtain ⟨token, listed, rfl⟩ := List.mem_map.mp inside
  cases token with
  | operator op =>
      rw [Token.toList_text_operator, List.mem_singleton] at member
      exact isKept_iff.mpr (.inr ⟨op, Operator.ofChar?_eq_some.mpr member⟩)
  | operand value => exact isKept_iff.mpr (.inl ((literal_plain (plain value listed)).2.1 c member))

theorem mapM_token {tokens : List Token} (read : ∀ t ∈ tokens, token t.text.toList = .ok t) :
    (tokens.mapM fun t => token t.text.toList) = .ok tokens := by
  induction tokens with
  | nil => rfl
  | cons t rest ih =>
      obtain ⟨first, others⟩ := List.forall_mem_cons.mp read
      rw [List.mapM_cons, first, ih others]
      rfl

/-- Scanning undoes spelling. -/
theorem outcome_spelling {tokens : List Token}
    (apart : tokens.IsChain fun a b => ¬(a.isOperand = true ∧ b.isOperand = true))
    (plain : ∀ value, .operand value ∈ tokens → IsPlain value) :
    (Scan.tokens (Token.spelling tokens)).outcome = .ok tokens := by
  have read : ∀ t ∈ tokens, token t.text.toList = .ok t := by
    intro t member
    cases t with
    | operator op => rw [Token.toList_text_operator, token_operator (Operator.ofChar?_eq_some.mpr rfl)]
    | operand value => exact (literal_plain (plain value member)).2.2
  rw [outcome_eq_mapM, lexemes, List.filter_eq_self.mpr (isKept_spelling plain), Token.toList_spelling,
    splitBy_spelling apart plain, List.mapM_map]
  exact mapM_token read

end Scan

namespace Numeral

/-- A zero or a number in the positional range, with or without a sign. -/
def IsWritten (x : Float) : Prop := x = 0 ∨ x = -0 ∨ IsPositional x.abs

instance (x : Float) : Decidable (IsWritten x) := inferInstanceAs (Decidable (_ ∨ _))

theorem IsWritten.cases {x : Float} (h : IsWritten x) : ∃ y, IsPlain y ∧ (x = y ∨ x = -y) := by
  obtain rfl | rfl | range := h
  · exact ⟨0, .inl rfl, .inl rfl⟩
  · exact ⟨0, .inl rfl, .inr rfl⟩
  refine ⟨x.abs, .inr range, ?_⟩
  obtain rfl | ⟨sign, n, bound, rfl⟩ := Binary64.nan_or_signed x
  · cases (Binary64.isNaN_of_le range.1).2
  · rw [Binary64.abs_signed sign bound, Binary64.neg_signed .positive bound]
    cases sign with
    | positive => exact .inl rfl
    | negative => exact .inr rfl

theorem spelling_operand (x : Float) : write x = Token.spelling [.operand x] := by
  apply String.toList_inj.mp
  rw [Token.toList_spelling]
  exact (List.append_nil _).symm

theorem IsPlain.spelling_neg {x : Float} (h : IsPlain x) :
    write (-x) = Token.spelling [.operator (.sum .subtract), .operand x] := by
  obtain ⟨n, finite, rfl⟩ := h.signed
  apply String.toList_inj.mp
  rw [Binary64.neg_signed .positive finite.le, Token.toList_spelling]
  refine (toList_write_negative finite.le).trans ?_
  rw [← toList_write_positive finite.le, List.map_cons, List.flatten_cons, Token.toList_text_operator]
  exact congrArg ('-' :: ·) (List.append_nil _).symm

end Numeral

namespace Evaluation

/-- The text of a double is a single factor with this double as its value. -/
theorem ofText_write {x : Float} (h : Numeral.IsWritten x) :
    ∃ tokens, Token.IsFactor tokens ∧ (ofText (Numeral.write x)).outcome = .ok ⟨x, tokens⟩ := by
  obtain ⟨y, plain, rfl | rfl⟩ := h.cases
  · have factor : Token.IsFactor [.operand x] := ⟨by simp [Token.IsTerm], by simp [Token.product?]⟩
    refine ⟨[.operand x], factor, ofText_eq_ok.mpr ⟨?_, ⟨⟨.plain x 0, []⟩, []⟩, rfl, rfl⟩⟩
    rw [Numeral.spelling_operand]
    exact Scan.outcome_spelling (by simp) (by simpa using plain)
  · have factor : Token.IsFactor [.operator (.sum .subtract), .operand y] :=
      ⟨by simp [Token.IsTerm, Token.endsOperand], by simp [Token.product?]⟩
    refine ⟨_, factor, ofText_eq_ok.mpr ⟨?_, ⟨⟨⟨0, true, y, 0⟩, []⟩, []⟩, rfl, rfl⟩⟩
    rw [plain.spelling_neg]
    exact Scan.outcome_spelling (by simp [Token.isOperand]) (by simpa using plain)

/-- Spelled tokens are scanned back, a double is the value of its own text, and two doubles with an operator between their
texts are operands of that operator, whatever their signs. -/
theorem read_back :
    (∀ tokens : List Token, tokens.IsChain (fun a b => ¬(a.isOperand = true ∧ b.isOperand = true)) →
      (∀ value, .operand value ∈ tokens → IsPlain value) →
      (Scan.tokens (Token.spelling tokens)).outcome = .ok tokens) ∧
    (∀ x, Numeral.IsWritten x → (ofText (Numeral.write x)).outcome.map Evaluation.value = .ok x) ∧
    ∀ x y, Numeral.IsWritten x → Numeral.IsWritten y →
      (∀ op : SumOp, (ofText (joined (Numeral.write x) (.sum op) (Numeral.write y))).outcome.map Evaluation.value =
        .ok (op.apply x y)) ∧
      ∀ op : ProductOp, (ofText (joined (Numeral.write x) (.product op) (Numeral.write y))).outcome.map Evaluation.value =
        .ok (op.apply x y) := by
  refine ⟨fun tokens apart plain => Scan.outcome_spelling apart plain, ?_, ?_⟩
  · intro x written
    obtain ⟨tokens, -, run⟩ := ofText_write written
    rw [run]
    rfl
  · intro x y written written'
    obtain ⟨tokens, factor, run⟩ := ofText_write written
    obtain ⟨tokens', factor', run'⟩ := ofText_write written'
    constructor
    · intro op
      rw [ofText_sum op run run' factor'.term]
      rfl
    · intro op
      rw [ofText_product op run run' factor.term factor']
      rfl

/-- With a sign before an operand, with the negative zero, and with a sign after an operator. -/
theorem read_back_negative :
    (Scan.tokens (Token.spelling [.operator (.sum .subtract), .operand 0.0001, .operator .factorial,
        .operator (.product .divide), .operand 0])).outcome =
      .ok [.operator (.sum .subtract), .operand 0.0001, .operator .factorial, .operator (.product .divide), .operand 0] ∧
    (ofText (Numeral.write (-0))).outcome.map Evaluation.value = .ok (-0) ∧
    (ofText (joined (Numeral.write (-2.5)) (.sum .subtract) (Numeral.write (-1e15)))).outcome.map Evaluation.value =
      .ok (SumOp.subtract.apply (-2.5) (-1e15)) ∧
    (ofText (joined (Numeral.write 12) (.product .divide) (Numeral.write (-0)))).outcome.map Evaluation.value =
      .ok (ProductOp.divide.apply 12 (-0)) := by
  have plain : ∀ value, .operand value ∈ [.operator (.sum .subtract), .operand 0.0001, .operator .factorial,
      .operator (.product .divide), Token.operand 0] → IsPlain value := by
    intro value member
    simp only [List.mem_cons, Token.operand.injEq, reduceCtorEq, List.not_mem_nil, false_or, or_false] at member
    rcases member with rfl | rfl <;> decide +kernel
  have listed := read_back.1 _ (by simp [Token.isOperand]) plain
  have zero := read_back.2.1 (-0) (by decide +kernel)
  have difference := (read_back.2.2 (-2.5) (-1e15) (by decide +kernel) (by decide +kernel)).1 .subtract
  have quotient := (read_back.2.2 12 (-0) (by decide +kernel) (by decide +kernel)).2 .divide
  exact ⟨listed, zero, difference, quotient⟩

end Evaluation

end Reckoner
