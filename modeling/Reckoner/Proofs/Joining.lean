import Reckoner.Proofs.Arithmetic
import Reckoner.Proofs.Invariants
import Reckoner.Proofs.Lexemes
import Reckoner.Proofs.Precedence

/-! # Calculations joined by an operator

A calculation that is a single term can be added to any calculation, and one that is a single factor can be multiplied to
any single term. The tree of the whole is the tree of the first part with one more item at its end.
-/

namespace Reckoner

open Chain (links)

namespace Chain

variable {Op Item : Type}

/-- A chain with one more item at its end. -/
def extend (chain : Chain Op Item) (op : Op) (x : Item) : Chain Op Item :=
  ⟨chain.head, chain.tail ++ [(op, x)]⟩

theorem links_append (symbol : Op → Operator) (item : Item → List Token) (tail more : List (Op × Item)) :
    links symbol item (tail ++ more) = links symbol item tail ++ links symbol item more :=
  List.flatMap_append

theorem tokens_extend (symbol : Op → Operator) (item : Item → List Token) (chain : Chain Op Item) (op : Op) (x : Item) :
    (chain.extend op x).tokens symbol item = chain.tokens symbol item ++ .operator (symbol op) :: item x := by
  simp [tokens, extend, links_append]

theorem value_extend (apply : Op → Float → Float → Float) (item : Item → Float) (chain : Chain Op Item) (op : Op)
    (x : Item) : (chain.extend op x).value apply item = apply op (chain.value apply item) (item x) := by
  simp [value, extend]

end Chain

namespace Factor

/-- A factor with one more factorial. -/
def raised (factor : Factor) : Factor := { factor with factorials := factor.factorials + 1 }

theorem tokens_raised (factor : Factor) : factor.raised.tokens = factor.tokens ++ [.operator .factorial] := by
  obtain ⟨pluses, negated, operand, factorials⟩ := factor
  cases negated <;> simp [tokens, raised, List.replicate_succ']

theorem value_raised (factor : Factor) : factor.raised.value = Factorial.value factor.value := by
  obtain ⟨pluses, negated, operand, factorials⟩ := factor
  exact Function.iterate_succ_apply' Factorial.value factorials _

end Factor

namespace Token

/-- A list that ends with an operand or its factorials. -/
def EndsOperand (tokens : List Token) : Prop :=
  ∃ last, tokens.getLast? = some last ∧ last.endsOperand = true

/-- No `+` or `-` stands right after an operand or its factorials, so none joins terms. -/
def IsTerm (tokens : List Token) : Prop :=
  tokens.IsChain fun a b => ¬(a.endsOperand = true ∧ b.sum?.isSome = true)

/-- Nothing joins terms, and nothing joins factors. -/
structure IsFactor (tokens : List Token) : Prop where
  term : IsTerm tokens
  noProduct : ∀ token ∈ tokens, token.product? = none

instance (tokens : List Token) : Decidable (IsTerm tokens) := inferInstanceAs (Decidable (List.IsChain _ tokens))

instance (tokens : List Token) : Decidable (IsFactor tokens) :=
  decidable_of_iff (IsTerm tokens ∧ ∀ token ∈ tokens, token.product? = none)
    ⟨fun h => ⟨h.1, h.2⟩, fun h => ⟨h.term, h.noProduct⟩⟩

theorem EndsOperand.append (before : List Token) {tokens : List Token} (ends : EndsOperand tokens) :
    EndsOperand (before ++ tokens) := by
  obtain ⟨last, found, isEnd⟩ := ends
  exact ⟨last, by rw [List.getLast?_append, found]; rfl, isEnd⟩

theorem IsTerm.not_joined {before after : List Token} (term : IsTerm (before ++ after)) (ends : EndsOperand before)
    {op : SumOp} {rest : List Token} : after ≠ .operator (.sum op) :: rest := by
  rintro rfl
  obtain ⟨last, found, isEnd⟩ := ends
  exact (List.isChain_append.mp term).2.2 last found _ rfl ⟨isEnd, rfl⟩

end Token

open Token (EndsOperand IsTerm IsFactor)

theorem Factor.endsOperand (factor : Factor) : EndsOperand factor.tokens := by
  obtain ⟨pluses, negated, operand, factorials⟩ := factor
  refine .append _ (.append _ ?_)
  cases factorials with
  | zero => exact ⟨.operand operand, rfl, rfl⟩
  | succ n => exact ⟨.operator .factorial, by simp [List.getLast?_cons, List.replicate_succ'], rfl⟩

theorem Term.endsOperand (term : Term Factor) : EndsOperand (term.tokens Factor.tokens) := by
  obtain ⟨head, products⟩ := term
  induction products using List.reverseRecOn with
  | nil => simpa [Term.tokens, Chain.tokens] using head.endsOperand
  | append_singleton products link _ =>
      have extended : Term.tokens Factor.tokens ⟨head, products ++ [link]⟩ = _ :=
        Chain.tokens_extend .product Factor.tokens ⟨head, products⟩ link.1 link.2
      rw [extended]
      exact .append _ (.append [_] link.2.endsOperand)

namespace Expression

variable {expression : Expression Factor}

theorem eq_of_isTerm (single : IsTerm (expression.tokens Factor.tokens)) : ∃ term, expression = ⟨term, []⟩ := by
  obtain ⟨term, sums⟩ := expression
  cases sums with
  | nil => exact ⟨term, rfl⟩
  | cons link sums => exact (single.not_joined term.endsOperand rfl).elim

theorem eq_of_isFactor (single : IsFactor (expression.tokens Factor.tokens)) :
    ∃ factor, expression = ⟨⟨factor, []⟩, []⟩ := by
  obtain ⟨⟨factor, products⟩, rfl⟩ := eq_of_isTerm single.term
  cases products with
  | nil => exact ⟨factor, rfl⟩
  | cons link products =>
      have member : Token.operator (.product link.1) ∈ Expression.tokens Factor.tokens ⟨⟨factor, link :: products⟩, []⟩ := by
        simp [Expression.tokens_mk, links]
      cases single.noProduct _ member

end Expression

/-- Two texts with an operator symbol between them. -/
def joined (left : String) (op : Operator) (right : String) : String :=
  left ++ String.singleton op.symbol ++ right

namespace Scan

theorem isLiteral_symbol (op : Operator) : isLiteral op.symbol = false := by
  rcases op with (_ | _) | (_ | _) | _ <;> rfl

theorem lexemes_joined (left : String) (op : Operator) (right : String) :
    lexemes (joined left op right) = lexemes left ++ [op.symbol] :: lexemes right := by
  have kept : isKept op.symbol = true := isKept_iff.mpr (.inr ⟨op, Operator.ofChar?_eq_some.mpr rfl⟩)
  simp only [lexemes, joined, String.toList_append, String.toList_singleton, List.filter_append, List.append_assoc,
    List.singleton_append, List.filter_cons_of_pos kept, splitBy_operator (isLiteral_symbol op)]

/-- The symbol closes the last literal of the text before it, as the end of that text does. -/
theorem outcome_joined (left : String) (op : Operator) (right : String) :
    (tokens (joined left op right)).outcome =
      (tokens left).outcome.bind fun before => (tokens right).outcome.map (before ++ .operator op :: ·) := by
  rw [outcome_eq_mapM, lexemes_joined, List.mapM_append, List.mapM_cons, token_operator (Operator.ofChar?_eq_some.mpr rfl),
    outcome_eq_mapM, outcome_eq_mapM]
  cases (lexemes left).mapM token with
  | error => rfl
  | ok before => cases (lexemes right).mapM token <;> rfl

end Scan

namespace Evaluation

variable {left right : String} {a b : Evaluation}

theorem ofText_eq_ok {text : String} : (ofText text).outcome = .ok a ↔
    (Scan.tokens text).outcome = .ok a.tokens ∧
      ∃ expression : Expression Factor,
        expression.tokens Factor.tokens = a.tokens ∧ expression.value Factor.value = a.value := by
  obtain ⟨value, tokens⟩ := a
  rw [outcome_ofText]
  constructor
  · intro run
    obtain ⟨tokens', scanned, run⟩ := Except.bind_eq_ok.mp run
    obtain ⟨value', computed, same⟩ := Except.map_eq_ok.mp run
    cases same
    exact ⟨scanned, ofTokens_eq_ok.mp computed⟩
  · intro h
    obtain ⟨scanned, derived⟩ := h
    rw [scanned, Except.bind, ofTokens_eq_ok.mpr derived]
    rfl

/-- A sum with a single term on its right is the value before it plus that of the term, or minus it. -/
theorem ofText_sum (op : SumOp) (before : (ofText left).outcome = .ok a) (after : (ofText right).outcome = .ok b)
    (single : IsTerm b.tokens) :
    (ofText (joined left (.sum op) right)).outcome =
      .ok ⟨op.apply a.value b.value, a.tokens ++ .operator (.sum op) :: b.tokens⟩ := by
  obtain ⟨scanned, expression, yields, computes⟩ := ofText_eq_ok.mp before
  obtain ⟨scanned', source, yields', computes'⟩ := ofText_eq_ok.mp after
  obtain ⟨term, rfl⟩ := Expression.eq_of_isTerm (yields'.symm ▸ single)
  have termTokens : Term.tokens Factor.tokens term = b.tokens := by
    rw [← yields']
    exact (List.append_nil _).symm
  refine ofText_eq_ok.mpr ⟨?_, expression.extend op term, ?_, ?_⟩
  · rw [Scan.outcome_joined, scanned, scanned']
    rfl
  · rw [Expression.tokens, Chain.tokens_extend, termTokens, ← yields]
    rfl
  · rw [Expression.value, Chain.value_extend]
    exact congrArg₂ op.apply computes computes'

/-- A product with a single factor on its right is the value of the term before it times that of the factor, or divided
by it. -/
theorem ofText_product (op : ProductOp) (before : (ofText left).outcome = .ok a)
    (after : (ofText right).outcome = .ok b) (term : IsTerm a.tokens) (factor : IsFactor b.tokens) :
    (ofText (joined left (.product op) right)).outcome =
      .ok ⟨op.apply a.value b.value, a.tokens ++ .operator (.product op) :: b.tokens⟩ := by
  obtain ⟨scanned, source, yields, computes⟩ := ofText_eq_ok.mp before
  obtain ⟨scanned', source', yields', computes'⟩ := ofText_eq_ok.mp after
  obtain ⟨term, rfl⟩ := Expression.eq_of_isTerm (yields.symm ▸ term)
  obtain ⟨factor, rfl⟩ := Expression.eq_of_isFactor (yields'.symm ▸ factor)
  have termTokens : Term.tokens Factor.tokens term = a.tokens := by
    rw [← yields]
    exact (List.append_nil _).symm
  have factorTokens : factor.tokens = b.tokens := by
    rw [← yields', Expression.tokens_mk]
    exact (List.append_nil _).symm
  refine ofText_eq_ok.mpr ⟨?_, ⟨term.extend op factor, []⟩, ?_, ?_⟩
  · rw [Scan.outcome_joined, scanned, scanned']
    rfl
  · rw [← termTokens, ← factorTokens]
    exact (List.append_nil _).trans (Chain.tokens_extend .product Factor.tokens term op factor)
  · refine (Chain.value_extend ProductOp.apply Factor.value term op factor).trans ?_
    exact congrArg₂ op.apply computes computes'

theorem ofText_factorial (before : (ofText left).outcome = .ok a) (single : IsFactor a.tokens) :
    (ofText (joined left .factorial "")).outcome =
      .ok ⟨Factorial.value a.value, a.tokens ++ [.operator .factorial]⟩ := by
  obtain ⟨scanned, source, yields, computes⟩ := ofText_eq_ok.mp before
  obtain ⟨factor, rfl⟩ := Expression.eq_of_isFactor (yields.symm ▸ single)
  have factorTokens : factor.tokens = a.tokens := by
    rw [← yields, Expression.tokens_mk]
    exact (List.append_nil _).symm
  refine ofText_eq_ok.mpr ⟨?_, ⟨⟨factor.raised, []⟩, []⟩, ?_, ?_⟩
  · rw [Scan.outcome_joined, scanned]
    rfl
  · rw [← factorTokens, ← Factor.tokens_raised, Expression.tokens_mk]
    exact List.append_nil _
  · exact (Factor.value_raised factor).trans (congrArg Factorial.value computes)

/-- The value of a calculation is made up of those of its parts, and so neither the order of two terms under `+` nor that of
two factors under `*` matters. -/
theorem joined_value :
    (∀ (op : SumOp) {left right : String} {a b : Evaluation}, (ofText left).outcome = .ok a →
      (ofText right).outcome = .ok b → IsTerm b.tokens →
      (ofText (joined left (.sum op) right)).outcome.map Evaluation.value = .ok (op.apply a.value b.value)) ∧
    (∀ (op : ProductOp) {left right : String} {a b : Evaluation}, (ofText left).outcome = .ok a →
      (ofText right).outcome = .ok b → IsTerm a.tokens → IsFactor b.tokens →
      (ofText (joined left (.product op) right)).outcome.map Evaluation.value = .ok (op.apply a.value b.value)) ∧
    (∀ {text : String} {a : Evaluation}, (ofText text).outcome = .ok a → IsFactor a.tokens →
      (ofText (text ++ "!")).outcome.map Evaluation.value = .ok (Factorial.value a.value)) ∧
    (∀ {left right : String} {a b : Evaluation}, (ofText left).outcome = .ok a → (ofText right).outcome = .ok b →
      IsTerm a.tokens → IsTerm b.tokens →
      (ofText (left ++ "+" ++ right)).outcome.map Evaluation.value =
        (ofText (right ++ "+" ++ left)).outcome.map Evaluation.value) ∧
    ∀ {left right : String} {a b : Evaluation}, (ofText left).outcome = .ok a → (ofText right).outcome = .ok b →
      IsFactor a.tokens → IsFactor b.tokens →
      (ofText (left ++ "*" ++ right)).outcome.map Evaluation.value =
        (ofText (right ++ "*" ++ left)).outcome.map Evaluation.value := by
  refine ⟨?_, ?_, ?_, ?_, ?_⟩
  · intro op left right a b before after single
    rw [ofText_sum op before after single]
    rfl
  · intro op left right a b before after term factor
    rw [ofText_product op before after term factor]
    rfl
  · intro text a before single
    have run := ofText_factorial before single
    rw [joined, String.append_empty] at run
    exact congrArg (Except.map Evaluation.value) run
  · intro left right a b before after single single'
    have run := ofText_sum .add before after single'
    have swapped := ofText_sum .add after before single
    refine (congrArg (Except.map Evaluation.value) run).trans (Eq.trans ?_ (congrArg (Except.map Evaluation.value) swapped).symm)
    exact congrArg Except.ok (Binary64.add_comm a.value b.value)
  · intro left right a b before after single single'
    have run := ofText_product .multiply before after single.term single'
    have swapped := ofText_product .multiply after before single'.term single
    refine (congrArg (Except.map Evaluation.value) run).trans (Eq.trans ?_ (congrArg (Except.map Evaluation.value) swapped).symm)
    exact congrArg Except.ok (Binary64.mul_comm a.value b.value)

/-- A sum, a term with a sign and two factors, with ignored characters among them. -/
theorem joined_value_signed :
    (ofText (joined "8 - 2" (.sum .add) "-2*3")).outcome.map Evaluation.value =
      .ok (SumOp.add.apply (8 - 2) (-2 * 3)) ∧
    (ofText (joined "-2*3" (.product .divide) "x3!")).outcome.map Evaluation.value =
      .ok (ProductOp.divide.apply (-2 * 3) (Factorial.value 3)) ∧
    (ofText ("x3!" ++ "!")).outcome.map Evaluation.value = .ok (Factorial.value (Factorial.value 3)) ∧
    (ofText ("-2*3" ++ "+" ++ "x3!")).outcome.map Evaluation.value =
      (ofText ("x3!" ++ "+" ++ "-2*3")).outcome.map Evaluation.value ∧
    (ofText ("x3!" ++ "*" ++ "-4")).outcome.map Evaluation.value =
      (ofText ("-4" ++ "*" ++ "x3!")).outcome.map Evaluation.value := by
  have sum : (ofText "8 - 2").outcome = .ok ⟨8 - 2, [.operand 8, .operator (.sum .subtract), .operand 2]⟩ := by
    decide +kernel
  have term : (ofText "-2*3").outcome =
      .ok ⟨-2 * 3, [.operator (.sum .subtract), .operand 2, .operator (.product .multiply), .operand 3]⟩ := by
    decide +kernel
  have factor : (ofText "x3!").outcome = .ok ⟨Factorial.value 3, [.operand 3, .operator .factorial]⟩ := by
    decide +kernel
  have negative : (ofText "-4").outcome = .ok ⟨-4, [.operator (.sum .subtract), .operand 4]⟩ := by
    decide +kernel
  have added := joined_value.1 .add sum term (by decide)
  have divided := joined_value.2.1 .divide term factor (by decide) (by decide)
  have raised := joined_value.2.2.1 factor (by decide)
  have addedEither := joined_value.2.2.2.1 term factor (by decide) (by decide)
  have multipliedEither := joined_value.2.2.2.2 factor negative (by decide) (by decide)
  dsimp only at added divided raised
  exact ⟨added, divided, raised, addedEither, multipliedEither⟩

end Evaluation

end Reckoner
