import Reckoner.Proofs.Derivation

/-! # Calculations have the values of the grammar

The three stages in a row give a value to exactly those lists of tokens that the grammar derives, and it is the value of
the one tree that the list is read from.
-/

namespace Reckoner

open Token (alone)
open Chain (links)

theorem Factor.factorials_unique {n m : Nat} {more more' : List Token}
    (h : more.head? ≠ some (.operator .factorial)) (h' : more'.head? ≠ some (.operator .factorial))
    (same : List.replicate n (.operator .factorial) ++ more = List.replicate m (.operator .factorial) ++ more') :
    n = m ∧ more = more' := by
  induction n generalizing m with
  | zero =>
      cases m with
      | zero => exact ⟨rfl, same⟩
      | succ m =>
          subst same
          simp [List.replicate_succ] at h
  | succ n ih =>
      cases m with
      | zero =>
          subst same
          simp [List.replicate_succ] at h'
      | succ m =>
          obtain ⟨rfl, rfl⟩ := ih (by simpa [List.replicate_succ] using same)
          exact ⟨rfl, rfl⟩

theorem Factor.tokens_unique {factor factor' : Factor} {more more' : List Token}
    (h : more.head? ≠ some (.operator .factorial)) (h' : more'.head? ≠ some (.operator .factorial))
    (same : factor.tokens ++ more = factor'.tokens ++ more') : factor = factor' ∧ more = more' := by
  obtain ⟨pluses, negated, operand, factorials⟩ := factor
  obtain ⟨pluses', negated', operand', factorials'⟩ := factor'
  induction pluses generalizing pluses' with
  | zero =>
      cases pluses' with
      | zero =>
          obtain ⟨sameSign, sameOperand, rest⟩ : negated = negated' ∧ operand = operand' ∧
              List.replicate factorials (.operator .factorial) ++ more =
                List.replicate factorials' (.operator .factorial) ++ more' := by
            cases negated with
            | false =>
                cases negated' with
                | false => simpa [Factor.tokens] using same
                | true => cases same
            | true =>
                cases negated' with
                | false => cases same
                | true => simpa [Factor.tokens] using same
          obtain ⟨rfl, rfl⟩ := factorials_unique h h' rest
          subst sameSign sameOperand
          exact ⟨rfl, rfl⟩
      | succ n => cases negated <;> cases same
  | succ n ih =>
      cases pluses' with
      | zero => cases negated' <;> cases same
      | succ m =>
          obtain ⟨equal, rfl⟩ := ih m (by simpa [Factor.tokens, List.replicate_succ] using same)
          cases equal
          exact ⟨rfl, rfl⟩

/-- What follows a factor does not start with a factorial. -/
theorem head_links (products : List (ProductOp × Factor)) (sums : List (SumOp × Term Factor)) :
    (links .product Factor.tokens products ++ links .sum (Term.tokens Factor.tokens) sums).head? ≠
      some (.operator .factorial) := by
  cases products <;> cases sums <;> simp [links]

theorem links_unique {products products' : List (ProductOp × Factor)} {sums sums' : List (SumOp × Term Factor)}
    (same : links .product Factor.tokens products ++ links .sum (Term.tokens Factor.tokens) sums =
      links .product Factor.tokens products' ++ links .sum (Term.tokens Factor.tokens) sums') :
    products = products' ∧ sums = sums' := by
  match products, products', sums, sums' with
  | [], [], [], [] => exact ⟨rfl, rfl⟩
  | (op, factor) :: products, (op', factor') :: products', sums, sums' =>
      simp only [Chain.links_cons, List.cons_append, List.append_assoc, List.cons.injEq, Token.operator.injEq,
        Operator.product.injEq] at same
      obtain ⟨rfl, same⟩ := same
      obtain ⟨rfl, rest⟩ := Factor.tokens_unique (head_links _ _) (head_links _ _) same
      obtain ⟨rfl, rfl⟩ := links_unique rest
      exact ⟨rfl, rfl⟩
  | [], [], (op, ⟨head, products⟩) :: sums, (op', ⟨head', products'⟩) :: sums' =>
      simp only [Chain.links_nil, Chain.links_cons, Term.tokens, Chain.tokens, List.nil_append, List.append_assoc,
        List.cons.injEq, Token.operator.injEq, Operator.sum.injEq] at same
      obtain ⟨rfl, same⟩ := same
      obtain ⟨rfl, rest⟩ := Factor.tokens_unique (head_links _ _) (head_links _ _) same
      obtain ⟨rfl, rfl⟩ := links_unique rest
      exact ⟨rfl, rfl⟩
  | [], (_, _) :: _, [], _ => cases same
  | [], (_, _) :: _, (_, _) :: _, _ => cases same
  | (_, _) :: _, [], _, [] => cases same
  | (_, _) :: _, [], _, (_, _) :: _ => cases same
  | [], [], [], (_, _) :: _ => cases same
  | [], [], (_, _) :: _, [] => cases same
termination_by (sums.length, products.length)

theorem Expression.tokens_injective : Function.Injective (Expression.tokens Factor.tokens) := by
  rintro ⟨⟨head, products⟩, sums⟩ ⟨⟨head', products'⟩, sums'⟩ same
  rw [Expression.tokens_mk, Expression.tokens_mk] at same
  obtain ⟨rfl, rest⟩ := Factor.tokens_unique (head_links _ _) (head_links _ _) same
  obtain ⟨rfl, rfl⟩ := links_unique rest
  rfl

theorem Expression.value_stages (expression : Expression Factor) :
    Chain.value SumOp.apply id (Chain.map (Term.value id) (expression.map Factor.value)) =
      expression.value Factor.value := by
  have term : Term.value id ∘ Chain.map Factor.value = Term.value Factor.value := by
    funext term
    exact Chain.value_map ProductOp.apply id Factor.value term
  rw [Chain.value_map, Expression.map, Chain.value_map, Function.id_comp, term]
  rfl

/-- The stages give a value to the lists that the grammar derives, that of the tree. -/
theorem Evaluation.ofTokens_eq_ok {tokens : List Token} {value : Float} : (ofTokens tokens).outcome = .ok value ↔
    ∃ expression : Expression Factor,
      expression.tokens Factor.tokens = tokens ∧ expression.value Factor.value = value := by
  rw [outcome_ofTokens]
  constructor
  · intro run
    obtain ⟨binary, signs, run⟩ := Except.bind_eq_ok.mp run
    obtain ⟨sums, products, fold⟩ := Except.bind_eq_ok.mp run
    obtain ⟨-, chain, rfl, rfl⟩ := Sums.chain_of_fold fold
    obtain ⟨terms, rfl, rfl⟩ := Products.expression_of_quiet products
    obtain ⟨source, rfl, rfl⟩ := Signs.expression_of_quiet signs
    exact ⟨source, rfl, source.value_stages.symm⟩
  · intro h
    obtain ⟨expression, rfl, rfl⟩ := h
    rw [Signs.quiet_expression]
    simp only [Except.bind, Products.quiet_expression, Sums.fold_chain, Expression.value_stages]

/-- The stages give a value to exactly those lists that the grammar derives, by a single tree, and the value is that of
the tree. A text has the value of its tokens. -/
theorem Evaluation.ok_iff_expression :
    (∀ tokens value, (ofTokens tokens).outcome = .ok value ↔
      ∃ expression : Expression Factor,
        expression.tokens Factor.tokens = tokens ∧ expression.value Factor.value = value) ∧
    Function.Injective (Expression.tokens Factor.tokens) ∧
    ∀ text, (ofText text).outcome =
      (Scan.tokens text).outcome.bind fun tokens => (ofTokens tokens).outcome.map fun value => ⟨value, tokens⟩ :=
  ⟨fun _ _ => ofTokens_eq_ok, Expression.tokens_injective, outcome_ofText⟩

end Reckoner
